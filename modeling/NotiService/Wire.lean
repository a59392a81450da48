import NotiService.Domain
import NotiService.Foundation.Text

/-! The client-facing projection of a notification: its event type, and the title and message
taken from its variables or from rendered text. -/

namespace NotiService
open Foundation Text

/-- `char::to_uppercase`, which may give several characters. -/
structure Uppercase where
  map : Char → List Char
  ascii : ∀ c, c.toNat < 128 → map c = [c.toUpper]

namespace Wire

def templateStem (templateId : String) : String :=
  match splitOnce '.' templateId.toList with
  | some (stem, _) => String.ofList stem
  | none => templateId

def htmlSuffix : List Char := ".html.tera".toList

def textTemplateId (templateId : String) : String :=
  if htmlSuffix.isSuffixOf templateId.toList then
    String.ofList (templateId.toList.rdrop htmlSuffix.length) ++ ".txt.tera"
  else templateId

/-- First of `keys` that is a string, if that is not empty when trimmed. -/
def variableOf (vars : Json) (keys : List String) : Option String :=
  ((keys.findSome? fun key => (vars.get key).bind Json.asStr).map fun s =>
    String.ofList (trim s.toList)).filter (· ≠ "")

variable (upper : Uppercase)

def capitalize : List Char → List Char
  | [] => []
  | c :: rest => upper.map c ++ rest

def words (stem : String) : List (List Char) := (stem.toList.splitOn '_').filter (· ≠ [])

def pascalCase (stem : String) : String := String.ofList
    ((words stem).map (capitalize upper)).flatten

def humanize (stem : String) : String :=
  String.ofList ([' '].intercalate ((words stem).map (capitalize upper)))

def eventType (templateId : String) : String :=
  match templateStem templateId with
  | "trade_matched" => "OrderMatched"
  | "welcome" => "EmailVerified"
  | "new_login" => "UserLoggedIn"
  | "password_reset" => "PasswordResetRequested"
  | "confirm_wallet" => "WalletLinkRequested"
  | "verify_email" => "VerificationEmailRequested"
  | other => pascalCase upper other

/-- Of `-` or of `=` only, so its characters are its bytes. -/
def isUnderline (s : List Char) : Bool := 3 ≤ s.length && (s.all (· = '-') || s.all (· = '='))

def splitHeading (text : List Char) : Option (List Char) × List Char :=
  match splitOnce '\n' text with
  | none => (none, text)
  | some (first, rest) =>
    let (second, body) := (splitOnce '\n' rest).getD (rest, [])
    if isUnderline (trim second) then (some (trim first), body) else (none, text)

def titleAndMessage (templateId : String) (vars : Json) (rendered : String) : String × String :=
  let (heading, body) := splitHeading (trim rendered.toList)
  ((variableOf vars ["title", "headline"]).getD
      ((heading.map String.ofList).getD (humanize upper (templateStem templateId))),
    (variableOf vars ["body"]).getD (String.ofList (trim body)))

end Wire

structure NotificationView where
  notification : Notification
  eventType : String
  title : String
  message : String
  isRead : Bool

def NotificationView.new (upper : Uppercase) (n : Notification) (rendered : String) :
    NotificationView :=
  let (title, message) := Wire.titleAndMessage upper n.templateId n.vars rendered
  ⟨n, Wire.eventType upper n.templateId, title, message, n.readAt.isSome⟩

namespace Wire

variable {upper : Uppercase} {text first second body s t : List Char}

theorem splitHeading_headed (hfirst : '\n' ∉ first) (hsecond : '\n' ∉ second)
    (hunderline : isUnderline (trim second)) :
    splitHeading (first ++ '\n' :: (second ++ '\n' :: body)) = (some (trim first), body) := by
  rw [splitHeading, splitOnce_append hfirst]
  dsimp only
  rw [splitOnce_append hsecond, Option.getD_some, if_pos hunderline]

theorem isUnderline_eq_false {c : Char} (hc : whitespace c = false) (hdash : c ≠ '-')
    (heq : c ≠ '=')
    (hs : s.head? = some c) : isUnderline (trim s) = false := by
  have htrim := head?_trim hc hs
  cases htext : trim s with
  | nil =>
    rw [htext] at htrim
    cases htrim
  | cons d rest =>
    rw [htext] at htrim
    obtain rfl := Option.some.inj htrim
    simp [isUnderline, hdash, heq]

theorem splitHeading_plain {c : Char} (hfirst : '\n' ∉ first) (hbody : body.head? = some c)
    (hc : c = '\n' ∨ (whitespace c = false ∧ c ≠ '-' ∧ c ≠ '=')) :
    splitHeading (first ++ '\n' :: body) = (none, first ++ '\n' :: body) := by
  have hline : ∀ line, (∃ rest, body = line ++ rest) → '\n' ∉ line →
      isUnderline (trim line) = false := by
    rintro line ⟨rest, rfl⟩ hnewline
    cases line with
    | nil => rfl
    | cons d line =>
      obtain rfl : d = c := Option.some.inj hbody
      rcases hc with rfl | ⟨hspace, hdash, heq⟩
      · exact absurd (List.mem_cons_self ..) hnewline
      · exact isUnderline_eq_false hspace hdash heq rfl
  rw [splitHeading, splitOnce_append hfirst]
  dsimp only
  cases hsplit : splitOnce '\n' body with
  | none =>
    have hbare := hline body ⟨[], (List.append_nil _).symm⟩ (splitOnce_eq_none.mp hsplit)
    rw [Option.getD_none, if_neg (by simp [hbare])]
  | some p =>
    obtain ⟨heq, hnewline⟩ := splitOnce_eq_some.mp hsplit
    have hbare := hline p.1 ⟨_, heq⟩ hnewline
    rw [Option.getD_some, if_neg (by simp [hbare])]

theorem suffix_splitHeading : t <:+ (splitHeading (first ++ '\n' :: (second ++ '\n' :: t))).2 := by
  have hwhole : t <:+ first ++ '\n' :: (second ++ '\n' :: t) :=
    ⟨first ++ '\n' :: (second ++ ['\n']), by simp⟩
  unfold splitHeading
  cases hsplit : splitOnce '\n' (first ++ '\n' :: (second ++ '\n' :: t)) with
  | none => exact hwhole
  | some p =>
    obtain ⟨w, hw⟩ := suffix_of_splitOnce hsplit
    dsimp only
    split
    · cases hsplit' : splitOnce '\n' p.2 with
      | none =>
        have hmem : '\n' ∈ p.2 := by
          rw [← hw]
          simp
        exact absurd hmem (splitOnce_eq_none.mp hsplit')
      | some q =>
        rw [← hw, ← List.append_assoc] at hsplit'
        exact suffix_of_splitOnce hsplit'
    · exact hwhole

theorem head?_splitHeading {c : Char} {heading : List Char} (hc : whitespace c = false)
    (htext : text.head? = some c) (h : (splitHeading text).1 = some heading) :
    heading.head? = some c := by
  unfold splitHeading at h
  split at h
  · cases h
  · next line rest hsplit =>
    dsimp only at h
    split at h
    · cases h
      obtain ⟨rfl, -⟩ := splitOnce_eq_some.mp hsplit
      refine head?_trim hc ?_
      cases line with
      | nil =>
        obtain rfl : '\n' = c := Option.some.inj htext
        cases hc
      | cons d line => exact htext
    · cases h

end Wire

end NotiService
