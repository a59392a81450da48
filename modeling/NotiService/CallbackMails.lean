import NotiService.Callbacks
import NotiService.MailText

/-! The links of mails as they are read in the text part. The template prints a link twice: in
the button, where the text part does not have it, and on a line of its own below. -/

namespace NotiService
open Foundation Text Smtp

namespace HtmlTemplates

variable {T : Tera} {vars : Json} {st : Scan} {piece : Piece} {pieces : List Piece} {t : List Char}

/-- The line is blank so far, after what is read. -/
def blankSoFar : Bool → List Char → Bool
  | blank, [] => blank
  | blank, c :: s => blankSoFar (c = '\n' || (blank && whitespace c)) s

/-- The rest of the line is blank; `none` if it does not end here. -/
def restBlank : List Char → Option Bool
  | [] => none
  | c :: s => if c = '\n' then some true else if whitespace c then restBlank s else some false

def endsLine : Scan → List Piece → Bool
  | _, [] => true
  | st, .text s :: pieces =>
    match restBlank (st.shown s.chars) with
    | some blank => blank
    | none => (st.scan s.chars).any fun st => endsLine st pieces
  | _, _ => false

def blankAfter (st : Scan) (blank : Bool) : Piece → Bool
  | .text s => blankSoFar blank (st.shown s.chars)
  | .var _ | .quoted _ => blank && st = .tag
  | _ => false

/-- The variable is printed on a line of its own. -/
def ownLine (key : String) : Scan → Bool → List Piece → Bool
  | _, _, [] => false
  | st, blank, piece :: pieces =>
    (match piece with
      | .var name => name = key && st = .text && blank && endsLine st pieces
      | _ => false) ||
    (pieceScan st piece).any fun st₁ => ownLine key st₁ (blankAfter st blank piece) pieces

theorem lineStart_of_blankSoFar {blank : Bool} {before s : List Char}
    (hbefore : blank → LineStart before) (h : blankSoFar blank s) : LineStart (before ++ s) := by
  induction s generalizing blank before with
  | nil => simpa using hbefore h
  | cons c s ih =>
    rw [← List.singleton_append, ← List.append_assoc]
    refine ih (fun hblank => ?_) h
    rcases Bool.or_eq_true_iff.mp hblank with hc | hc
    · obtain rfl := of_decide_eq_true hc
      exact lineStart_newline
    · obtain ⟨hblank, hspace⟩ := Bool.and_eq_true_iff.mp hc
      by_cases hc : c = '\n'
      · subst hc
        exact lineStart_newline
      · exact (hbefore hblank).append (List.forall_mem_singleton.mpr ⟨hspace, hc⟩)

theorem lineEnd_of_restBlank {s : List Char} (h : restBlank s = some true ∨
    restBlank s = none ∧ LineEnd t) : LineEnd (s ++ t) := by
  induction s with
  | nil =>
    rcases h with h | ⟨-, ht⟩
    · cases h
    · exact ht
  | cons c s ih =>
    by_cases hc : c = '\n'
    · subst hc
      exact lineEnd_newline
    · by_cases hspace : whitespace c
      · simp only [restBlank, hc, hspace, if_false, if_true] at h
        exact (ih h).append (s := [c]) (List.forall_mem_singleton.mpr ⟨hspace, hc⟩)
      · simp [restBlank, hc, hspace] at h

theorem lineEnd_of_endsLine (h : endsLine st pieces) : LineEnd (textOf T vars st pieces) := by
  induction pieces generalizing st with
  | nil => exact ⟨[], [], rfl, List.forall_mem_nil _, .inl rfl⟩
  | cons piece pieces ih =>
    cases piece with
    | text s =>
      simp only [endsLine] at h
      refine lineEnd_of_restBlank ?_
      split at h
      · next blank hblank =>
        subst h
        exact .inl hblank
      · next hnone =>
        obtain ⟨st₁, hscan, h⟩ := (Option.any_eq_true _ _).mp h
        refine .inr ⟨hnone, ?_⟩
        simpa [pieceScan, hscan] using ih h
    | _ => cases st <;> cases h

theorem lineStart_of_blankAfter {blank : Bool} {before : List Char}
    (hbefore : blank → LineStart before) (h : blankAfter st blank piece) :
    LineStart (before ++ pieceText T vars st piece) := by
  have hidden : ∀ {s : List Char}, (blank && decide (st = .tag)) = true →
      LineStart (before ++ st.pass s) := by
    intro s h
    obtain ⟨hblank, hst⟩ := Bool.and_eq_true_iff.mp h
    obtain rfl := of_decide_eq_true hst
    simpa [Scan.pass] using hbefore hblank
  cases piece with
  | text s => exact lineStart_of_blankSoFar hbefore h
  | var | quoted => exact hidden h
  | _ => cases h

theorem ownLine_sound {key : String} {blank : Bool} {before : List Char}
    (h : ownLine key st blank pieces) (hbefore : blank → LineStart before) :
    ∃ a b, before ++ textOf T vars st pieces = a ++ (value T vars key ++ b) ∧
      LineStart a ∧ LineEnd b := by
  induction pieces generalizing st blank before with
  | nil => cases h
  | cons piece pieces ih =>
    rcases Bool.or_eq_true_iff.mp h with h | h
    · cases piece with
      | var name =>
        simp only [Bool.and_eq_true, decide_eq_true_eq] at h
        obtain ⟨⟨⟨rfl, rfl⟩, hblank⟩, hend⟩ := h
        exact ⟨before, _, rfl, hbefore hblank, lineEnd_of_endsLine hend⟩
      | _ => cases h
    · obtain ⟨st₁, hst, h⟩ := (Option.any_eq_true _ _).mp h
      obtain ⟨a, b, heq, ha, hb⟩ := ih h (lineStart_of_blankAfter hbefore)
      exact ⟨a, b, by simpa [textOf, hst] using heq, ha, hb⟩

theorem value_line {key : String} (h : ownLine key .text true pieces)
    (hne : value T vars key ≠ []) (hvalue : ∀ c ∈ value T vars key, whitespace c = false) :
    value T vars key ∈ (cleanUp (textOf T vars .text pieces)).splitOn '\n' := by
  have hstart : LineStart [] := ⟨[], [], rfl, .inl rfl, List.forall_mem_nil _⟩
  obtain ⟨a, b, heq, ⟨x, pad, rfl, hx, hpad⟩, ⟨pad', y, rfl, hpad', hy⟩⟩ :=
    @ownLine_sound T vars .text pieces key true [] h fun _ => hstart
  have hnewline : '\n' ∉ value T vars key := fun hmem => by cases hvalue _ hmem
  have hline : pad ++ (value T vars key ++ pad') ∈ (textOf T vars .text pieces).splitOn '\n' := by
    rw [List.nil_append] at heq
    have hwhole : '\n' ∉ pad ++ (value T vars key ++ pad') := by
      simp only [List.mem_append, not_or]
      exact ⟨fun hmem => (hpad _ hmem).2 rfl, hnewline, fun hmem => (hpad' _ hmem).2 rfl⟩
    have hmem := mem_splitOn_between hx hy hwhole
    simpa [heq] using hmem
  have htrim : trim (pad ++ (value T vars key ++ pad')) = value T vars key :=
    trim_between (fun c hc => (hpad c hc).1) (fun c hc => (hpad' c hc).1) hne hvalue
  obtain ⟨l, hl, heq⟩ := exists_mem_lines hline (htrim.symm ▸ hne)
  refine mem_splitOn_intercalate (List.mem_filter.mpr ⟨?_, decide_eq_true hne⟩) hnewline
  exact List.mem_map.mpr ⟨l, hl, heq.trans htrim⟩

end HtmlTemplates

open Events HtmlTemplates

namespace CallbackEvent

variable {env : EventEnv} {e : CallbackEvent} {c : Callback} {data : Json} {q : Queued}

def templateId : CallbackEvent → String
  | .passwordReset => "password_reset.html.tera"
  | .verificationEmail => "verify_email.html.tera"
  | .walletLink => "confirm_wallet.html.tera"

theorem templateId_mem (e : CallbackEvent) : e.templateId ∈ Templates.pages := by
  cases e <;> decide

theorem ownLine_page : ∀ p ∈ pages, ∀ e : CallbackEvent, p.1 = e.templateId →
    ownLine e.linkVar .text true p.2 := by
  have hown : ∀ p ∈ pages, ∀ e ∈ [passwordReset, verificationEmail, walletLink],
      p.1 = e.templateId → ownLine e.linkVar .text true p.2 := by decide +kernel
  intro p hp e
  exact hown p hp e (by cases e <;> simp)

theorem isSome_of_members {members : List (String × Json)} {key : String} {v : Json}
    (hstrings : ∀ m ∈ members, m.2.asStr.isSome) (hv : (Json.obj members).get key = some v) :
    v.asStr.isSome := by
  obtain ⟨m, hm, rfl⟩ := Option.map_eq_some_iff.mp hv
  exact hstrings m (List.mem_of_find?_eq_some hm)

theorem of_queued (hc : e.payload data = some c) (hq : q ∈ queued env e.eventType data) :
    q.templateId = e.templateId ∧ q.vars.get e.linkVar = some (.str (e.link env c)) ∧
      ∀ key v, q.vars.get key = some v → v.asStr.isSome := by
  cases e with
  | passwordReset =>
    obtain ⟨p, hp, rfl⟩ := Option.map_eq_some_iff.mp hc
    change q ∈ passwordResetRequested env data at hq
    simp only [passwordResetRequested, hp] at hq
    obtain ⟨-, hq⟩ := List.mem_ite_nil_left.mp hq
    obtain rfl := List.mem_singleton.mp hq
    exact ⟨rfl, rfl, fun _ _ => isSome_of_members (by simp [Json.asStr])⟩
  | verificationEmail =>
    obtain ⟨p, hp, rfl⟩ := Option.map_eq_some_iff.mp hc
    change q ∈ verificationEmailRequested env data at hq
    simp only [verificationEmailRequested, hp] at hq
    obtain ⟨-, hq⟩ := List.mem_ite_nil_left.mp hq
    obtain ⟨-, hq⟩ := List.mem_ite_nil_left.mp hq
    obtain rfl := List.mem_singleton.mp hq
    exact ⟨rfl, rfl, fun _ _ => isSome_of_members (by simp [Json.asStr])⟩
  | walletLink =>
    obtain ⟨p, hp, rfl⟩ := Option.map_eq_some_iff.mp hc
    change q ∈ walletLinkRequested env data at hq
    simp only [walletLinkRequested, hp] at hq
    obtain ⟨-, hq⟩ := List.mem_ite_nil_left.mp hq
    obtain ⟨-, hq⟩ := List.mem_ite_nil_left.mp hq
    obtain rfl := List.mem_singleton.mp hq
    exact ⟨rfl, rfl, fun _ _ => isSome_of_members (by simp [Json.asStr])⟩

end CallbackEvent

/-- Who reads only the text part of a callback mail finds the link there as it was made, on a
line of its own. -/
theorem callback_link_shown (T : Tera) (hdisplay : ∀ s, T.display (.str s) = s) {env : EventEnv}
    {e : CallbackEvent} {c : Callback} {data : Json} {q : Queued} (hc : e.payload data = some c)
    (hq : q ∈ queued env e.eventType data) (hne : e.link env c ≠ "")
    (hlink : ∀ d ∈ (e.link env c).toList, whitespace d = false) {now : Int} {page : String}
    (hrender : T.shipped.render q.templateId q.vars now = some page) {smtp : SmtpEnv}
    {mail : Mail} (hmail : email smtp q.recipient page = .ok mail) :
    ∃ text, mail.body = .alternative text page ∧
      (e.link env c).toList ∈ text.toList.splitOn '\n' := by
  obtain ⟨hid, hvar, hstrings⟩ := CallbackEvent.of_queued hc hq
  have hlegible : Legible T q.vars := fun key v hv => .inl (hstrings key v hv)
  rw [hid] at hrender
  obtain ⟨p, hp, hbody⟩ := mail_text_part T e.templateId_mem hlegible hrender hmail
  have hvalue : value T q.vars e.linkVar = (e.link env c).toList := by
    simp [value, hvar, hdisplay]
  have hown : ownLine e.linkVar .text true p.2 :=
    CallbackEvent.ownLine_page p (List.mem_of_find?_eq_some hp) e
      (by simpa using List.find?_some hp)
  refine ⟨_, hbody, ?_⟩
  rw [String.toList_ofList, ← hvalue]
  refine value_line hown ?_ ?_
  · rw [hvalue, ne_eq, String.toList_eq_nil_iff]
    exact hne
  · rw [hvalue]
    exact hlink

theorem callback_link_shown_verification :
    ∃ q ∈ queued (.serving (some "https://app.gridtokenx.test/")) "VerificationEmailRequested"
        (tokenPayload "a&b=c"),
      ∃ page mail text, Tera.sample.shipped.render q.templateId q.vars 0 = some page ∧
        email okEnv q.recipient page = .ok mail ∧ mail.body = .alternative text page ∧
        "https://app.gridtokenx.test/verify?token=a%26b%3Dc&email=ann%40example.com".toList ∈
          text.toList.splitOn '\n' := by
  let env : EventEnv := .serving (some "https://app.gridtokenx.test/")
  let c : Callback := ⟨"", "a&b=c", "ann@example.com", some ("email", "ann@example.com")⟩
  have hlink : CallbackEvent.link env .verificationEmail c =
      "https://app.gridtokenx.test/verify?token=a%26b%3Dc&email=ann%40example.com" := by
    decide +kernel
  refine ⟨_, List.mem_singleton_self _, ?_⟩
  have hrequired : Templates.required "verify_email.html.tera" =
      some (List.replicate 3 "verification_url") := by decide +kernel
  have hrenders : (Tera.sample.shipped.render "verify_email.html.tera"
      (.obj [("name", .str ""),
        ("verification_url", .str (CallbackEvent.link env .verificationEmail c))]) 0).isSome :=
    Tera.render_isSome_iff.mpr ⟨_, hrequired, by simp [Json.lookup]⟩
  obtain ⟨page, hpage⟩ := Option.isSome_iff_exists.mp hrenders
  obtain ⟨mail, hmail⟩ : ∃ mail, email okEnv "ann@example.com" page = .ok mail := ⟨_, rfl⟩
  obtain ⟨text, hbody, hmem⟩ := @callback_link_shown Tera.sample (fun _ => rfl) env
    .verificationEmail c (tokenPayload "a&b=c") _ rfl (List.mem_singleton_self _)
    (by rw [hlink]; decide) (by rw [hlink]; simp [whitespace]) 0 page hpage okEnv mail hmail
  rw [hlink] at hmem
  exact ⟨page, mail, text, hpage, hmail, hbody, hmem⟩

end NotiService
