import NotiService.Wire

/-! Where the title and the message of a notification come from: the variables first, then the
rendered text, then the name of the template, each asked until one has something to show. -/

namespace NotiService.Wire
open Foundation Text

/-- The trimmed text of a string variable, if that is not empty. -/
def nonblank (vars : Json) (key : String) : Option String :=
  match vars.get key with
  | some (.str s) => if trim s.toList = [] then none else some (String.ofList (trim s.toList))
  | _ => none

def Blank (vars : Json) (key : String) : Prop := ∃ s, vars.get key = some (.str s) ∧
    trim s.toList = []

/-- At least three of `mark`, with white space around them at most. -/
def Ruled (mark : Char) (line : List Char) : Prop := ∃ n, 3 ≤ n ∧ trim line = List.replicate n mark

theorem ruled_iff {mark : Char} {line : List Char} :
    Ruled mark line ↔ 3 ≤ (trim line).length ∧ ∀ c ∈ trim line, c = mark := by
  constructor
  · rintro ⟨n, hn, hline⟩
    rw [hline, List.length_replicate]
    exact ⟨hn, fun c hc => List.eq_of_mem_replicate hc⟩
  · rintro ⟨hlength, hmark⟩
    exact ⟨_, hlength, List.eq_replicate_of_mem hmark⟩

instance {mark : Char} {line : List Char} : Decidable (Ruled mark line) :=
    @decidable_of_iff' _ _ ruled_iff (@instDecidableAnd _ _ _ (List.decidableBAll _ _))

/-- The heading line, when the second line underlines the first, and the lines left without both. -/
def layout : List (List Char) → Option (List Char) × List (List Char)
  | first :: second :: rest =>
    if Ruled '-' second ∨ Ruled '=' second then (some first, rest)
    else (none, first :: second :: rest)
  | lines => (none, lines)

def linesOf (rendered : String) : List (List Char) := (trim rendered.toList).splitOn '\n'

variable (upper : Uppercase)

def textTitle (templateId rendered : String) : String :=
  match (layout (linesOf rendered)).1 with
  | some heading => String.ofList (trim heading)
  | none => humanize upper (templateStem templateId)

def displayTitle (templateId : String) (vars : Json) (rendered : String) : String :=
  ((nonblank vars "title").or (nonblank vars "headline")).getD (textTitle upper templateId rendered)

def displayMessage (vars : Json) (rendered : String) : String :=
  (nonblank vars "body").getD
    (String.ofList (trim (['\n'].intercalate (layout (linesOf rendered)).2)))

variable {upper} {vars : Json} {key : String}

theorem isUnderline_iff {line : List Char} :
    isUnderline (trim line) ↔ Ruled '-' line ∨ Ruled '=' line := by
  simp only [isUnderline, ruled_iff, Bool.and_eq_true, Bool.or_eq_true, decide_eq_true_eq,
    List.all_eq_true]
  exact and_or_left

theorem splitHeading_eq (text : List Char) : splitHeading text =
    ((layout (text.splitOn '\n')).1.map trim,
      ['\n'].intercalate (layout (text.splitOn '\n')).2) := by
  have hwhole : ['\n'].intercalate (text.splitOn '\n') = text := List.intercalate_splitOn '\n'
  unfold splitHeading
  cases hsplit : splitOnce '\n' text with
  | none =>
    rw [splitOn_of_splitOnce_none hsplit] at hwhole ⊢
    exact congrArg (Prod.mk none) hwhole.symm
  | some cut =>
    obtain ⟨first, rest⟩ := cut
    obtain ⟨second, lines, body, hlines, hrest, hbody⟩ : ∃ second lines body,
        rest.splitOn '\n' = second :: lines ∧
          (splitOnce '\n' rest).getD (rest, []) = (second, body) ∧
          body = ['\n'].intercalate lines := by
      cases hsplit' : splitOnce '\n' rest with
      | none => exact ⟨rest, [], [], splitOn_of_splitOnce_none hsplit', rfl, rfl⟩
      | some cut' =>
        obtain ⟨second, body⟩ := cut'
        exact ⟨second, body.splitOn '\n', body, splitOn_of_splitOnce hsplit', rfl,
          (List.intercalate_splitOn '\n').symm⟩
    rw [splitOn_of_splitOnce hsplit, hlines] at hwhole ⊢
    dsimp only
    rw [hrest, layout]
    dsimp only
    by_cases hruled : Ruled '-' second ∨ Ruled '=' second
    · rw [if_pos (isUnderline_iff.mpr hruled), if_pos hruled, hbody]
      rfl
    · rw [if_neg (mt isUnderline_iff.mp hruled), if_neg hruled]
      exact congrArg (Prod.mk none) hwhole.symm

theorem variableOf_nil : variableOf vars [] = none := rfl

theorem variableOf_cons {keys : List String} : variableOf vars (key :: keys) =
    if ((vars.get key).bind Json.asStr).isSome then nonblank vars key else variableOf vars
        keys := by
  have hkeep (s : List Char) : (some (String.ofList s)).filter (· ≠ "") =
      if s = [] then none else some (String.ofList s) := by
    cases s <;> simp [Option.filter]
  unfold variableOf nonblank
  rw [List.findSome?_cons]
  cases hget : vars.get key with
  | none => rfl
  | some v =>
    cases v with
    | str s => exact hkeep (trim s.toList)
    | _ => rfl

theorem nonblank_of_not_string (h : ((vars.get key).bind Json.asStr).isSome = false) :
    nonblank vars key = none := by
  unfold nonblank
  split
  · next heq =>
    rw [heq] at h
    cases h
  · rfl

theorem variableOf_singleton : variableOf vars [key] = nonblank vars key := by
  rw [variableOf_cons, variableOf_nil]
  split
  · rfl
  · next h => exact (nonblank_of_not_string (Bool.not_eq_true _ ▸ h)).symm

theorem blank_iff : Blank vars key ↔
    ((vars.get key).bind Json.asStr).isSome ∧ nonblank vars key = none := by
  unfold Blank nonblank
  cases vars.get key with
  | none => simp
  | some v => cases v <;> simp [Json.asStr]

/-- A blank first variable hides the second one. -/
theorem variableOf_pair (first second : String) : variableOf vars [first, second] =
    if ((vars.get first).bind Json.asStr).isSome then nonblank vars first else nonblank vars
        second := by
  rw [variableOf_cons, variableOf_singleton]

theorem titleAndMessage_sources (templateId rendered : String) :
    titleAndMessage upper templateId vars rendered =
      ((variableOf vars ["title", "headline"]).getD (textTitle upper templateId rendered),
        displayMessage vars rendered) := by
  have hheading : ∀ heading : Option (List Char),
      ((heading.map trim).map String.ofList).getD (humanize upper (templateStem templateId)) =
        match heading with
        | some heading => String.ofList (trim heading)
        | none => humanize upper (templateStem templateId) := by
    rintro (_ | _) <;> rfl
  rw [titleAndMessage, splitHeading_eq, textTitle, displayMessage, variableOf_singleton, ← hheading]
  rfl

/-- The sources are asked in order, except that a blank `title` lets `headline` be passed over. -/
theorem titleAndMessage_display_iff (upper : Uppercase) (templateId : String) (vars : Json)
    (rendered : String) :
    titleAndMessage upper templateId vars rendered =
        (displayTitle upper templateId vars rendered, displayMessage vars rendered) ↔
      (Blank vars "title" → ∀ headline, nonblank vars "headline" = some headline →
        headline = textTitle upper templateId rendered) := by
  rw [titleAndMessage_sources, Prod.mk.injEq, and_iff_left rfl, variableOf_pair, displayTitle,
    blank_iff]
  cases hstring : ((vars.get "title").bind Json.asStr).isSome with
  | false => simp [nonblank_of_not_string hstring]
  | true =>
    cases htitle : nonblank vars "title" with
    | some title => simp
    | none =>
      cases nonblank vars "headline" with
      | none => simp
      | some headline => simp [eq_comm]

/-- A wallet alert with a blank title goes by the name of its template. -/
theorem titleAndMessage_blank :
    let upper : Uppercase := ⟨fun c => [c.toUpper], fun _ _ => rfl⟩
    let vars := Json.obj [("title", .str " "), ("headline", .str "New Wallet Linked")]
    let rendered := "SECURITY ALERT: New Wallet Linked\n\nWallet Address: 0xabc"
    (titleAndMessage upper "security_alert.txt.tera" vars rendered).1 = "Security Alert" ∧
      displayTitle upper "security_alert.txt.tera" vars rendered = "New Wallet Linked" ∧
      titleAndMessage upper "security_alert.txt.tera" vars rendered ≠
        (displayTitle upper "security_alert.txt.tera" vars rendered,
            displayMessage vars rendered) := by
  decide +kernel

end NotiService.Wire
