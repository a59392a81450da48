import NotiService.Foundation.Text

/-! The lines and the words of a text, and texts on a single line. -/

namespace NotiService.Foundation.Text

/-- A line ends at a line feed, with a carriage return before it or without. The last one need
not end, if there is anything in it. -/
def lines (s : List Char) : List (List Char) :=
  (s.splitOn '\n').dropLast.map (fun line =>
    if line.getLast? = some '\r' then line.dropLast else line) ++
    (s.splitOn '\n').getLast?.toList.filter (· ≠ [])

def words (s : List Char) : List (List Char) := (s.splitOnP whitespace).filter (· ≠ [])

structure SingleLine (s : List Char) : Prop where
  nonempty : s ≠ []
  leading : ∀ c, s.head? = some c → whitespace c = false
  trailing : ∀ c, s.getLast? = some c → whitespace c = false
  spaces : ∀ c ∈ s, whitespace c → c = ' '
  single : ¬ [' ', ' '] <:+: s

variable {c : Char} {s w : List Char} {ws : List (List Char)}

theorem forall_mem_of_all {P : Char → Prop} [DecidablePred P]
    (h : s.all (fun c => decide (P c)) = true) : ∀ c ∈ s, P c :=
  fun c hc => of_decide_eq_true (List.all_eq_true.mp h c hc)

theorem whitespace_of_mem_splitOnP (h : w ∈ s.splitOnP whitespace) :
    ∀ c ∈ w, whitespace c = false := by
  induction s generalizing w with
  | nil =>
    rw [List.splitOnP_nil] at h
    obtain rfl := List.mem_singleton.mp h
    exact fun c hc => nomatch hc
  | cons d s ih =>
    rw [List.splitOnP_cons_eq_if_modifyHead] at h
    split at h
    · rcases List.mem_cons.mp h with rfl | h
      · exact fun c hc => nomatch hc
      · exact ih h
    · next hd =>
      cases hparts : s.splitOnP whitespace with
      | nil => exact absurd hparts (List.splitOnP_ne_nil whitespace s)
      | cons part parts =>
        rw [hparts] at h
        rcases List.mem_cons.mp h with rfl | h
        · intro c hc
          rcases List.mem_cons.mp hc with rfl | hc
          · exact Bool.eq_false_iff.mpr hd
          · exact ih (hparts ▸ List.mem_cons_self ..) c hc
        · exact ih (hparts ▸ List.mem_cons_of_mem part h)

theorem words_spec (h : w ∈ words s) : w ≠ [] ∧ ∀ c ∈ w, whitespace c = false := by
  obtain ⟨hw, hne⟩ := List.mem_filter.mp h
  exact ⟨of_decide_eq_true hne, whitespace_of_mem_splitOnP hw⟩

namespace SingleLine

theorem word (hne : w ≠ []) (hw : ∀ c ∈ w, whitespace c = false) : SingleLine w where
  nonempty := hne
  leading c hc := hw c (List.mem_of_mem_head? hc)
  trailing c hc := hw c (List.mem_of_getLast? hc)
  spaces c hc hspace := by
    rw [hw c hc] at hspace
    cases hspace
  single h := by
    have hspace := hw ' ' (h.subset (List.mem_cons_self ..))
    cases hspace

theorem cons (hne : w ≠ []) (hw : ∀ c ∈ w, whitespace c = false) (h : SingleLine s) :
    SingleLine (w ++ ' ' :: s) where
  nonempty := by simp
  leading c hc := by
    rw [List.head?_append_of_ne_nil w hne] at hc
    exact hw c (List.mem_of_mem_head? hc)
  trailing c hc := by
    rw [List.getLast?_append_of_ne_nil _ (List.cons_ne_nil ' ' s),
      List.getLast?_cons_of_ne_nil h.nonempty] at hc
    exact h.trailing c hc
  spaces c hc hspace := by
    rcases List.mem_append.mp hc with hc | hc
    · rw [hw c hc] at hspace
      cases hspace
    · rcases List.mem_cons.mp hc with rfl | hc
      · rfl
      · exact h.spaces c hc hspace
  single := by
    rintro ⟨a, b, hab⟩
    rw [List.append_assoc] at hab
    rcases List.append_eq_append_iff.mp hab with ⟨x, hx, hs⟩ | ⟨x, hx, hs⟩
    · cases x with
      | nil =>
        have hhead := h.leading ' ' (by rw [(List.cons.inj hs).2.symm]; rfl)
        cases hhead
      | cons d x =>
        have hd := hw d (hx ▸ List.mem_append_right a (List.mem_cons_self ..))
        rw [← (List.cons.inj hs).1] at hd
        cases hd
    · cases x with
      | nil =>
        have hhead := h.leading ' ' (by rw [(List.cons.inj hs).2]; rfl)
        cases hhead
      | cons d x =>
        refine h.single ⟨x, b, ?_⟩
        rw [List.append_assoc]
        exact (List.cons.inj hs).2.symm

theorem join (hne : ws ≠ []) (h : ∀ w ∈ ws, w ≠ [] ∧ ∀ c ∈ w, whitespace c = false) :
    SingleLine ([' '].intercalate ws) := by
  induction ws with
  | nil => exact absurd rfl hne
  | cons w ws ih =>
    obtain ⟨hw, hws⟩ := List.forall_mem_cons.mp h
    cases ws with
    | nil => simpa using word hw.1 hw.2
    | cons w' ws =>
      have hrest := ih (List.cons_ne_nil w' ws) hws
      have hjoin : [' '].intercalate (w :: w' :: ws) =
          w ++ ' ' :: [' '].intercalate (w' :: ws) := by
        simp [List.intercalate]
      rw [hjoin]
      exact hrest.cons hw.1 hw.2

end SingleLine

section Lines

variable {t line : List Char} {ls : List (List Char)}

/-- White space within a line. -/
def Blank (s : List Char) : Prop := ∀ c ∈ s, whitespace c ∧ c ≠ '\n'

/-- The last line of a text is blank so far. -/
def LineStart (s : List Char) : Prop :=
  ∃ x pad, s = x ++ pad ∧ (x = [] ∨ ∃ x', x = x' ++ ['\n']) ∧ Blank pad

/-- What is left of the first line of a text is blank. -/
def LineEnd (s : List Char) : Prop :=
  ∃ pad y, s = pad ++ y ∧ Blank pad ∧ (y = [] ∨ ∃ y', y = '\n' :: y')

theorem LineStart.append (h : LineStart s) (ht : Blank t) : LineStart (s ++ t) := by
  obtain ⟨x, pad, rfl, hx, hpad⟩ := h
  exact ⟨x, pad ++ t, List.append_assoc .., hx, List.forall_mem_append.mpr ⟨hpad, ht⟩⟩

theorem lineStart_newline : LineStart (s ++ ['\n']) :=
  ⟨s ++ ['\n'], [], (List.append_nil _).symm, .inr ⟨s, rfl⟩, List.forall_mem_nil _⟩

theorem LineEnd.append (hs : Blank s) (h : LineEnd t) : LineEnd (s ++ t) := by
  obtain ⟨pad, y, rfl, hpad, hy⟩ := h
  exact ⟨s ++ pad, y, (List.append_assoc ..).symm, List.forall_mem_append.mpr ⟨hs, hpad⟩, hy⟩

theorem lineEnd_newline : LineEnd ('\n' :: t) :=
  ⟨[], '\n' :: t, rfl, List.forall_mem_nil _, .inr ⟨t, rfl⟩⟩

theorem trimEnd_append_blank (h : ∀ c ∈ t, whitespace c) : trimEnd (s ++ t) = trimEnd s := by
  induction t using List.reverseRecOn with
  | nil => rw [List.append_nil]
  | append_singleton t c ih =>
    obtain ⟨ht, hc⟩ := List.forall_mem_append.mp h
    rw [← List.append_assoc, trimEnd_append_space (hc c (List.mem_singleton_self c)), ih ht]

theorem trim_between (hs : ∀ c ∈ s, whitespace c) (ht : ∀ c ∈ t, whitespace c) (hne : w ≠ [])
    (hw : ∀ c ∈ w, whitespace c = false) : trim (s ++ (w ++ t)) = w := by
  have hstart : trimStart (s ++ (w ++ t)) = w ++ t := by
    obtain ⟨c, w', rfl⟩ := List.exists_cons_of_ne_nil hne
    rw [trimStart, List.dropWhile_append_of_pos hs]
    exact trimStart_cons (hw c (List.mem_cons_self ..))
  rw [trim, hstart, trimEnd_append_blank ht]
  obtain ⟨init, c, rfl⟩ := (List.eq_nil_or_concat' w).resolve_left hne
  exact trimEnd_append (hw c (by simp))

theorem trim_dropLast (h : line.getLast? = some '\r') : trim line.dropLast = trim line := by
  obtain ⟨init, rfl⟩ := List.getLast?_eq_some_iff.mp h
  rw [List.dropLast_concat, trim, trim]
  by_cases hblank : ∀ c ∈ init, whitespace c
  · have hall : ∀ c ∈ init ++ ['\r'], whitespace c :=
      List.forall_mem_append.mpr ⟨hblank, List.forall_mem_singleton.mpr rfl⟩
    rw [trimStart, trimStart, List.dropWhile_eq_nil_iff.mpr hblank,
      List.dropWhile_eq_nil_iff.mpr hall]
  · have hne : (init.dropWhile whitespace).isEmpty = false := by
      rw [← Bool.not_eq_true, List.isEmpty_iff, List.dropWhile_eq_nil_iff]
      exact hblank
    rw [trimStart, trimStart, List.dropWhile_append, hne]
    exact (trimEnd_append_space rfl).symm

theorem exists_mem_lines (hline : line ∈ s.splitOn '\n') (hne : trim line ≠ []) :
    ∃ l ∈ lines s, trim l = trim line := by
  have hparts := List.splitOn_ne_nil '\n' s
  rw [← List.dropLast_append_getLast hparts, List.mem_append, List.mem_singleton] at hline
  rcases hline with hline | rfl
  · refine ⟨_, List.mem_append_left _ (List.mem_map_of_mem hline), ?_⟩
    split
    · next hcr => exact trim_dropLast hcr
    · rfl
  · refine ⟨_, List.mem_append_right _ (List.mem_filter.mpr ⟨?_, decide_eq_true ?_⟩), rfl⟩
    · rw [List.getLast?_eq_some_getLast hparts]
      exact List.mem_singleton_self _
    · intro hnil
      exact hne (by rw [hnil]; rfl)

theorem mem_splitOn_between (hs : s = [] ∨ ∃ s', s = s' ++ ['\n'])
    (ht : t = [] ∨ ∃ t', t = '\n' :: t') (hline : '\n' ∉ line) :
    line ∈ (s ++ (line ++ t)).splitOn '\n' := by
  have hrest : line ∈ (line ++ t).splitOn '\n' := by
    rcases ht with rfl | ⟨t', rfl⟩
    · rw [List.append_nil, List.splitOn_eq_singleton hline]
      exact List.mem_singleton_self _
    · rw [List.splitOn_append_cons_self_of_not_mem hline]
      exact List.mem_cons_self ..
  rcases hs with rfl | ⟨s', rfl⟩
  · exact hrest
  · rw [List.append_assoc, List.singleton_append, List.splitOn_append_cons_self]
    exact List.mem_append_right _ hrest

theorem mem_splitOn_intercalate (h : line ∈ ls) (hline : '\n' ∉ line) :
    line ∈ (['\n', '\n'].intercalate ls).splitOn '\n' := by
  induction ls with
  | nil => cases h
  | cons l ls ih =>
    cases ls with
    | nil =>
      obtain rfl := List.mem_singleton.mp h
      rw [show ['\n', '\n'].intercalate [line] = line by simp [List.intercalate],
        List.splitOn_eq_singleton hline]
      exact List.mem_singleton_self _
    | cons l' ls =>
      have hjoin : ['\n', '\n'].intercalate (l :: l' :: ls) =
          l ++ '\n' :: ([] ++ '\n' :: ['\n', '\n'].intercalate (l' :: ls)) := by
        simp [List.intercalate]
      rw [hjoin, List.splitOn_append_cons_self, List.splitOn_append_cons_self]
      rcases List.mem_cons.mp h with rfl | h
      · refine List.mem_append_left _ ?_
        rw [List.splitOn_eq_singleton hline]
        exact List.mem_singleton_self _
      · exact List.mem_append_right _ (List.mem_append_right _ (ih h))

end Lines

end NotiService.Foundation.Text
