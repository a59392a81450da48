import Mathlib.Data.List.DropRight
import Mathlib.Data.List.Induction

/-! Text as a list of characters: trimming white space, and splitting at a character. -/

namespace NotiService.Foundation.Text

/-- The Unicode property White_Space. -/
def whitespace (c : Char) : Bool :=
  let n := c.toNat
  (9 ≤ n && n ≤ 13) || n = 32 || n = 0x85 || n = 0xA0 || n = 0x1680 ||
    (0x2000 ≤ n && n ≤ 0x200A) || n = 0x2028 || n = 0x2029 || n = 0x202F || n = 0x205F || n = 0x3000

def trimStart (s : List Char) : List Char := s.dropWhile whitespace

def trimEnd (s : List Char) : List Char := s.rdropWhile whitespace

def trim (s : List Char) : List Char := trimEnd (trimStart s)

/-- What stands before the first `sep` and what follows it. -/
def splitOnce (sep : Char) : List Char → Option (List Char × List Char)
  | [] => none
  | c :: s => if c = sep then some ([], s) else (splitOnce sep s).map fun (a, b) => (c :: a, b)

variable {c sep : Char} {s t a b : List Char}

theorem trimEnd_append_space (hc : whitespace c) : trimEnd (s ++ [c]) = trimEnd s :=
  List.rdropWhile_concat_pos _ _ _ hc

theorem trimEnd_append (hc : whitespace c = false) : trimEnd (s ++ [c]) = s ++ [c] :=
  List.rdropWhile_concat_neg _ _ _ (by simp [hc])

theorem trimEnd_append_text (ht : ∃ c ∈ t, whitespace c = false) : trimEnd (s ++ t) =
    s ++ trimEnd t := by
  induction t using List.reverseRecOn with
  | nil => simp at ht
  | append_singleton t c ih =>
    rw [← List.append_assoc]
    by_cases hc : whitespace c
    · rw [trimEnd_append_space hc, trimEnd_append_space hc]
      refine ih ?_
      obtain ⟨d, hd, hspace⟩ := ht
      rcases List.mem_append.mp hd with hd | hd
      · exact ⟨d, hd, hspace⟩
      · obtain rfl := List.mem_singleton.mp hd
        rw [hc] at hspace
        cases hspace
    · rw [Bool.not_eq_true] at hc
      rw [trimEnd_append hc, trimEnd_append hc, List.append_assoc]

theorem trimEnd_append_cons (hc : whitespace c = false) :
    trimEnd (s ++ c :: t) = s ++ c :: trimEnd t := by
  induction t using List.reverseRecOn with
  | nil => exact trimEnd_append hc
  | append_singleton t d ih =>
    rw [← List.cons_append, ← List.append_assoc]
    by_cases hd : whitespace d
    · rw [trimEnd_append_space hd, trimEnd_append_space hd, ih]
    · rw [Bool.not_eq_true] at hd
      rw [trimEnd_append hd, trimEnd_append hd]
      simp

theorem whitespace_of_isDigit (hc : c.isDigit) : whitespace c = false := by
  have hrange : 48 ≤ c.toNat ∧ c.toNat ≤ 57 := Char.isDigit_iff_toNat.mp hc
  unfold whitespace
  rw [Bool.eq_false_iff]
  intro hspace
  simp only [Bool.or_eq_true, Bool.and_eq_true, decide_eq_true_eq] at hspace
  omega

theorem trimStart_cons (hc : whitespace c = false) : trimStart (c :: s) = c :: s := by
  simp [trimStart, hc]

theorem head?_trimEnd (hs : ∃ d ∈ s, whitespace d = false) (h : s.head? = some c) :
    (trimEnd s).head? = some c := by
  obtain ⟨rest, heq⟩ := List.rdropWhile_prefix whitespace s
  change trimEnd s ++ rest = s at heq
  cases hkeep : trimEnd s with
  | nil =>
    obtain ⟨d, hd, hspace⟩ := hs
    have hall := List.rdropWhile_eq_nil_iff.mp hkeep d hd
    rw [hspace] at hall
    cases hall
  | cons d kept =>
    rw [hkeep] at heq
    rw [← heq] at h
    exact h

theorem head?_trim (hc : whitespace c = false) (h : s.head? = some c) : (trim s).head? =
    some c := by
  cases s with
  | nil => cases h
  | cons c' s =>
    obtain rfl : c' = c := Option.some.inj h
    rw [trim, trimStart_cons hc]
    exact head?_trimEnd ⟨c', List.mem_cons_self .., hc⟩ rfl

theorem getLast?_trim (hc : whitespace c = false) (h : s.getLast? = some c) :
    (trim s).getLast? = some c := by
  obtain ⟨init, rfl⟩ := List.getLast?_eq_some_iff.mp h
  have hstart : ∃ init', trimStart (init ++ [c]) = init' ++ [c] := by
    induction init with
    | nil => exact ⟨[], by simp [trimStart, hc]⟩
    | cons d init ih =>
      by_cases hd : whitespace d
      · obtain ⟨init', h'⟩ := ih (by simp)
        refine ⟨init', ?_⟩
        rw [← h', trimStart, List.cons_append, List.dropWhile_cons_of_pos hd]
        rfl
      · exact ⟨d :: init, trimStart_cons (Bool.eq_false_iff.mpr hd)⟩
  obtain ⟨init', h'⟩ := hstart
  rw [trim, h', trimEnd_append hc]
  simp

theorem splitOnce_append (h : sep ∉ a) : splitOnce sep (a ++ sep :: b) = some (a, b) := by
  induction a with
  | nil => simp [splitOnce]
  | cons c a ih =>
    obtain ⟨hc, ha⟩ := not_or.mp (mt List.mem_cons.mpr h)
    rw [List.cons_append, splitOnce, if_neg (Ne.symm hc), ih ha]
    rfl

theorem splitOnce_eq_some : splitOnce sep s = some (a, b) ↔ s = a ++ sep :: b ∧ sep ∉ a := by
  constructor
  · intro h
    induction s generalizing a with
    | nil => cases h
    | cons c s ih =>
      rw [splitOnce] at h
      split at h
      · next hc =>
        cases h
        exact ⟨by rw [hc]; rfl, List.not_mem_nil⟩
      · next hc =>
        obtain ⟨⟨a', b'⟩, hrest, heq⟩ := Option.map_eq_some_iff.mp h
        cases heq
        obtain ⟨rfl, ha⟩ := ih hrest
        refine ⟨rfl, fun hmem => ?_⟩
        rcases List.mem_cons.mp hmem with heq | hmem
        · exact hc heq.symm
        · exact ha hmem
  · rintro ⟨rfl, ha⟩
    exact splitOnce_append ha

theorem splitOnce_eq_none : splitOnce sep s = none ↔ sep ∉ s := by
  constructor
  · intro h hmem
    obtain ⟨a, b, rfl, ha⟩ := List.eq_append_cons_of_mem hmem
    rw [splitOnce_append ha] at h
    cases h
  · intro h
    cases hsplit : splitOnce sep s with
    | none => rfl
    | some p =>
      obtain ⟨heq, -⟩ := splitOnce_eq_some.mp hsplit
      exact absurd (heq ▸ List.mem_append_right p.1 (List.mem_cons_self ..)) h

theorem suffix_of_splitOnce (h : splitOnce sep (s ++ sep :: t) = some (a, b)) : t <:+ b := by
  obtain ⟨heq, ha⟩ := splitOnce_eq_some.mp h
  rcases List.append_eq_append_iff.mp heq with ⟨w, rfl, hw⟩ | ⟨w, rfl, hw⟩
  · cases w with
    | nil => exact ⟨[], by simpa using hw⟩
    | cons d w =>
      obtain ⟨rfl, -⟩ := List.cons.inj hw
      exact absurd (List.mem_append_right s (List.mem_cons_self ..)) ha
  · cases w with
    | nil => exact ⟨[], by simpa using hw.symm⟩
    | cons d w =>
      obtain ⟨-, rfl⟩ := List.cons.inj hw
      exact ⟨w ++ [sep], by simp⟩

theorem splitOn_of_splitOnce (h : splitOnce sep s = some (a, b)) :
    s.splitOn sep = a :: b.splitOn sep := by
  obtain ⟨rfl, ha⟩ := splitOnce_eq_some.mp h
  exact List.splitOn_append_cons_self_of_not_mem ha b

theorem splitOn_of_splitOnce_none (h : splitOnce sep s = none) : s.splitOn sep = [s] :=
  List.splitOn_eq_singleton (splitOnce_eq_none.mp h)

end NotiService.Foundation.Text
