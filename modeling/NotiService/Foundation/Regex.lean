import Mathlib.Data.List.Infix

/-! Regular expressions as a backtracking matcher tries them: the ways to match at the start of
a text, in order of preference. A search takes the first way at the leftmost position where there
is one, and a replacement goes on behind each match. -/

namespace NotiService.Foundation

universe u

inductive Regex (α : Type u) where
  | empty
  | one (p : α → Bool)
  | many (p : α → Bool) (greedy : Bool)
  | seq (r t : Regex α)
  | alt (r t : Regex α)
  | group (r : Regex α)

namespace Regex

variable {α : Type u}

/-- What may be left behind a run of `p`, the shortest run first. -/
def rests (p : α → Bool) : List α → List (List α)
  | [] => [[]]
  | c :: s => (c :: s) :: if p c then rests p s else []

/-- Each way with what its groups capture and what it leaves. -/
def ways : Regex α → List α → List (List (List α) × List α)
  | .empty, s => [([], s)]
  | .one p, s =>
    match s with
    | [] => []
    | c :: rest => if p c then [([], rest)] else []
  | .many p greedy, s =>
    (if greedy then (rests p s).reverse else rests p s).map fun rest => ([], rest)
  | .seq r t, s => (ways r s).flatMap fun (captures, m) =>
    (ways t m).map fun (captures', rest) => (captures ++ captures', rest)
  | .alt r t, s => ways r s ++ ways t s
  | .group r, s => (ways r s).map fun (captures, rest) =>
    (s.take (s.length - rest.length) :: captures, rest)

def first (r : Regex α) (s : List α) : Option (List (List α) × List α) := (r.ways s).head?

def find (r : Regex α) : List α → Option (List (List α) × List α)
  | [] => r.first []
  | c :: s => (r.first (c :: s)).or (r.find s)

/-- The first `n` elements belong to a match. -/
def replaceFrom (r : Regex α) (new : List α) : Nat → List α → List α
  | _, [] => []
  | n + 1, _ :: s => r.replaceFrom new n s
  | 0, c :: s =>
    match r.first (c :: s) with
    | some (_, rest) => new ++ r.replaceFrom new (s.length - rest.length) s
    | none => c :: r.replaceFrom new 0 s

/-- All matches replaced by `new`. The regex is not to match the empty text. -/
def replaceAll (r : Regex α) (new s : List α) : List α := r.replaceFrom new 0 s

/-- One element after the other, each of its class, and then `t`. -/
def word (ps : List (α → Bool)) (t : Regex α) : Regex α := ps.foldr (fun p r => .seq (.one p) r) t

def literal [DecidableEq α] (w : List α) (t : Regex α) : Regex α :=
  word (w.map fun a c => c = a) t

def Starts : List (α → Bool) → List α → Bool
  | [], _ => true
  | _ :: _, [] => false
  | p :: ps, c :: s => p c && Starts ps s

variable {r t : Regex α} {p : α → Bool} {ps : List (α → Bool)} {s x y rest new : List α} {c d : α}
  {captures : List (List α)}

theorem first_eq_none : r.first s = none ↔ r.ways s = [] := List.head?_eq_none_iff

theorem ways_seq_one (p : α → Bool) (t : Regex α) (c : α) (s : List α) :
    (seq (one p) t).ways (c :: s) = if p c then t.ways s else [] := by
  cases h : p c <;> simp [ways, h]

theorem ways_word : (word ps t).ways s = if Starts ps s then t.ways (s.drop ps.length) else [] := by
  induction ps generalizing s with
  | nil => rfl
  | cons p ps ih =>
    cases s with
    | nil => simp [word, ways, Starts]
    | cons c s =>
      have hone := ways_seq_one p (word ps t) c s
      rw [ih] at hone
      refine hone.trans ?_
      cases h : p c <;> simp [Starts, h]

theorem starts_literal [DecidableEq α] {w : List α} :
    Starts (w.map fun a c => decide (c = a)) s ↔ w <+: s := by
  induction w generalizing s with
  | nil => simp [Starts]
  | cons a w ih =>
    cases s with
    | nil => simp [Starts]
    | cons c s =>
      simp only [List.map_cons, Starts, Bool.and_eq_true, decide_eq_true_eq, ih,
        List.cons_prefix_cons]
      exact and_congr_left fun _ => eq_comm

theorem ways_literal [DecidableEq α] {w : List α} : (literal w t).ways (w ++ s) = t.ways s := by
  rw [literal, ways_word, if_pos (starts_literal.mpr (List.prefix_append w s))]
  simp

theorem ways_literal_eq_nil [DecidableEq α] {w : List α} (h : ¬ w <+: s) :
    (literal w t).ways s = [] := by
  rw [literal, ways_word, if_neg (mt starts_literal.mp h)]

theorem ways_lazy_cons : (seq (many p false) t).ways (c :: s) =
    t.ways (c :: s) ++ if p c then (seq (many p false) t).ways s else [] := by
  cases h : p c <;> simp [ways, rests, h]

theorem ways_lazy_eq_nil (h : ∀ y, y <:+ s → t.ways y = []) :
    (seq (many p false) t).ways s = [] := by
  induction s with
  | nil => simp [ways, rests, h [] (List.suffix_refl [])]
  | cons c s ih =>
    have htail := ih fun y hy => h y (hy.trans (List.suffix_cons c s))
    rw [ways_lazy_cons, h _ (List.suffix_refl _), htail, ite_self, List.append_nil]

theorem ways_greedy_cons : (seq (many p true) t).ways (c :: s) =
    (if p c then (seq (many p true) t).ways s else []) ++ t.ways (c :: s) := by
  cases h : p c <;> simp [ways, rests, h]

/-- A run up to `d` and then `d`: there is one way, whether the run is greedy or not. -/
theorem ways_until [DecidableEq α] (greedy : Bool) (h : d ∉ x) :
    (seq (many (fun c => c ≠ d) greedy) (literal [d] t)).ways (x ++ d :: s) = t.ways s := by
  have hlast : (literal [d] t).ways (d :: s) = t.ways s := ways_literal (w := [d])
  induction x with
  | nil => cases greedy <;> simp [ways_lazy_cons, ways_greedy_cons, hlast]
  | cons c x ih =>
    obtain ⟨hc, hx⟩ := not_or.mp (mt List.mem_cons.mpr h)
    have hnone : (literal [d] t).ways (c :: (x ++ d :: s)) = [] :=
      ways_literal_eq_nil fun hprefix => hc (List.cons_prefix_cons.mp hprefix).1
    cases greedy
    · rw [List.cons_append, ways_lazy_cons, hnone, ih hx]
      simp [Ne.symm hc]
    · rw [List.cons_append, ways_greedy_cons, hnone, ih hx]
      simp [Ne.symm hc]

theorem rests_append (h : ∀ c ∈ x, p c) (y : List α) : ∃ skipped, rests p (x ++ y) =
    skipped ++ rests p y ∧ ∀ m ∈ skipped, ∃ a b, x = a ++ b ∧ b ≠ [] ∧ m = b ++ y := by
  induction x with
  | nil => exact ⟨[], rfl, fun m hm => nomatch hm⟩
  | cons c x ih =>
    obtain ⟨skipped, hskipped, hall⟩ := ih fun d hd => h d (List.mem_cons_of_mem c hd)
    refine ⟨(c :: (x ++ y)) :: skipped, ?_, fun m hm => ?_⟩
    · rw [List.cons_append, rests, if_pos (h c (List.mem_cons_self ..)), hskipped,
        List.cons_append]
    · rcases List.mem_cons.mp hm with rfl | hm
      · exact ⟨[], c :: x, rfl, List.cons_ne_nil c x, rfl⟩
      · obtain ⟨a, b, hx, hb, hm⟩ := hall m hm
        exact ⟨c :: a, b, congrArg (c :: ·) hx, hb, hm⟩

theorem rests_head (p : α → Bool) (y : List α) : ∃ more, rests p y = y :: more := by
  cases y with
  | nil => exact ⟨[], rfl⟩
  | cons c y => exact ⟨_, rfl⟩

theorem first_group_lazy (h : ∀ c ∈ x, p c)
    (hnone : ∀ a b, x = a ++ b → b ≠ [] → t.ways (b ++ y) = [])
    (hfirst : t.first y = some (captures, rest)) :
    (seq (group (many p false)) t).first (x ++ y) = some (x :: captures, rest) := by
  obtain ⟨skipped, hskipped, hall⟩ := rests_append h y
  obtain ⟨more, hmore⟩ := rests_head p y
  obtain ⟨others, hothers⟩ := List.head?_eq_some_iff.mp hfirst
  have hempty : ∀ m ∈ skipped, t.ways m = [] := by
    intro m hm
    obtain ⟨a, b, hx, hb, rfl⟩ := hall m hm
    exact hnone a b hx hb
  have hpassed : ∀ m ∈ skipped, (t.ways m).map (fun way => (((x ++ y).take
      ((x ++ y).length - m.length) :: way.1), way.2)) = [] := fun m hm => by
    rw [hempty m hm, List.map_nil]
  have htake : (x ++ y).take ((x ++ y).length - y.length) = x := by
    rw [List.length_append, Nat.add_sub_cancel, List.take_left]
  simp only [first, ways, hskipped, hmore, Bool.false_eq_true, if_false, List.map_append,
    List.map_cons, List.flatMap_append, List.flatMap_cons, List.map_map, hothers, htake]
  rw [List.flatMap_eq_nil_iff.mpr]
  · rfl
  · intro way hway
    obtain ⟨m, hm, rfl⟩ := List.mem_map.mp hway
    exact hpassed m hm

theorem first_lazy (h : ∀ c ∈ x, p c)
    (hnone : ∀ a b, x = a ++ b → b ≠ [] → t.ways (b ++ y) = []) :
    (seq (many p false) t).first (x ++ y) = (seq (many p false) t).first y := by
  induction x with
  | nil => rfl
  | cons c x ih =>
    rw [first, List.cons_append, ways_lazy_cons, if_pos (h c (List.mem_cons_self ..)),
      ← List.cons_append, hnone [] (c :: x) rfl (List.cons_ne_nil c x), List.nil_append]
    exact ih (fun d hd => h d (List.mem_cons_of_mem c hd)) fun a b hx =>
      hnone (c :: a) b (congrArg (c :: ·) hx)

theorem find_append (hnone : ∀ a b, x = a ++ b → b ≠ [] → r.first (b ++ y) = none) :
    r.find (x ++ y) = r.find y := by
  induction x with
  | nil => rfl
  | cons c x ih =>
    have hhere : r.first (c :: (x ++ y)) = none := hnone [] (c :: x) rfl (List.cons_ne_nil c x)
    rw [List.cons_append, find, hhere, Option.none_or]
    exact ih fun a b hx => hnone (c :: a) b (congrArg (c :: ·) hx)

theorem find_of_first {m : List (List α) × List α} (h : r.first s = some m) : r.find s =
    some m := by
  cases s with
  | nil => exact h
  | cons c s => rw [find, h, Option.some_or]

theorem replaceFrom_append (r : Regex α) (new x y : List α) :
    r.replaceFrom new x.length (x ++ y) = r.replaceAll new y := by
  induction x with
  | nil => rfl
  | cons c x ih => exact ih

/-- The text goes on behind a match as if it began there. -/
theorem replaceAll_match (hx : x ≠ []) (h : r.first (x ++ y) = some (captures, y)) :
    r.replaceAll new (x ++ y) = new ++ r.replaceAll new y := by
  cases x with
  | nil => exact absurd rfl hx
  | cons c x =>
    have hlength : (x ++ y).length - y.length = x.length := by
      rw [List.length_append, Nat.add_sub_cancel]
    rw [List.cons_append] at h
    rw [replaceAll, List.cons_append, replaceFrom, h]
    dsimp only
    rw [hlength, replaceFrom_append]

theorem replaceAll_append (hnone : ∀ a b, x = a ++ b → b ≠ [] → r.first (b ++ y) = none) :
    r.replaceAll new (x ++ y) = x ++ r.replaceAll new y := by
  induction x with
  | nil => rfl
  | cons c x ih =>
    have hhere : r.first (c :: (x ++ y)) = none := hnone [] (c :: x) rfl (List.cons_ne_nil c x)
    rw [List.cons_append, replaceAll, replaceFrom, hhere, List.cons_append]
    exact congrArg (c :: ·) (ih fun a b hx => hnone (c :: a) b (congrArg (c :: ·) hx))

theorem prefix_of_not_mem {w : List α} (hd : d ∉ w) (h : w <+: x ++ d :: y) : w <+: x := by
  induction x generalizing w with
  | nil =>
    cases w with
    | nil => exact List.nil_prefix
    | cons c w =>
      obtain ⟨rfl, -⟩ := List.cons_prefix_cons.mp h
      exact absurd (List.mem_cons_self ..) hd
  | cons c x ih =>
    cases w with
    | nil => exact List.nil_prefix
    | cons a w =>
      obtain ⟨rfl, hw⟩ := List.cons_prefix_cons.mp h
      exact List.cons_prefix_cons.mpr ⟨rfl, ih (fun hmem => hd (List.mem_cons_of_mem a hmem)) hw⟩

theorem not_prefix_of_absent {w a b : List α} (hd : d ∉ w) (hx : ¬ d :: w <:+: x)
    (hab : x = a ++ b) (hb : b ≠ []) : ¬ d :: w <+: b ++ d :: y := by
  intro hprefix
  cases b with
  | nil => exact hb rfl
  | cons c b =>
    obtain ⟨rfl, hw⟩ := List.cons_prefix_cons.mp hprefix
    obtain ⟨tail, htail⟩ := prefix_of_not_mem hd hw
    exact hx ⟨a, tail, by rw [hab, ← htail]; simp⟩

end Regex

end NotiService.Foundation
