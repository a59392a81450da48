import Mathlib.Data.List.Perm.Basic
import Mathlib.Data.List.Induction
import Mathlib.Data.List.Range
import Mathlib.Algebra.GroupWithZero.Nat

/-! Tasks in a list, taken by position. One is replaced when it steps and erased when
it ends; what held of some task then holds of the one taken or of one that is left. -/

namespace NotiService.Foundation.Slots

variable {α : Type*} {l : List α} {i : Nat} {a b : α} {P : α → Prop}

theorem mem_set_self (h : l[i]? = some b) : a ∈ l.set i a :=
  List.mem_set (List.getElem?_eq_some_iff.mp h).1 a

theorem exists_mem_set (h : l[i]? = some b) (hP : ∃ x ∈ l, P x) :
    P b ∨ ∃ x ∈ l.set i a, P x := by
  obtain ⟨x, hx, hPx⟩ := hP
  obtain ⟨j, hj⟩ := List.mem_iff_getElem?.mp hx
  by_cases hij : i = j
  · subst hij
    rw [h] at hj
    exact .inl (Option.some.inj hj ▸ hPx)
  · exact .inr ⟨x, List.mem_of_getElem? (i := j) (by rw [List.getElem?_set_ne hij, hj]), hPx⟩

theorem forall_mem_set (ha : P a) (hP : ∀ x ∈ l, P x) : ∀ x ∈ l.set i a, P x := by
  intro x hx
  rcases List.mem_or_eq_of_mem_set hx with hx | rfl
  · exact hP x hx
  · exact ha

theorem exists_mem_eraseIdx (h : l[i]? = some b) (hP : ∃ x ∈ l, P x) :
    P b ∨ ∃ x ∈ l.eraseIdx i, P x := by
  obtain ⟨x, hx, hPx⟩ := hP
  obtain ⟨j, hj⟩ := List.mem_iff_getElem?.mp hx
  by_cases hij : j = i
  · subst hij
    rw [h] at hj
    exact .inl (Option.some.inj hj ▸ hPx)
  · exact .inr ⟨x, List.mem_eraseIdx_iff_getElem?.mpr ⟨j, hij, hj⟩, hPx⟩

theorem eq_or_mem_eraseIdx {x : α} (h : x ∈ l.set i a) : x = a ∨ x ∈ l.eraseIdx i := by
  obtain ⟨j, hj⟩ := List.mem_iff_getElem?.mp h
  by_cases hij : i = j
  · subst hij
    rw [List.getElem?_set_self (by simpa using (List.getElem?_eq_some_iff.mp hj).1)] at hj
    exact .inl (Option.some.inj hj).symm
  · rw [List.getElem?_set_ne hij] at hj
    exact .inr (List.mem_eraseIdx_iff_getElem?.mpr ⟨j, Ne.symm hij, hj⟩)

theorem forall_mem_eraseIdx (hP : ∀ x ∈ l, P x) : ∀ x ∈ l.eraseIdx i, P x :=
  fun x hx => hP x (List.mem_of_mem_eraseIdx hx)

theorem countP_set (h : l[i]? = some b) (p : α → Bool) :
    (l.set i a).countP p + (if p b then 1 else 0) = l.countP p + (if p a then 1 else 0) := by
  obtain ⟨hi, rfl⟩ := List.getElem?_eq_some_iff.mp h
  have := List.boole_getElem_le_countP (p := p) hi
  rw [List.countP_set hi]
  omega

theorem countP_eraseIdx (h : l[i]? = some b) (p : α → Bool) :
    (l.eraseIdx i).countP p + (if p b then 1 else 0) = l.countP p := by
  obtain ⟨hi, rfl⟩ := List.getElem?_eq_some_iff.mp h
  rw [← (List.getElem_cons_eraseIdx_perm hi).countP_eq p, List.countP_cons]

theorem sum_map_eraseIdx (h : l[i]? = some b) (f : α → Nat) :
    ((l.eraseIdx i).map f).sum + f b = (l.map f).sum := by
  obtain ⟨hi, rfl⟩ := List.getElem?_eq_some_iff.mp h
  rw [← ((List.getElem_cons_eraseIdx_perm hi).map f).sum_nat, List.map_cons, List.sum_cons,
    Nat.add_comm]

theorem sum_map_set (h : l[i]? = some b) (f : α → Nat) :
    ((l.set i a).map f).sum + f b = (l.map f).sum + f a := by
  obtain ⟨hi, -⟩ := List.getElem?_eq_some_iff.mp h
  rw [((List.set_perm_cons_eraseIdx hi a).map f).sum_nat, List.map_cons, List.sum_cons,
    Nat.add_assoc, sum_map_eraseIdx h, Nat.add_comm]

theorem getElem?_append (h : l[i]? = some a) (m : List α) : (l ++ m)[i]? = some a := by
  rw [List.getElem?_append_left (List.getElem?_eq_some_iff.mp h).1, h]

theorem filterMap_range {β : Type*} (f : α → Option β) (l : List α) :
    (List.range l.length).filterMap (fun i => l[i]?.bind f) = l.filterMap f := by
  induction l using List.reverseRecOn with
  | nil => rfl
  | append_singleton l a ih =>
    have hold : (List.range l.length).filterMap (fun i => (l ++ [a])[i]?.bind f) =
        (List.range l.length).filterMap fun i => l[i]?.bind f :=
      List.filterMap_congr fun i hi => by
        rw [List.getElem?_append_left (List.mem_range.mp hi)]
    rw [List.length_append, List.length_singleton, List.range_succ, List.filterMap_append,
      List.filterMap_append, hold, ih]
    simp [List.filterMap_cons]

end NotiService.Foundation.Slots
