import Mathlib

/-! Keys made of two parts with a colon between. Parts that contain colons themselves
may be joined to the same key: then one left part goes on where the other one ends. A
part that contains none, such as a number, can be told apart. -/

namespace NotiService.Foundation.JoinedKey

theorem append_cons_eq_append_cons {α : Type*} {c : α} {a b x y : List α} :
    a ++ c :: x = b ++ c :: y ↔ (a = b ∧ x = y) ∨ (∃ m, a = b ++ c :: m ∧ y = m ++ c :: x) ∨
      ∃ m, b = a ++ c :: m ∧ x = m ++ c :: y := by
  constructor
  · intro h
    rcases List.append_eq_append_iff.mp h with ⟨m, hb, hx⟩ | ⟨m, ha, hy⟩
    · cases m with
      | nil => exact .inl ⟨by simpa using hb.symm, by simpa using hx⟩
      | cons c' m =>
        obtain ⟨rfl, rfl⟩ := List.cons.inj hx
        exact .inr (.inr ⟨m, hb, rfl⟩)
    · cases m with
      | nil => exact .inl ⟨by simpa using ha, by simpa using hy.symm⟩
      | cons c' m =>
        obtain ⟨rfl, rfl⟩ := List.cons.inj hy
        exact .inr (.inl ⟨m, ha, rfl⟩)
  · rintro (⟨rfl, rfl⟩ | ⟨m, rfl, rfl⟩ | ⟨m, rfl, rfl⟩) <;> simp

def join (a b : String) : String := a ++ ":" ++ b

theorem toList_join (a b : String) : (join a b).toList = a.toList ++ ':' :: b.toList := by
  simp [join]

private theorem exists_ofList {s t u x : String} :
    (∃ m, s.toList = t.toList ++ ':' :: m ∧ u.toList = m ++ ':' :: x.toList) ↔
      ∃ m, s = join t m ∧ u = join m x := by
  constructor
  · rintro ⟨m, hs, hu⟩
    refine ⟨String.ofList m, ?_, ?_⟩ <;> rw [← String.toList_inj, toList_join] <;> simpa
  · rintro ⟨m, rfl, rfl⟩
    exact ⟨m.toList, toList_join .., toList_join ..⟩

theorem join_eq_join {a b x y : String} : join a x = join b y ↔
    (a = b ∧ x = y) ∨ (∃ m, a = join b m ∧ y = join m x) ∨
      ∃ m, b = join a m ∧ x = join m y := by
  rw [← String.toList_inj, toList_join, toList_join, append_cons_eq_append_cons,
    String.toList_inj, String.toList_inj, exists_ofList, exists_ofList]

theorem join_left_inj {a b x : String} : join a x = join b x ↔ a = b := by
  rw [← String.toList_inj, toList_join, toList_join, List.append_left_inj, String.toList_inj]

theorem join_right_inj {a x y : String} : join a x = join a y ↔ x = y := by
  rw [← String.toList_inj, toList_join, toList_join, List.append_right_inj, List.cons_inj_right,
    String.toList_inj]

theorem join_assoc (a b c : String) : join (join a b) c = join a (join b c) := by
  rw [← String.toList_inj]
  simp [toList_join]

theorem colon_mem_join (a b : String) : ':' ∈ (join a b).toList := by
  simp [toList_join]

theorem colon_notMem_repr (n : Int) : ':' ∉ n.repr.toList := by
  have digits : ∀ k : Nat, ':' ∉ k.repr.toList := by
    intro k h
    rw [Nat.toList_repr] at h
    exact absurd (Nat.isDigit_of_mem_toDigits (by decide) (by decide) h) (by decide)
  cases n with
  | ofNat k => exact digits k
  | negSucc k =>
    have := digits k.succ
    simpa [Int.repr] using this

theorem join_repr_eq_join_repr {a b : String} {m n : Int} :
    join a m.repr = join b n.repr ↔ a = b ∧ m = n := by
  rw [join_eq_join, Int.repr_inj]
  refine or_iff_left ?_
  rintro (⟨k, -, h⟩ | ⟨k, -, h⟩)
  · exact colon_notMem_repr n (h ▸ colon_mem_join ..)
  · exact colon_notMem_repr m (h ▸ colon_mem_join ..)

end NotiService.Foundation.JoinedKey
