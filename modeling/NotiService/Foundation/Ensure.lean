import Mathlib.Data.List.Basic

/-! Insertion of what is absent, by key. What a list already holds is absorbed: after
any prefix of some insertions, all of them together lead where they lead at once. -/

namespace NotiService.Foundation

variable {ρ κ : Type} [DecidableEq κ] (key : ρ → κ)

def ensure (l : List ρ) (x : ρ) : List ρ := if key x ∈ l.map key then l else l ++ [x]

def ensureAll (l xs : List ρ) : List ρ := xs.foldl (ensure key) l

variable {key} {l xs ys zs : List ρ} {x : ρ}

theorem ensure_of_mem (h : key x ∈ l.map key) : ensure key l x = l := if_pos h

theorem ensure_of_notMem (h : key x ∉ l.map key) : ensure key l x = l ++ [x] := if_neg h

theorem prefix_ensure (l : List ρ) (x : ρ) : l <+: ensure key l x := by
  unfold ensure
  split
  · exact List.prefix_refl l
  · exact List.prefix_append l _

theorem key_mem_ensure (l : List ρ) (x : ρ) : key x ∈ (ensure key l x).map key := by
  by_cases h : key x ∈ l.map key
  · rwa [ensure_of_mem h]
  · simp [ensure_of_notMem h]

@[simp] theorem ensureAll_nil (l : List ρ) : ensureAll key l [] = l := rfl

@[simp] theorem ensureAll_cons (l : List ρ) (x : ρ) (xs : List ρ) :
    ensureAll key l (x :: xs) = ensureAll key (ensure key l x) xs := rfl

theorem ensureAll_append (l xs ys : List ρ) :
    ensureAll key l (xs ++ ys) = ensureAll key (ensureAll key l xs) ys := List.foldl_append ..

theorem prefix_ensureAll (l xs : List ρ) : l <+: ensureAll key l xs := by
  induction xs generalizing l with
  | nil => exact List.prefix_refl l
  | cons x xs ih => exact (prefix_ensure l x).trans (ih _)

theorem key_mem_ensureAll (l : List ρ) {xs : List ρ} (h : x ∈ xs) :
    key x ∈ (ensureAll key l xs).map key := by
  induction xs generalizing l with
  | nil => cases h
  | cons y xs ih =>
    rcases List.mem_cons.mp h with rfl | h
    · exact ((prefix_ensureAll _ xs).map key).subset (key_mem_ensure l x)
    · exact ih _ h

theorem ensureAll_of_mem (h : ∀ x ∈ xs, key x ∈ l.map key) : ensureAll key l xs = l := by
  induction xs with
  | nil => rfl
  | cons x xs ih =>
    rw [ensureAll_cons, ensure_of_mem (h x (by simp))]
    exact ih fun y hy => h y (by simp [hy])

theorem ensureAll_absorb (h : ys <+: xs) :
    ensureAll key (ensureAll key l ys) xs = ensureAll key l xs := by
  obtain ⟨zs, rfl⟩ := h
  rw [ensureAll_append, ensureAll_append,
    ensureAll_of_mem fun x hx => key_mem_ensureAll l hx]

theorem ensureAll_prefixes (hy : ys <+: xs) (hz : zs <+: xs) :
    ∃ us, us <+: xs ∧ ensureAll key (ensureAll key l ys) zs = ensureAll key l us := by
  rcases List.prefix_or_prefix_of_prefix hy hz with h | h
  · exact ⟨zs, hz, ensureAll_absorb h⟩
  · refine ⟨ys, hy, ensureAll_of_mem fun x hx => key_mem_ensureAll l (h.subset hx)⟩

end NotiService.Foundation
