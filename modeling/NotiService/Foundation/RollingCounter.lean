import Mathlib.Data.Set.Basic
import Mathlib.Logic.Function.Basic

/-! Counters that expire a fixed time after their last increment. Such a counter is above zero
exactly as long as its key was touched within that time, whenever the other keys were. -/

namespace NotiService.Foundation.RollingCounter

variable {κ : Type} [DecidableEq κ]

/-- The value of a counter and the time it lives to. -/
abbrev Cells (κ : Type) := κ → Option (Nat × Int)

def count (cells : Cells κ) (now : Int) (key : κ) : Nat :=
  match cells key with
  | none => 0
  | some (n, expiry) => if now < expiry then n else 0

def touch (cells : Cells κ) (now : Int) (ttl : Nat) (key : κ) : Cells κ :=
  Function.update cells key (some (count cells now key + 1, now + ttl))

/-- Some touch of the key is less than `ttl` old. -/
def Within (ttl : Nat) (touches : List (κ × Int)) (now : Int) (key : κ) : Prop :=
  ∃ e ∈ touches, e.1 = key ∧ now < e.2 + ttl

/-- The counters of `keys` tell for all time to come which of them were touched of late. -/
structure Tracks (keys : Set κ) (ttl : Nat) (touches : List (κ × Int)) (now : Int)
    (cells : Cells κ) : Prop where
  past : ∀ e ∈ touches, e.2 ≤ now
  live : ∀ key ∈ keys, ∀ later ≥ now, 0 < count cells later key ↔ Within ttl touches later key

variable {keys : Set κ} {ttl : Nat} {touches : List (κ × Int)} {now later : Int} {cells : Cells κ}
  {key : κ}

omit [DecidableEq κ] in
theorem count_eq_zero_of_le (h : count cells now key = 0) (hle : now ≤ later) :
    count cells later key = 0 := by
  unfold count at h ⊢
  cases hcell : cells key with
  | none => rfl
  | some cell =>
    obtain ⟨n, expiry⟩ := cell
    simp only [hcell] at h ⊢
    split at h
    · next hlive =>
      split
      · exact h
      · rfl
    · next hdead => exact if_neg (by omega)

theorem count_touch_self (cells : Cells κ) (now : Int) (ttl : Nat) (key : κ) (later : Int) :
    0 < count (touch cells now ttl key) later key ↔ later < now + ttl := by
  rw [count, touch, Function.update_self]
  by_cases hlive : later < now + ttl
  · simp [hlive]
  · simp [hlive]

theorem count_touch_of_ne {key' : κ} (hne : key' ≠ key) (cells : Cells κ) (now : Int) (ttl : Nat)
    (later : Int) : count (touch cells now ttl key) later key' = count cells later key' := by
  rw [count, touch, Function.update_of_ne hne, count]

omit [DecidableEq κ] in
theorem tracks_nil (h : ∀ key ∈ keys, count cells now key = 0) : Tracks keys ttl [] now cells where
  past := nofun
  live key hkey later hle := by
    rw [count_eq_zero_of_le (h key hkey) hle]
    exact iff_of_false (Nat.lt_irrefl 0) nofun

omit [DecidableEq κ] in
theorem Tracks.wait (h : Tracks keys ttl touches now cells) (hle : now ≤ later) :
    Tracks keys ttl touches later cells where
  past e he := Int.le_trans (h.past e he) hle
  live key hkey t ht := h.live key hkey t (Int.le_trans hle ht)

theorem Tracks.touch (h : Tracks keys ttl touches now cells) (key : κ) :
    Tracks keys ttl (touches ++ [(key, now)]) now (touch cells now ttl key) where
  past e he := by
    rcases List.mem_append.mp he with he | he
    · exact h.past e he
    · rw [List.mem_singleton.mp he]
  live key' hkey' later hle := by
    have hsplit : Within ttl (touches ++ [(key, now)]) later key' ↔
        Within ttl touches later key' ∨ key = key' ∧ later < now + ttl := by
      simp only [Within, List.mem_append, List.mem_singleton, or_and_right, exists_or,
        exists_eq_left]
    rw [hsplit]
    by_cases heq : key' = key
    · subst heq
      rw [count_touch_self]
      refine ⟨fun hlive => .inr ⟨rfl, hlive⟩, ?_⟩
      -- no earlier touch is younger than the last
      rintro (⟨e, he, -, hyoung⟩ | ⟨-, hlive⟩)
      · have := h.past e he
        omega
      · exact hlive
    · rw [count_touch_of_ne heq, h.live key' hkey' later hle]
      exact ⟨.inl, fun hor => hor.resolve_right fun hkey => heq hkey.1.symm⟩

end NotiService.Foundation.RollingCounter
