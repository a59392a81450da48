import NotiService.Foundation.Transition
import Mathlib.Data.Nat.Find

/-! Runs of a system that go on for ever, and weak fairness: a label that can always be taken
from some point on is taken. -/

namespace NotiService.Foundation

universe u v

variable {σ : Type u} {ι : Type v} {S : System σ ι}

structure Execution (S : System σ ι) where
  state : Nat → σ
  label : Nat → ι
  step : ∀ n, S.step (state n) (label n) = some (state (n + 1))

namespace Execution

variable (e : Execution S)

def WeaklyFair (l : ι) : Prop :=
  ∀ n, (∀ m, n ≤ m → (S.step (e.state m) l).isSome) → ∃ m, n ≤ m ∧ e.label m = l

variable {e} {P : σ → Prop} {Q : ι → Prop} {l : ι} {n m : Nat}

theorem holds_until (hstep : ∀ s l t, P s → ¬ Q l → S.step s l = some t → P t)
    (hn : P (e.state n)) (hle : n ≤ m) (hQ : ∀ k, n ≤ k → k < m → ¬ Q (e.label k)) :
    P (e.state m) := by
  induction m, hle using Nat.le_induction with
  | base => exact hn
  | succ m hle ih =>
    have hm := ih fun k hk hlt => hQ k hk (Nat.lt_succ_of_lt hlt)
    exact hstep _ _ _ hm (hQ m hle (Nat.lt_succ_self m)) (e.step m)

theorem invariant_from (hstep : ∀ s l t, P s → S.step s l = some t → P t) (hn : P (e.state n))
    (hle : n ≤ m) : P (e.state m) :=
  holds_until (Q := fun _ => False) (fun s l t hs _ => hstep s l t hs) hn hle fun _ _ _ => id

theorem exists_first (h : ∃ m, n ≤ m ∧ Q (e.label m)) :
    ∃ m, n ≤ m ∧ Q (e.label m) ∧ ∀ k, n ≤ k → k < m → ¬ Q (e.label k) := by
  classical
  refine ⟨Nat.find h, (Nat.find_spec h).1, (Nat.find_spec h).2, fun k hk hlt hQ => ?_⟩
  exact Nat.find_min h hlt ⟨hk, hQ⟩

/-- While `P` holds a label of `Q` can be taken, and so one is taken. -/
theorem eventually (hfair : e.WeaklyFair l) (hl : Q l)
    (hstep : ∀ s l t, P s → ¬ Q l → S.step s l = some t → P t)
    (henabled : ∀ s, P s → (S.step s l).isSome) (hn : P (e.state n)) :
    ∃ m, n ≤ m ∧ Q (e.label m) := by
  by_contra hnever
  have hQ : ∀ k, n ≤ k → ¬ Q (e.label k) := fun k hk hQ => hnever ⟨k, hk, hQ⟩
  have halways : ∀ m, n ≤ m → P (e.state m) := fun m hm =>
    holds_until hstep hn hm fun k hk _ => hQ k hk
  obtain ⟨m, hm, hlabel⟩ := hfair n fun m hm => henabled _ (halways m hm)
  exact hQ m hm (hlabel ▸ hl)

section Follow

variable (S) (s : σ) (labels : Nat → ι)

def follow : Nat → σ
  | 0 => s
  | n + 1 => (S.step (follow n) (labels n)).getD (follow n)

/-- The execution with these labels, if each can be taken in its turn. -/
def ofLabels (h : ∀ n, (S.step (follow S s labels n) (labels n)).isSome) : Execution S where
  state := follow S s labels
  label := labels
  step n := by
    obtain ⟨t, ht⟩ := Option.isSome_iff_exists.mp (h n)
    rw [follow, ht, Option.getD_some]

end Follow

end Execution

end NotiService.Foundation
