import NotiService.Foundation.Execution
import Mathlib.Data.List.GetD
import Mathlib.Order.RelClasses

/-! Progress along an execution. `P` leads to `Q` if every position with `P` is followed by
one with `Q`. Positions, not states, are what `P` and `Q` are about: an execution and the
machines that shadow it share them. A fair action that is always open while `P` lasts and
leads out of it is one way to get there, a rank that falls again and again the other. -/

namespace NotiService.Foundation

universe u v w

def LeadsTo (P Q : Nat → Prop) : Prop := ∀ n, P n → ∃ m, n ≤ m ∧ Q m

namespace LeadsTo

variable {P Q R : Nat → Prop}

theorem trans (hPQ : LeadsTo P Q) (hQR : LeadsTo Q R) : LeadsTo P R := by
  intro n hn
  obtain ⟨m, hm, hQ⟩ := hPQ n hn
  obtain ⟨k, hk, hR⟩ := hQR m hQ
  exact ⟨k, Nat.le_trans hm hk, hR⟩

theorem next (h : LeadsTo P Q) (hnext : ∀ n, Q n → R (n + 1)) : LeadsTo P R := by
  intro n hn
  obtain ⟨m, hm, hQ⟩ := h n hn
  exact ⟨m + 1, Nat.le_succ_of_le hm, hnext m hQ⟩

theorem of_unless (hunless : ∀ n, P n → ¬ Q n → P (n + 1))
    (hends : ∀ n, (∀ m, n ≤ m → P m) → ∃ m, n ≤ m ∧ Q m) : LeadsTo P Q := by
  intro n hn
  by_contra hnever
  have hQ : ∀ m, n ≤ m → ¬ Q m := fun m hm h => hnever ⟨m, hm, h⟩
  refine hnever (hends n fun m hm => ?_)
  induction m, hm using Nat.le_induction with
  | base => exact hn
  | succ m hm ih => exact hunless m ih (hQ m hm)

/-- From `P` to `Q`, or to `P` again at a lower rank: so to `Q` in the end. -/
theorem of_rank {α : Type w} [LT α] [WellFoundedLT α] (rank : Nat → α)
    (h : ∀ a, LeadsTo (fun n => P n ∧ rank n = a) fun n => Q n ∨ P n ∧ rank n < a) :
    LeadsTo P Q := by
  have below : ∀ a n, P n → rank n = a → ∃ m, n ≤ m ∧ Q m := by
    intro a
    induction a using WellFoundedLT.induction with
    | ind a ih =>
      intro n hP ha
      obtain ⟨m, hm, hQ | ⟨hP', hlt⟩⟩ := h a n ⟨hP, ha⟩
      · exact ⟨m, hm, hQ⟩
      · obtain ⟨k, hk, hQ⟩ := ih (rank m) hlt m hP' rfl
        exact ⟨k, Nat.le_trans hm hk, hQ⟩
  exact fun n hn => below (rank n) n hn rfl

/-- A queue that loses its head at the steps of `pops` and else only grows at its end: if
such a step comes as long as the queue is not empty, every element comes to be the head that
one takes. -/
theorem of_fifo {α : Type w} (queue : Nat → List α) (pops : Nat → Prop) (start : Nat)
    (p : α → Bool)
    (hkeep : ∀ n, start ≤ n → ¬ pops n → queue n <+: queue (n + 1))
    (hpop : ∀ n, start ≤ n → pops n → ∃ a, queue n = a :: queue (n + 1))
    (hpops : ∀ n, start ≤ n → (∀ m, n ≤ m → queue m ≠ []) → ∃ m, n ≤ m ∧ pops m) :
    LeadsTo (fun n => start ≤ n ∧ ∃ a ∈ queue n, p a)
      fun n => pops n ∧ ∃ a, (queue n).head? = some a ∧ p a := by
  let waits (i n : Nat) : Prop := (start ≤ n ∧ ∃ a ∈ queue n, p a) ∧ (queue n).findIdx p = i
  -- nothing in front of the element changes before a head is taken
  have taken : ∀ i, LeadsTo (waits i) fun n => waits i n ∧ pops n := by
    refine fun i => .of_unless ?_ ?_
    · rintro n ⟨⟨hn, a, ha, hpa⟩, hi⟩ hnot
      obtain ⟨added, hadded⟩ := hkeep n hn fun h => hnot ⟨⟨⟨hn, a, ha, hpa⟩, hi⟩, h⟩
      refine ⟨⟨Nat.le_succ_of_le hn, a, hadded ▸ List.mem_append_left _ ha, hpa⟩, ?_⟩
      rw [← hadded, List.findIdx_append,
        if_pos (List.findIdx_lt_length_of_exists ⟨a, ha, hpa⟩), hi]
    · intro n hw
      obtain ⟨m, hm, hpop⟩ := hpops n (hw n (Nat.le_refl n)).1.1 fun m hm =>
        let ⟨_, ha, _⟩ := (hw m hm).1.2
        List.ne_nil_of_mem ha
      exact ⟨m, hm, hw m hm, hpop⟩
  refine .of_rank (fun n => (queue n).findIdx p) fun i n hn => ?_
  obtain ⟨m, hm, ⟨⟨hstart, a, ha, hpa⟩, hi⟩, hpops⟩ := taken i n hn
  obtain ⟨b, hb⟩ := hpop m hstart hpops
  by_cases hpb : p b
  · exact ⟨m, hm, .inl ⟨hpops, b, by rw [hb]; rfl, hpb⟩⟩
  · refine ⟨m + 1, Nat.le_succ_of_le hm, .inr ⟨⟨Nat.le_succ_of_le hstart, a, ?_, hpa⟩, ?_⟩⟩
    · rw [hb, List.mem_cons] at ha
      exact ha.resolve_left fun h => hpb (h ▸ hpa)
    · rw [← hi, hb, List.findIdx_cons, Bool.cond_eq_ite, if_neg hpb]
      exact Nat.lt_succ_self _

end LeadsTo

theorem eventually_zero {f : Nat → Nat} {n : Nat} (hmono : ∀ m, n ≤ m → f (m + 1) ≤ f m)
    (hfalls : ∀ m, n ≤ m → 0 < f m → ∃ k, m ≤ k ∧ f (k + 1) < f k) :
    ∃ m, n ≤ m ∧ ∀ k, m ≤ k → f k = 0 := by
  have below : ∀ m k, n ≤ m → m ≤ k → f k ≤ f m := by
    intro m k hm hk
    induction k, hk using Nat.le_induction with
    | base => exact Nat.le_refl _
    | succ k hk ih => exact Nat.le_trans (hmono k (Nat.le_trans hm hk)) ih
  have falls : LeadsTo (n ≤ ·) fun m => n ≤ m ∧ f m = 0 := by
    refine .of_rank f fun a m ⟨hm, ha⟩ => ?_
    by_cases hzero : f m = 0
    · exact ⟨m, Nat.le_refl m, .inl ⟨hm, hzero⟩⟩
    · obtain ⟨k, hk, hlt⟩ := hfalls m hm (Nat.pos_of_ne_zero hzero)
      have hle := below m k hm hk
      exact ⟨k + 1, by omega, .inr ⟨by omega, by omega⟩⟩
  obtain ⟨m, -, hm, hzero⟩ := falls n (Nat.le_refl n)
  exact ⟨m, hm, fun k hk => Nat.le_zero.mp (hzero ▸ below m k hm hk)⟩

namespace Execution

variable {σ : Type u} {ι : Type v} {S : System σ ι} (e : Execution S)

/-- Weak fairness for the steps of a kind: if some step of the kind can be taken in every
state from a position on, one is taken. -/
def Fair (C : σ → ι → Prop) : Prop :=
  ∀ n, (∀ m, n ≤ m → ∃ l, C (e.state m) l ∧ (S.step (e.state m) l).isSome) →
    ∃ m, n ≤ m ∧ C (e.state m) (e.label m)

variable {e}

/-- The machines that follow an execution step by step, where each of its states is the
view of one. -/
theorem exists_shadow {τ : Type w} {view : τ → σ} {I : τ → Prop} {Step : ι → τ → τ → Prop}
    (hsim : ∀ m l s, I m → S.step (view m) l = some s → ∃ m', Step l m m' ∧ s = view m' ∧ I m')
    {m₀ : τ} (h₀ : e.state 0 = view m₀) (hI : I m₀) :
    ∃ M : Nat → τ, M 0 = m₀ ∧
      ∀ n, e.state n = view (M n) ∧ I (M n) ∧ Step (e.label n) (M n) (M (n + 1)) := by
  have next : ∀ n m, e.state n = view m → I m →
      ∃ m', Step (e.label n) m m' ∧ e.state (n + 1) = view m' ∧ I m' :=
    fun n m hm hI => hsim m (e.label n) _ hI (hm ▸ e.step n)
  choose follow hstep hview hinv using next
  let shadow : (n : Nat) → { m : τ // e.state n = view m ∧ I m } := fun n =>
    Nat.rec ⟨m₀, h₀, hI⟩
      (fun n m => ⟨follow n m.1 m.2.1 m.2.2, hview n m.1 m.2.1 m.2.2, hinv n m.1 m.2.1 m.2.2⟩) n
  exact ⟨fun n => (shadow n).1, rfl, fun n => ⟨(shadow n).2.1, (shadow n).2.2,
    hstep n (shadow n).1 (shadow n).2.1 (shadow n).2.2⟩⟩

section Padded

def padded (ls : List ι) (l : ι) (n : Nat) : ι := ls.getD n l

variable {s t : σ} {ls : List ι} {l : ι} {check : σ → ι → Bool}

theorem follow_cons (s : σ) (x : ι) (ls : List ι) (n : Nat) :
    follow S s (padded (x :: ls) l) (n + 1) =
      follow S ((S.step s x).getD s) (padded ls l) n := by
  induction n with
  | zero => rfl
  | succ n ih =>
    rw [follow, ih, follow]
    rfl

theorem follow_padded (hr : S.runWhen check s ls = some t)
    (hl : ∀ u, check u l = true ∧ (S.step u l).isSome) (n : Nat) :
    check (follow S s (padded ls l) n) (padded ls l n) = true ∧
      (S.step (follow S s (padded ls l) n) (padded ls l n)).isSome := by
  induction ls generalizing s n with
  | nil => exact hl _
  | cons x ls ih =>
    rw [System.runWhen, Option.ite_none_right_eq_some] at hr
    obtain ⟨hcheck, hr⟩ := hr
    obtain ⟨u, hu, hr⟩ := Option.bind_eq_some_iff.mp hr
    cases n with
    | zero => exact ⟨hcheck, Option.isSome_iff_exists.mpr ⟨u, hu⟩⟩
    | succ n =>
      rw [follow_cons, hu]
      exact ih hr n

theorem follow_ends (hr : S.runWhen check s ls = some t) :
    follow S s (padded ls l) ls.length = t := by
  induction ls generalizing s with
  | nil => exact Option.some.inj hr
  | cons x ls ih =>
    rw [System.runWhen, Option.ite_none_right_eq_some] at hr
    obtain ⟨u, hu, hr⟩ := Option.bind_eq_some_iff.mp hr.2
    rw [List.length_cons, follow_cons, hu]
    exact ih hr

def ofRun (hr : S.runWhen check s ls = some t)
    (hl : ∀ u, check u l = true ∧ (S.step u l).isSome) : Execution S :=
  .ofLabels S s (padded ls l) fun n => (follow_padded hr hl n).2

end Padded

end Execution

end NotiService.Foundation
