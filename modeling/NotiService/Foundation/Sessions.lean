import NotiService.Foundation.Program
import NotiService.Foundation.Transition
import Mathlib.Logic.Function.Basic

/-! Programs of many owners on one state, each taking its next request whenever it is
scheduled. If what an owner's requests return and leave behind depends on a `view` of the state
that the requests of others do not change, leaving the others out of a run changes nothing
that the owner can tell. -/

namespace NotiService.Foundation

/-- Every request a program can come to is allowed. -/
def Program.Asks {Op : Type → Type} {α : Type} (allowed : {β : Type} → Op β → Prop) :
    Program Op α → Prop
  | .done _ => True
  | .call op rest => allowed op ∧ ∀ answer, (rest answer).Asks allowed

/-- The programs of an owner in the order of their start, finished ones included. -/
structure Sessions (κ π σ : Type*) where
  shared : σ
  running : κ → List π

inductive SessionLabel (κ ρ ι : Type) where
  | start (request : ρ)
  | step (owner : κ) (i : Nat) (outcome : ι)

section

variable {Op : Type → Type} {α κ ρ ι σ υ : Type} [DecidableEq κ]
  (exec : ι → {β : Type} → Op β → σ → Option (β × σ)) (owner : ρ → κ) (prog : ρ → Program Op α)

def sessionSystem : System (Sessions κ (Program Op α) σ) (SessionLabel κ ρ ι) where
  init s := ∀ k, s.running k = []
  step s
    | .start r => some { s with
        running := Function.update s.running (owner r) (s.running (owner r) ++ [prog r]) }
    | .step k i o => (s.running k)[i]?.bind fun p =>
        (Program.step (exec o) p s.shared).map fun (p', shared) =>
          ⟨shared, Function.update s.running k ((s.running k).set i p')⟩

def SessionLabel.isOf (k : κ) : SessionLabel κ ρ ι → Bool
  | .start r => owner r = k
  | .step k' _ _ => k' = k

variable {exec owner prog} {mine : κ → {β : Type} → Op β → Prop} {view : σ → υ} {k : κ}

/-- What two runs have in common, of which one is without the others. -/
structure SameFor (mine : κ → {β : Type} → Op β → Prop) (view : σ → υ) (k : κ)
    (s s' : Sessions κ (Program Op α) σ) : Prop where
  view : view s.shared = view s'.shared
  running : s.running k = s'.running k
  asks : ∀ k', ∀ p ∈ s.running k', p.Asks (mine k')

variable {s s' t : Sessions κ (Program Op α) σ}

theorem asks_step {k' : κ} {i : Nat} {o : ι} (h : ∀ k, ∀ p ∈ s.running k, p.Asks (mine k))
    (hs : (sessionSystem exec owner prog).step s (.step k' i o) = some t) :
    ∀ k, ∀ p ∈ t.running k, p.Asks (mine k) := by
  obtain ⟨p, hp, hs⟩ := Option.bind_eq_some_iff.mp hs
  obtain ⟨⟨p', shared⟩, hstep, rfl⟩ := Option.map_eq_some_iff.mp hs
  intro k q hq
  simp only [Function.update_apply] at hq
  split at hq
  · next heq =>
    subst heq
    rcases List.mem_or_eq_of_mem_set hq with hq | rfl
    · exact h k q hq
    · cases p with
      | done value => cases hstep
      | call op rest =>
        obtain ⟨answer, -, rfl⟩ := (Program.step_call_eq_some _ _ _ _ _ _).mp hstep
        exact (h k _ (List.mem_of_getElem? hp)).2 answer
  · exact h k q hq

theorem asks_start {r : ρ} (hprog : ∀ r, (prog r).Asks (mine (owner r)))
    (h : ∀ k, ∀ p ∈ s.running k, p.Asks (mine k)) : ∀ k, ∀ p ∈ Function.update s.running (owner r)
      (s.running (owner r) ++ [prog r]) k, p.Asks (mine k) := by
  intro k p hp
  rw [Function.update_apply] at hp
  split at hp
  · next heq =>
    subst heq
    rcases List.mem_append.mp hp with hp | hp
    · exact h _ p hp
    · rw [List.mem_singleton.mp hp]
      exact hprog r
  · exact h k p hp

theorem SameFor.own {i : Nat} {o : ι} (h : SameFor mine view k s s')
    (hown : ∀ {β : Type} (op : Op β) o w v answer w', mine k op → view w = view v →
      exec o op w = some (answer, w') →
        ∃ v', exec o op v = some (answer, v') ∧ view w' = view v')
    (hs : (sessionSystem exec owner prog).step s (.step k i o) = some t) :
    ∃ t', (sessionSystem exec owner prog).step s' (.step k i o) = some t' ∧
      SameFor mine view k t t' := by
  have hasks := asks_step h.asks hs
  obtain ⟨p, hp, hs⟩ := Option.bind_eq_some_iff.mp hs
  obtain ⟨⟨p', shared⟩, hstep, rfl⟩ := Option.map_eq_some_iff.mp hs
  cases p with
  | done value => cases hstep
  | call op rest =>
    obtain ⟨answer, hexec, rfl⟩ := (Program.step_call_eq_some _ _ _ _ _ _).mp hstep
    have hallowed := (h.asks k _ (List.mem_of_getElem? hp)).1
    obtain ⟨v', hv', hview⟩ := hown op o _ _ answer shared hallowed h.view hexec
    refine ⟨⟨v', Function.update s'.running k ((s'.running k).set i (rest answer))⟩, ?_,
      hview, ?_, hasks⟩
    · refine Option.bind_eq_some_iff.mpr ⟨_, h.running ▸ hp, Option.map_eq_some_iff.mpr
        ⟨(rest answer, v'), (Program.step_call_eq_some _ _ _ _ _ _).mpr ⟨answer, hv', rfl⟩, rfl⟩⟩
    · simp only [Function.update_self, h.running]

theorem SameFor.skip {k' : κ} {i : Nat} {o : ι} (h : SameFor mine view k s s') (hk : k' ≠ k)
    (hother : ∀ {β : Type} (op : Op β) o w answer w' k', k' ≠ k → mine k' op →
      exec o op w = some (answer, w') → view w' = view w)
    (hs : (sessionSystem exec owner prog).step s (.step k' i o) = some t) :
    SameFor mine view k t s' := by
  have hasks := asks_step h.asks hs
  obtain ⟨p, hp, hs⟩ := Option.bind_eq_some_iff.mp hs
  obtain ⟨⟨p', shared⟩, hstep, rfl⟩ := Option.map_eq_some_iff.mp hs
  cases p with
  | done value => cases hstep
  | call op rest =>
    obtain ⟨answer, hexec, rfl⟩ := (Program.step_call_eq_some _ _ _ _ _ _).mp hstep
    have hallowed := (h.asks k' _ (List.mem_of_getElem? hp)).1
    refine ⟨(hother op o _ answer shared k' hk hallowed hexec).trans h.view, ?_, hasks⟩
    simp only [Function.update_of_ne (Ne.symm hk), h.running]

/-- A run without the others: the owner's programs are where they were, and so is the view. -/
theorem run_without_others (hprog : ∀ r, (prog r).Asks (mine (owner r)))
    (hown : ∀ {β : Type} (op : Op β) o w v answer w', mine k op → view w = view v →
      exec o op w = some (answer, w') →
        ∃ v', exec o op v = some (answer, v') ∧ view w' = view v')
    (hother : ∀ {β : Type} (op : Op β) o w answer w' k', k' ≠ k → mine k' op →
      exec o op w = some (answer, w') → view w' = view w)
    (h : SameFor mine view k s s') {ls : List (SessionLabel κ ρ ι)}
    (hr : (sessionSystem exec owner prog).run s ls = some t) :
    ∃ t', (sessionSystem exec owner prog).run s' (ls.filter (SessionLabel.isOf owner k)) =
      some t' ∧ SameFor mine view k t t' := by
  have hls : ∀ l ∈ ls, (fun _ : SessionLabel κ ρ ι => True) l := fun _ _ => trivial
  refine System.run_filter (R := SameFor mine view k) ?_ ?_ h hls hr
  · intro s s' l t hsame _ hkeep hs
    cases l with
    | start r =>
      obtain rfl := Option.some.inj hs
      obtain rfl : owner r = k := of_decide_eq_true hkeep
      refine ⟨_, rfl, hsame.view, ?_, asks_start hprog hsame.asks⟩
      simp only [Function.update_self, hsame.running]
    | step k' i o =>
      obtain rfl : k' = k := of_decide_eq_true hkeep
      exact hsame.own hown hs
  · intro s s' l t hsame _ hskip hs
    cases l with
    | start r =>
      obtain rfl := Option.some.inj hs
      have hne : owner r ≠ k := of_decide_eq_false hskip
      refine ⟨hsame.view, ?_, asks_start hprog hsame.asks⟩
      simp only [Function.update_of_ne (Ne.symm hne), hsame.running]
    | step k' i o => exact hsame.skip (of_decide_eq_false hskip) hother hs

end

end NotiService.Foundation
