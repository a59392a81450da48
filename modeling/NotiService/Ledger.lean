import NotiService.DispatchSteps
import NotiService.QueueSteps
import NotiService.Foundation.Transition
import Mathlib.Logic.Function.Basic

/-! The `notifications` table under every operation of the service: calls of
`queue_notification`, one `dispatch` at a time of each notification, sweeps and read
marks, interleaved call by call. `trace` is what the dispatches of a notification have
asked the clock, the provider, the repository and the queue. `Ledger` is the same
system with its programs replaced by the points they stand at. -/

namespace NotiService
open Foundation Orchestrator

variable {Bytes : Type}

inductive Event where
  | unrendered
  | unencoded
  | accepted
  | failed
  | clock (t : Int)
  | retryAt (t : Int)
  | publishRetry (ms : Nat)
  | inProcessRetry (ms : Nat)
deriving DecidableEq, Repr

def Op.event {α : Type} (o : Outcome) (now : Int) : Op α → Option Event
  | .now => some (.clock now)
  | .render _ _ => if o.failed then some .unrendered else none
  | .encodeView _ _ => if o.failed then some .unencoded else none
  | .send _ _ _ => some (if o.failed then .failed else .accepted)
  | .incrementRetry _ t => some (.retryAt t)
  | .publishRetry _ ms => some (.publishRetry ms)
  | .spawnInProcessRetry _ ms => some (.inProcessRetry ms)
  | _ => none

def event {α : Type} (o : Outcome) (now : Int) (p : Program Op α) : Option Event :=
  (p.peek (Op.event o now)).join

/-- `working` holds the dispatch in progress of each notification. -/
structure LedgerState (Bytes : Type) where
  world : World Bytes
  calls : List (Program Op (Except NotiError Uuid))
  working : Uuid → Option (Program Op (Except NotiError Unit))
  sweeps : List (Program Op (Except NotiError Nat))
  trace : Uuid → List Event

inductive LedgerLabel where
  | tick (ms : Nat)
  | request (r : Request)
  | call (i : Nat) (o : Outcome)
  | dispatch (id : Uuid)
  | work (id : Uuid) (o : Outcome)
  | recover (stuckThresholdSecs batchLimit : Int)
  | sweep (i : Nat) (o : Outcome)
  | markAsRead (id userId : Uuid) (o : Outcome)
  | markAllAsRead (userId : Uuid) (o : Outcome)

def unfinished {α : Type} (p : Program Op α) : Option (Program Op α) :=
  if p.isDone then none else some p

def LedgerState.start (now : Int) : LedgerState Bytes :=
  ⟨.boot now .empty, [], fun _ => none, [], fun _ => []⟩

def ledgerSystem (d : Deployment Bytes) : System (LedgerState Bytes) LedgerLabel where
  init s := s.world.table = .empty ∧ s.calls = [] ∧ (∀ id, s.working id = none) ∧
    s.sweeps = [] ∧ ∀ id, s.trace id = []
  step s
    | .tick ms => some { s with world := s.world.tick ms }
    | .request r => some { s with calls := s.calls ++ [r.prog d.mq] }
    | .call i o => s.calls[i]?.bind fun p =>
      (Program.step (exec d o) p s.world).map fun (p', world) =>
        { s with world, calls := s.calls.set i p' }
    | .dispatch id =>
      if (s.working id).isNone then
        some { s with
          working := Function.update s.working id (some (Orchestrator.dispatch d.mq id).run) }
      else none
    | .work id o => (s.working id).bind fun p =>
      (Program.step (exec d o) p s.world).map fun (p', world) =>
        { s with
          world
          working := Function.update s.working id (unfinished p')
          trace := Function.update s.trace id
            (s.trace id ++ (event o s.world.now p).toList) }
    | .recover secs limit =>
      some { s with sweeps := s.sweeps ++ [(recoverPending d.mq secs limit).run] }
    | .sweep i o => s.sweeps[i]?.bind fun p =>
      (Program.step (exec d o) p s.world).map fun (p', world) =>
        { s with world, sweeps := s.sweeps.set i p' }
    | .markAsRead id userId o =>
      (s.world.answer () (s.world.markAsRead id userId) o).map fun (_, world) => { s with world }
    | .markAllAsRead userId o =>
      (s.world.answer () (s.world.markAllAsRead userId) o).map fun (_, world) =>
        { s with world }

def DispatchPc.event (o : Outcome) (now : Int) : DispatchPc → Option Event
  | .render _ => if o.failed then some .unrendered else none
  | .encode _ _ => if o.failed then some .unencoded else none
  | .send _ _ => some (if o.failed then .failed else .accepted)
  | .clock _ _ => some (.clock now)
  | .bump n _ t => some (.retryAt (t + delayMs (n.retryCount + 1)))
  | .schedule ms => some (.publishRetry ms)
  | .fallback ms => some (.inProcessRetry ms)
  | _ => none

theorem DispatchPc.event_prog (mq : Bool) (id : Uuid) (o : Outcome) (now : Int)
    (pc : DispatchPc) : NotiService.event o now (pc.prog mq id) = pc.event o now := by
  cases pc <;> rfl

def DispatchPc.unfinished (pc : DispatchPc) : Option DispatchPc :=
  if pc.kind.isNone then none else some pc

theorem DispatchPc.unfinished_prog (mq : Bool) (id : Uuid) (pc : DispatchPc) :
    NotiService.unfinished (pc.prog mq id) = pc.unfinished.map (DispatchPc.prog mq id) := by
  cases pc <;> rfl

theorem DispatchPc.of_unfinished {pc q : DispatchPc} (h : pc.unfinished = some q) : pc = q := by
  rw [DispatchPc.unfinished, Option.ite_none_left_eq_some] at h
  exact Option.some.inj h.2

structure Ledger (Bytes : Type) where
  world : World Bytes
  calls : List (Request × QueuePc)
  working : Uuid → Option DispatchPc
  sweeps : List RecoverPc
  trace : Uuid → List Event

namespace Ledger

def state (d : Deployment Bytes) (m : Ledger Bytes) : LedgerState Bytes where
  world := m.world
  calls := m.calls.map fun c => c.2.prog d.mq c.1
  working id := (m.working id).map (DispatchPc.prog d.mq id)
  sweeps := m.sweeps.map (RecoverPc.prog d.mq)
  trace := m.trace

inductive Step (d : Deployment Bytes) : LedgerLabel → Ledger Bytes → Ledger Bytes → Prop where
  | tick {m ms} : Step d (.tick ms) m { m with world := m.world.tick ms }
  | request {m r} : Step d (.request r) m { m with calls := m.calls ++ [(r, .ident)] }
  | call {m i o r pc w pc'} : m.calls[i]? = some (r, pc) → QueueStep d r o m.world pc w pc' →
      Step d (.call i o) m { m with world := w, calls := m.calls.set i (r, pc') }
  | dispatch {m id} : m.working id = none → Step d (.dispatch id) m
      { m with working := Function.update m.working id (some .load) }
  | work {m id o pc w pc'} : m.working id = some pc → DispatchStep d id o m.world pc w pc' →
      Step d (.work id o) m { m with
        world := w
        working := Function.update m.working id pc'.unfinished
        trace := Function.update m.trace id (m.trace id ++ (pc.event o m.world.now).toList) }
  | recover {m secs limit} :
      Step d (.recover secs limit) m { m with sweeps := m.sweeps ++ [.reset secs limit] }
  | sweep {m i o pc w pc'} : m.sweeps[i]? = some pc → RecoverStep d o m.world pc w pc' →
      Step d (.sweep i o) m { m with world := w, sweeps := m.sweeps.set i pc' }
  | markAsRead {m id userId o w} {r : Except NotiError Unit} :
      m.world.answer () (m.world.markAsRead id userId) o = some (r, w) →
      Step d (.markAsRead id userId o) m { m with world := w }
  | markAllAsRead {m userId o w} {r : Except NotiError Unit} :
      m.world.answer () (m.world.markAllAsRead userId) o = some (r, w) →
      Step d (.markAllAsRead userId o) m { m with world := w }

variable {d : Deployment Bytes}

theorem working_cases {working : Uuid → Option DispatchPc} {id k : Uuid} {pc : Option DispatchPc}
    {q : DispatchPc} (h : Function.update working id pc k = some q) :
    (k = id ∧ pc = some q) ∨ (k ≠ id ∧ working k = some q) := by
  by_cases hk : k = id
  · subst hk
    rw [Function.update_self] at h
    exact .inl ⟨rfl, h⟩
  · rw [Function.update_of_ne hk] at h
    exact .inr ⟨hk, h⟩

private theorem working_update (m : Ledger Bytes) (id : Uuid) (pc : Option DispatchPc) :
    (fun k => (Function.update m.working id pc k).map (DispatchPc.prog d.mq k)) =
      Function.update (m.state d).working id (pc.map (DispatchPc.prog d.mq id)) := by
  funext k
  by_cases hk : k = id
  · subst hk
    simp
  · simp [hk, state]

theorem step_sim {m : Ledger Bytes} {l : LedgerLabel} {s : LedgerState Bytes}
    (hm : ∀ pc ∈ m.sweeps, pc.Normal) (h : (ledgerSystem d).step (m.state d) l = some s) :
    ∃ m', Step d l m m' ∧ s = m'.state d ∧ ∀ pc ∈ m'.sweeps, pc.Normal := by
  cases l with
  | tick ms =>
    cases h
    exact ⟨_, .tick, rfl, hm⟩
  | request r =>
    cases h
    refine ⟨_, .request, ?_, hm⟩
    simp [state, QueuePc.prog]
  | call i o =>
    obtain ⟨c, hc, h⟩ := Option.bind_eq_some_iff.mp h
    obtain ⟨⟨p, w⟩, hstep, rfl⟩ := Option.map_eq_some_iff.mp h
    obtain ⟨⟨r, pc⟩, hi, rfl⟩ := Option.map_eq_some_iff.mp ((List.getElem?_map ..).symm.trans hc)
    obtain ⟨pc', rfl, hs⟩ := queueStep_of_step hstep
    refine ⟨_, .call hi hs, ?_, hm⟩
    simp [state, List.map_set]
  | dispatch id =>
    obtain ⟨hnone, h⟩ := Option.ite_none_right_eq_some.mp h
    cases h
    have hidle : m.working id = none := by simpa [state] using hnone
    refine ⟨_, .dispatch hidle, ?_, hm⟩
    exact congrArg (fun working => LedgerState.mk _ _ working _ _)
      (working_update m id (some .load)).symm
  | work id o =>
    obtain ⟨_, hp, h⟩ := Option.bind_eq_some_iff.mp h
    obtain ⟨⟨p, w⟩, hstep, rfl⟩ := Option.map_eq_some_iff.mp h
    obtain ⟨pc, hpc, rfl⟩ := Option.map_eq_some_iff.mp hp
    obtain ⟨pc', rfl, hs⟩ := dispatchStep_of_step hstep
    refine ⟨_, .work hpc hs, ?_, hm⟩
    simp only [DispatchPc.event_prog, DispatchPc.unfinished_prog]
    exact congrArg (fun working => LedgerState.mk _ _ working _ _)
      (working_update m id pc'.unfinished).symm
  | recover secs limit =>
    cases h
    refine ⟨_, .recover, ?_, ?_⟩
    · simp [state, RecoverPc.prog]
    · intro pc hpc
      rcases List.mem_append.mp hpc with hpc | hpc
      · exact hm pc hpc
      · obtain rfl := List.mem_singleton.mp hpc
        trivial
  | sweep i o =>
    obtain ⟨_, hp, h⟩ := Option.bind_eq_some_iff.mp h
    obtain ⟨⟨p, w⟩, hstep, rfl⟩ := Option.map_eq_some_iff.mp h
    obtain ⟨pc, hi, rfl⟩ := Option.map_eq_some_iff.mp ((List.getElem?_map ..).symm.trans hp)
    obtain ⟨pc', rfl, hs⟩ := recoverStep_of_step (hm pc (List.mem_of_getElem? hi)) hstep
    refine ⟨_, .sweep hi hs, ?_, ?_⟩
    · simp [state, List.map_set]
    · intro q hq
      rcases List.mem_or_eq_of_mem_set hq with hq | rfl
      · exact hm q hq
      · exact hs.normal
  | markAsRead id userId o =>
    obtain ⟨⟨r, w⟩, hr, rfl⟩ := Option.map_eq_some_iff.mp h
    exact ⟨_, .markAsRead hr, rfl, hm⟩
  | markAllAsRead userId o =>
    obtain ⟨⟨r, w⟩, hr, rfl⟩ := Option.map_eq_some_iff.mp h
    exact ⟨_, .markAllAsRead hr, rfl, hm⟩

theorem invariant {ok : LedgerState Bytes → LedgerLabel → Prop} {I : Ledger Bytes → Prop}
    (hinit : ∀ w, w.table = .empty → I ⟨w, [], fun _ => none, [], fun _ => []⟩)
    (hstep : ∀ m l m', I m → ok (m.state d) l → Step d l m m' → I m')
    {s : LedgerState Bytes} (h : (ledgerSystem d).Reachable ok s) :
    ∃ m, s = m.state d ∧ (∀ pc ∈ m.sweeps, pc.Normal) ∧ I m := by
  refine h.invariant
    (P := fun s => ∃ m, s = m.state d ∧ (∀ pc ∈ m.sweeps, pc.Normal) ∧ I m) ?_ ?_
  · rintro ⟨w, calls, working, sweeps, trace⟩ ⟨htable, rfl, hworking, rfl, htrace⟩
    obtain rfl : working = fun _ => none := funext hworking
    obtain rfl : trace = fun _ => [] := funext htrace
    exact ⟨_, rfl, by simp, hinit w htable⟩
  · rintro s l t ⟨m, rfl, hnormal, hI⟩ hok hs
    obtain ⟨m', hstep', rfl, hnormal'⟩ := step_sim hnormal hs
    exact ⟨m', rfl, hnormal', hstep m l m' hI hok hstep'⟩

end Ledger

end NotiService
