import NotiService.Consumer
import NotiService.DispatchSteps
import NotiService.QueueSteps
import NotiService.Foundation.Transition

/-! The service as a whole: API calls, the RabbitMQ consumer, the in-process tasks, the
boot sweep, the broker, the passing of time, and crashes with the restart that
follows. Everything in flight is a program of the orchestrator and takes its next call
whenever it is scheduled. -/

namespace NotiService
open Foundation Orchestrator Amqp

variable {Bytes : Type}

/-- `id` is the call's own id while it is unfinished, as soon as it has one. -/
structure Call where
  id : Option Uuid
  prog : Program Op (Except NotiError Uuid)

/-- A delivery is `held` until it is settled or the broker takes its message back. -/
structure Delivery (Bytes : Type) where
  message : Message Bytes
  held : Bool
  prog : Program Op Disposition

structure Task where
  id : Uuid
  prog : Program Op (Except NotiError Unit)

/-- `todo` are the rows selected and not triggered yet. -/
structure Sweep where
  todo : List Uuid
  prog : Program Op (Except NotiError Nat)

structure ServiceState (Bytes : Type) where
  world : World Bytes
  calls : List Call
  deliveries : List (Delivery Bytes)
  tasks : List Task
  sweep : Sweep

inductive ServiceLabel where
  | tick (ms : Nat)
  | request (r : Request)
  | call (i : Nat) (o : Outcome)
  | deliver
  | process (i : Nat) (o : Outcome)
  | settle (i : Nat)
  | takeBack (i : Nat) (running : Bool)
  | expire
  | start (i : Nat)
  | wake (i : Nat)
  | task (i : Nat) (o : Outcome)
  | sweep (o : Outcome)
  | crash

/-- `STUCK_PROCESSING_SECS` and `RECOVERY_BATCH` of `startup.rs`. -/
def stuckProcessingSecs : Int := 300
def recoveryBatch : Int := 1000

def Call.advance (o : Outcome) (p : Program Op (Except NotiError Uuid)) (c : Call) : Call where
  id :=
    if p.isDone then none
    else if awaits c.prog = some .newV4 then
      match o with
      | .fresh id => some id
      | _ => none
    else c.id
  prog := p

def Sweep.advance (o : Outcome) (p : Program Op (Except NotiError Nat)) (sweep : Sweep) :
    Sweep where
  todo :=
    match awaits sweep.prog with
    | some .getPendingForRetry =>
      match o with
      | .rows ids => ids
      | _ => []
    | some .publishDispatch | some .spawnDispatch =>
      if awaits p = some .spawnDispatch then sweep.todo else sweep.todo.tail
    | _ => sweep.todo
  prog := p

namespace Service

def bootSweep (mq : Bool) : Sweep :=
  ⟨[], (recoverPending mq stuckProcessingSecs recoveryBatch).run⟩

def requeue (m : Message Bytes) (w : World Bytes) : World Bytes :=
  { w with broker := w.broker.requeue RabbitMQ.dispatchQueue m }

/-- Acknowledging a message removes it; rejecting it dead-letters it. -/
def settle (topology : Topology) (m : Message Bytes) : Disposition → World Bytes → World Bytes
  | .ack, w => w
  | .nackToDlx, w =>
    { w with broker := w.broker.deadLetter topology RabbitMQ.dispatchQueue m }

theorem settle_declared (m : Message Bytes) (disposition : Disposition) (w : World Bytes) :
    settle RabbitMQ.declaredTopology m disposition w = w := by
  cases disposition with
  | ack => rfl
  | nackToDlx =>
    rw [settle, Broker.deadLetter, RabbitMQ.rejected_declaredTopology]
    rfl

/-- The broker requeues what was not acknowledged. The tasks of the process are gone. -/
def crash (mq : Bool) (s : ServiceState Bytes) : ServiceState Bytes where
  world := ((s.deliveries.filter Delivery.held).map Delivery.message).foldr requeue
    { s.world with spawned := [], sleepers := [] }
  calls := []
  deliveries := []
  tasks := []
  sweep := bootSweep mq

end Service

open Service

def ServiceState.start (mq : Bool) : ServiceState Bytes :=
  ⟨.boot 0 .empty, [], [], [], bootSweep mq⟩

def serviceSystem (d : Deployment Bytes) : System (ServiceState Bytes) ServiceLabel where
  init s := s.world.table = .empty ∧ s.world.broker = .empty ∧ s.world.spawned = [] ∧
    s.world.sleepers = [] ∧ s.calls = [] ∧ s.deliveries = [] ∧ s.tasks = [] ∧
    s.sweep = bootSweep d.mq
  step s
    | .tick ms => some { s with world := s.world.tick ms }
    | .request r => some { s with calls := s.calls ++ [⟨none, r.prog d.mq⟩] }
    | .call i o => s.calls[i]?.bind fun c =>
      (Program.step (exec d o) c.prog s.world).map fun (p, world) =>
        { s with world, calls := s.calls.set i (Call.advance o p c) }
    | .deliver => (s.world.broker.deliver RabbitMQ.dispatchQueue).map fun (message, broker) =>
      { s with
        world := { s.world with broker }
        deliveries := s.deliveries ++
          [⟨message, true, Consumer.processDispatchPayload d.codec d.mq message.body⟩] }
    | .process i o => s.deliveries[i]?.bind fun dl =>
      (Program.step (exec d o) dl.prog s.world).map fun (p, world) =>
        { s with world, deliveries := s.deliveries.set i { dl with prog := p } }
    | .settle i => s.deliveries[i]?.bind fun dl => dl.prog.result.map fun disposition =>
      { s with
        world := if dl.held then settle d.topology dl.message disposition s.world else s.world
        deliveries := s.deliveries.eraseIdx i }
    | .takeBack i running => s.deliveries[i]?.bind fun dl =>
      -- a delivery whose dispatch has not begun goes back with its message
      if dl.held ∧ (running ∨ awaits dl.prog = some .getById) then
        some { s with
          world := requeue dl.message s.world
          deliveries := if running then s.deliveries.set i { dl with held := false }
            else s.deliveries.eraseIdx i }
      else none
    | .expire => (s.world.broker.expireHead d.topology RabbitMQ.retryQueue s.world.now).map
      fun broker => { s with world := { s.world with broker } }
    | .start i => s.world.spawned[i]?.map fun id =>
      { s with
        world := { s.world with spawned := s.world.spawned.eraseIdx i }
        tasks := s.tasks ++ [⟨id, (dispatch d.mq id).run⟩] }
    | .wake i => s.world.sleepers[i]?.bind fun (id, wakeAt) =>
      if wakeAt ≤ s.world.now then
        some { s with
          world := { s.world with sleepers := s.world.sleepers.eraseIdx i }
          tasks := s.tasks ++ [⟨id, (dispatch d.mq id).run⟩] }
      else none
    | .task i o => s.tasks[i]?.bind fun t =>
      (Program.step (exec d o) t.prog s.world).map fun (p, world) =>
        { s with world, tasks := s.tasks.set i { t with prog := p } }
    | .sweep o => (Program.step (exec d o) s.sweep.prog s.world).map fun (p, world) =>
      { s with world, sweep := s.sweep.advance o p }
    | .crash => some (crash d.mq s)

theorem ServiceState.reachable_start (d : Deployment Bytes)
    (ok : ServiceState Bytes → ServiceLabel → Prop) :
    (serviceSystem d).Reachable ok (.start d.mq) :=
  .start ⟨rfl, rfl, rfl, rfl, rfl, rfl, rfl, rfl⟩

end NotiService
