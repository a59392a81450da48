import NotiService.Orchestrator
import NotiService.RabbitMQ

/-! The world the orchestrator runs in: the clock, the database, the broker and the
tasks it has spawned, with what each call does to them. `exec` takes the outcome of
the call as an argument, so a run is a sequence of outcomes. A fallible call may
fail before or after its effect. -/

namespace NotiService
open Foundation Amqp

structure Deployment (Bytes : Type) where
  topology : Topology
  codec : TaskCodec Bytes
  mq : Bool

def Deployment.declared {Bytes : Type} (codec : TaskCodec Bytes) (mq : Bool) : Deployment Bytes :=
  ⟨RabbitMQ.declaredTopology, codec, mq⟩

/-- The topology with rejected dispatches dead-lettered to `noti.retry`. -/
def Deployment.documented {Bytes : Type} (codec : TaskCodec Bytes) (mq : Bool) :
    Deployment Bytes := ⟨RabbitMQ.documentedTopology, codec, mq⟩

def Deployment.plain (mq : Bool) : Deployment NotificationTask := .declared .plain mq

/-- `spawned` are in-process dispatches, `sleepers` in-process retries with the time
each wakes at. `counters` are the cache's, each with the time it lives to. `issued` are
the ids `Uuid::new_v4` has given, `triggered` those `trigger_dispatch` was entered with. -/
structure World (Bytes : Type) where
  now : Int
  table : NotificationTable
  broker : Broker Bytes
  spawned : List Uuid
  sleepers : List (Uuid × Int)
  counters : String → Option (Nat × Int)
  issued : List Uuid
  triggered : List Uuid

inductive Outcome where
  | ok
  | fail (e : NotiError)
  | failAfter (e : NotiError)
  | text (s : String)
  | refuse (s : String)
  | fresh (id : Uuid)
  | rows (ids : List Uuid)
deriving DecidableEq, Repr

def Outcome.failed : Outcome → Bool
  | .fail _ | .failAfter _ | .refuse _ => true
  | _ => false

variable {Bytes α : Type}

namespace World

def boot (now : Int) (table : NotificationTable) : World Bytes :=
  ⟨now, table, .empty, [], [], fun _ => none, [], []⟩

def answer (w : World Bytes) (value : α) (w' : World Bytes) :
    Outcome → Option (Except NotiError α × World Bytes)
  | .ok => some (.ok value, w')
  | .fail e => some (.error e, w)
  | .failAfter e => some (.error e, w')
  | _ => none

def reply (w : World Bytes) : Outcome → Option (Except NotiError String × World Bytes)
  | .text s => some (.ok s, w)
  | .fail e => some (.error e, w)
  | _ => none

def tick (w : World Bytes) (ms : Nat) : World Bytes := { w with now := w.now + ms }

def updateStatus (w : World Bytes) (id : Uuid) (status : NotificationStatus)
    (error providerRef : Option String) : World Bytes :=
  { w with table := w.table.updateStatus w.now id status error providerRef }

@[simp] theorem getById_updateStatus (w : World Bytes) (id : Uuid) (status : NotificationStatus)
    (error providerRef : Option String) (k : Uuid) :
    (w.updateStatus id status error providerRef).table.getById k =
      if k = id then
        (w.table.getById id).map (NotificationTable.withStatus w.now status error providerRef)
      else w.table.getById k := NotificationTable.getById_updateStatus ..

def incrementRetry (w : World Bytes) (id : Uuid) (nextRetryAt : Int) : World Bytes :=
  { w with table := w.table.incrementRetry w.now id nextRetryAt }

@[simp] theorem getById_incrementRetry (w : World Bytes) (id : Uuid) (nextRetryAt : Int)
    (k : Uuid) : (w.incrementRetry id nextRetryAt).table.getById k =
      if k = id then (w.table.getById id).map (NotificationTable.withRetry w.now nextRetryAt)
      else w.table.getById k := NotificationTable.getById_incrementRetry ..

def resetStuckProcessing (w : World Bytes) (secs : Int) : World Bytes :=
  { w with table := w.table.resetStuckProcessing w.now secs }

def markAsRead (w : World Bytes) (id userId : Uuid) : World Bytes :=
  { w with table := w.table.markAsRead w.now id userId }

def markAllAsRead (w : World Bytes) (userId : Uuid) : World Bytes :=
  { w with table := w.table.markAllAsRead w.now userId }

/-- The value of a counter: an absent or expired one counts from 0. -/
def count (w : World Bytes) (key : String) : Nat :=
  match w.counters key with
  | none => 0
  | some (n, expiry) => if w.now < expiry then n else 0

/-- `INCR` and `EXPIRE` in one script. -/
def incrementWithTtl (w : World Bytes) (key : String) (ttlSecs : Nat) : World Bytes :=
  { w with
    counters := Function.update w.counters key
      (some (w.count key + 1, w.now + (ttlSecs * 1000 : Nat))) }

end World

/-- A call with the effect `w ↦ w₁` that reports `e`, before its effect or after it. -/
inductive Failed (e : NotiError) (w w₁ : World Bytes) : Outcome → World Bytes → Prop where
  | before : Failed e w w₁ (.fail e) w
  | after : Failed e w w₁ (.failAfter e) w₁

theorem Failed.ne_ok {e : NotiError} {w w₁ w' : World Bytes} {o : Outcome}
    (h : Failed e w w₁ o w') : o ≠ .ok := by
  cases h <;> simp

theorem Failed.failed {e : NotiError} {w w₁ w' : World Bytes} {o : Outcome}
    (h : Failed e w w₁ o w') : o.failed = true := by
  cases h <;> rfl

theorem World.answer_eq_some {w w₁ w' : World Bytes} {value : α} {o : Outcome}
    {r : Except NotiError α} : w.answer value w₁ o = some (r, w') ↔
      (o = .ok ∧ r = .ok value ∧ w' = w₁) ∨ ∃ e, r = .error e ∧ Failed e w w₁ o w' := by
  constructor
  · intro h
    cases o <;> cases h
    · exact .inl ⟨rfl, rfl, rfl⟩
    · exact .inr ⟨_, rfl, .before⟩
    · exact .inr ⟨_, rfl, .after⟩
  · rintro (⟨rfl, rfl, rfl⟩ | ⟨e, rfl, h | h⟩) <;> rfl

theorem World.reply_eq_some {w w' : World Bytes} {o : Outcome} {r : Except NotiError String} :
    w.reply o = some (r, w') ↔
      w' = w ∧ ((∃ s, o = .text s ∧ r = .ok s) ∨ ∃ e, o = .fail e ∧ r = .error e) := by
  constructor
  · intro h
    cases o <;> cases h
    · exact ⟨rfl, .inr ⟨_, rfl, rfl⟩⟩
    · exact ⟨rfl, .inl ⟨_, rfl, rfl⟩⟩
  · rintro ⟨rfl, ⟨s, rfl, rfl⟩ | ⟨e, rfl, rfl⟩⟩ <;> rfl

variable (d : Deployment Bytes)

def exec (o : Outcome) : {β : Type} → Op β → World Bytes → Option (β × World Bytes)
  | _, .now, w => some (w.now, w)
  | _, .newV4, w =>
    match o with
    | .fresh id =>
      -- a v4 uuid is never given twice, nor is it one that is stored already
      if id ∉ w.issued ∧ w.table.getById id = none then
        some (id, { w with issued := id :: w.issued })
      else none
    | _ => none
  | _, .create n, w =>
    match w.table.create n with
    | .ok (row, table) => w.answer row { w with table } o
    | .error e => some (.error e, w)
  | _, .getById id, w => w.answer (w.table.getById id) w o
  | _, .updateStatus id status error providerRef, w =>
    w.answer () (w.updateStatus id status error providerRef) o
  | _, .incrementRetry id nextRetryAt, w => w.answer () (w.incrementRetry id nextRetryAt) o
  | _, .getPendingForRetry limit, w =>
    match o with
    | .rows ids => (w.table.getPendingForRetry w.now limit ids).map fun due => (.ok due, w)
    | .fail e => some (.error e, w)
    | _ => none
  | _, .resetStuckProcessing secs, w =>
    w.answer (w.table.stuckCount w.now secs) (w.resetStuckProcessing secs) o
  | _, .setValue _ _ _, w => w.answer () w o
  | _, .incrementWithTtl key ttlSecs, w =>
    w.answer (w.count key + 1) (w.incrementWithTtl key ttlSecs) o
  | _, .render _ _, w => w.reply o
  | _, .encodeView _ _, w =>
    match o with
    | .text s => some (.ok s, w)
    | .refuse s => some (.error s, w)
    | _ => none
  | _, .send _ _ _, w => w.reply o
  | _, .publishDispatch id, w =>
    match RabbitMQ.publishDispatch d.topology d.codec w.now id w.broker with
    | .ok broker => w.answer () { w with broker } o
    | .error e => some (.error e, w)
  | _, .publishRetry id delayMs, w =>
    match RabbitMQ.publishRetry d.topology d.codec w.now id delayMs w.broker with
    | .ok broker => w.answer () { w with broker } o
    | .error e => some (.error e, w)
  | _, .enterTriggerDispatch id, w => some ((), { w with triggered := w.triggered ++ [id] })
  | _, .spawnDispatch id, w => some ((), { w with spawned := w.spawned ++ [id] })
  | _, .spawnInProcessRetry id delayMs, w =>
    some ((), { w with sleepers := w.sleepers ++ [(id, w.now + delayMs)] })

end NotiService
