import NotiService.NotificationTable
import NotiService.Foundation.Program

/-! `NotificationOrchestrator`: ingestion (`queue.rs`) and delivery (`dispatch.rs`).
Each method is a program over the calls it awaits. `mq` says whether a message
queue is configured. A warning that is only logged leaves no trace here. -/

namespace NotiService
open Foundation

/-- The clock, the repository, the cache, the template engine, the providers, the
message queue and `tokio::spawn`. `enterTriggerDispatch` is no call of the source: it
marks the entry of `trigger_dispatch`. -/
inductive Op : Type → Type where
  | now : Op Int
  | newV4 : Op Uuid
  | create (n : Notification) : Op (Except NotiError Notification)
  | getById (id : Uuid) : Op (Except NotiError (Option Notification))
  | updateStatus (id : Uuid) (status : NotificationStatus) (error providerRef : Option String) :
      Op (Except NotiError Unit)
  | incrementRetry (id : Uuid) (nextRetryAt : Int) : Op (Except NotiError Unit)
  | getPendingForRetry (limit : Int) : Op (Except NotiError (List Notification))
  | resetStuckProcessing (stuckThresholdSecs : Int) : Op (Except NotiError Nat)
  | setValue (key : String) (value : Json) (ttlSecs : Nat) : Op (Except NotiError Unit)
  | incrementWithTtl (key : String) (ttlSecs : Nat) : Op (Except NotiError Nat)
  | render (templateId : String) (vars : Json) : Op (Except NotiError String)
  | encodeView (n : Notification) (content : String) : Op (Except String String)
  | send (channel : NotificationChannel) (recipient content : String) :
      Op (Except NotiError String)
  | publishDispatch (id : Uuid) : Op (Except NotiError Unit)
  | publishRetry (id : Uuid) (delayMs : Nat) : Op (Except NotiError Unit)
  | enterTriggerDispatch (id : Uuid) : Op Unit
  | spawnDispatch (id : Uuid) : Op Unit
  | spawnInProcessRetry (id : Uuid) (delayMs : Nat) : Op Unit

inductive OpKind where
  | now | newV4 | create | getById | updateStatus | incrementRetry | getPendingForRetry
  | resetStuckProcessing | setValue | incrementWithTtl | render | encodeView | send
  | publishDispatch | publishRetry | enterTriggerDispatch | spawnDispatch | spawnInProcessRetry
deriving DecidableEq, Repr

def Op.kind {α : Type} : Op α → OpKind
  | .now => .now
  | .newV4 => .newV4
  | .create _ => .create
  | .getById _ => .getById
  | .updateStatus .. => .updateStatus
  | .incrementRetry .. => .incrementRetry
  | .getPendingForRetry _ => .getPendingForRetry
  | .resetStuckProcessing _ => .resetStuckProcessing
  | .setValue .. => .setValue
  | .incrementWithTtl .. => .incrementWithTtl
  | .render .. => .render
  | .encodeView .. => .encodeView
  | .send .. => .send
  | .publishDispatch _ => .publishDispatch
  | .publishRetry .. => .publishRetry
  | .enterTriggerDispatch _ => .enterTriggerDispatch
  | .spawnDispatch _ => .spawnDispatch
  | .spawnInProcessRetry .. => .spawnInProcessRetry

def OpKind.repository : OpKind → Bool
  | .create | .getById | .updateStatus | .incrementRetry | .getPendingForRetry
  | .resetStuckProcessing => true
  | _ => false

def awaits {α : Type} (p : Program Op α) : Option OpKind := p.peek Op.kind

def Op.creates {α : Type} : Op α → Option Notification
  | .create n => some n
  | _ => none

def creates {α : Type} (p : Program Op α) : Option Notification := (p.peek Op.creates).join

abbrev Orchestrator := ExceptT NotiError (Program Op)

namespace Orchestrator

variable {α : Type}

/-- A call whose error `?` passes on. -/
def call (op : Op (Except NotiError α)) : Orchestrator α := ExceptT.mk (Program.perform op)

/-- A call whose result the caller looks at. -/
def attempt (op : Op α) : Orchestrator α := ExceptT.lift (Program.perform op)

def triggerDispatch (mq : Bool) (id : Uuid) : Orchestrator Unit := do
  attempt (.enterTriggerDispatch id)
  if mq then
    match ← attempt (.publishDispatch id) with
    | .ok () => pure ()
    | .error _ => attempt (.spawnDispatch id)
  else
    attempt (.spawnDispatch id)

/-- What `queue_notification` does with the row it has built. -/
def persistAndTrigger (mq : Bool) (n : Notification) : Orchestrator Uuid := do
  let saved : Notification ← call (.create n)
  -- an existing row of the same idempotency key: its first request triggered it
  if saved.id ≠ n.id then
    return saved.id
  if let some key := n.idempotencyKey then
    let _ ← attempt (.setValue ("idempotency:" ++ key) (.str saved.id.toString) 3600)
  triggerDispatch mq saved.id
  return saved.id

def queueNotification (mq : Bool) (userId : Option Uuid) (channel : NotificationChannel)
    (recipient templateId : String) (vars : Json) (idempotencyKey : Option String) :
    Orchestrator Uuid := do
  let id ← attempt .newV4
  let nextRetryAt ← attempt .now
  let createdAt ← attempt .now
  let updatedAt ← attempt .now
  persistAndTrigger mq
    { id
      userId
      channel
      status := .pending
      recipient
      templateId
      vars
      providerId := none
      providerRef := none
      retryCount := 0
      nextRetryAt
      errorMessage := none
      idempotencyKey
      createdAt
      updatedAt
      sentAt := none
      readAt := none }

/-- The caller looks at the result. -/
def bumpCounter (key : String) (ttlSecs : Nat) : Orchestrator (Except NotiError Nat) :=
  attempt (.incrementWithTtl key ttlSecs)

def recoverPending (mq : Bool) (stuckThresholdSecs batchLimit : Int) : Orchestrator Nat := do
  let _ ← call (.resetStuckProcessing stuckThresholdSecs)
  let due : List Notification ← call (.getPendingForRetry batchLimit)
  due.forM fun n => triggerDispatch mq n.id
  return due.length

def maxRetries : Int := 5

/-- `u32::from(2u16.saturating_pow(retry_count.unsigned_abs())) * 60 * 1000` -/
def delayMs (retryCount : Int) : Nat := min (2 ^ retryCount.natAbs) 65535 * 60 * 1000

/-- Store the failure for good and hand it to the caller. -/
def giveUp (id : Uuid) (e : NotiError) : Orchestrator α := do
  call (.updateStatus id .permanentFailure (some e.toString) none)
  throw e

def renderTemplate (id : Uuid) (n : Notification) : Orchestrator String := do
  match ← attempt (.render n.templateId n.vars) with
  | .ok content => pure content
  | .error e => giveUp id e

/-- WebSocket clients get the notification as JSON, every other channel the
rendered text. -/
def encodeContent (n : Notification) (content : String) : Orchestrator String := do
  if n.channel = .webSocket then
    match ← attempt (.encodeView n content) with
    | .ok json => pure json
    | .error e => throw (.internal ("failed to encode WebSocket payload: " ++ e))
  else
    pure content

def scheduleRetry (mq : Bool) (id : Uuid) (delayMs : Nat) : Orchestrator Unit := do
  if mq then
    match ← attempt (.publishRetry id delayMs) with
    | .ok () => pure ()
    | .error _ => attempt (.spawnInProcessRetry id delayMs)
  else
    attempt (.spawnInProcessRetry id delayMs)

def retryLater (mq : Bool) (id : Uuid) (n : Notification) (e : NotiError) :
    Orchestrator Unit := do
  let delayMs := delayMs (n.retryCount + 1)
  let now ← attempt .now
  call (.incrementRetry id (now + delayMs))
  call (.updateStatus id .pending (some e.toString) none)
  scheduleRetry mq id delayMs

def sendContent (mq : Bool) (id : Uuid) (n : Notification) (content : String) :
    Orchestrator Unit := do
  match ← attempt (.send n.channel n.recipient content) with
  | .ok providerRef => call (.updateStatus id .sent none (some providerRef))
  | .error e => if maxRetries ≤ n.retryCount then giveUp id e else retryLater mq id n e

def dispatch (mq : Bool) (id : Uuid) : Orchestrator Unit := do
  let some n ← call (.getById id) | throw (.notFound ("notification " ++ id.toString))
  if n.status ≠ .pending ∧ n.status ≠ .processing then
    return
  call (.updateStatus id .processing none none)
  let content ← renderTemplate id n
  let content ← encodeContent n content
  sendContent mq id n content

end Orchestrator

structure Request where
  userId : Option Uuid
  channel : NotificationChannel
  recipient : String
  templateId : String
  vars : Json
  idempotencyKey : Option String

namespace Request

def prog (mq : Bool) (r : Request) : Program Op (Except NotiError Uuid) :=
  (Orchestrator.queueNotification mq r.userId r.channel r.recipient r.templateId r.vars
    r.idempotencyKey).run

def notification (r : Request) (id : Uuid) (nextRetryAt createdAt updatedAt : Int) :
    Notification :=
  { id
    userId := r.userId
    channel := r.channel
    status := .pending
    recipient := r.recipient
    templateId := r.templateId
    vars := r.vars
    providerId := none
    providerRef := none
    retryCount := 0
    nextRetryAt
    errorMessage := none
    idempotencyKey := r.idempotencyKey
    createdAt
    updatedAt
    sentAt := none
    readAt := none }

def sample : Request := ⟨none, .email, "user@example.com", "welcome", .null, none⟩

def stored : NotificationTable where
  table := ⟨[sample.notification ⟨1⟩ 0 0 0], by decide⟩
  keysUnique := by simp

end Request

end NotiService
