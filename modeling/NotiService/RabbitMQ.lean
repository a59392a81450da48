import NotiService.Domain
import NotiService.Foundation.Amqp

/-! `RabbitMQClient`: the topology it declares and the tasks it publishes.
`documentedTopology` is the one the consumer's `Disposition` describes, where a
rejected dispatch is dead-lettered to `noti.retry`. -/

namespace NotiService
open Foundation Amqp

structure NotificationTask where
  notificationId : Uuid
  retryCount : Int
deriving DecidableEq, Repr

/-- `serde_json` on tasks: what it writes, it reads back. -/
structure TaskCodec (Bytes : Type) where
  toVec : NotificationTask → Except String Bytes
  fromSlice : Bytes → Except String NotificationTask
  fromSlice_toVec : ∀ task bytes, toVec task = .ok bytes → fromSlice bytes = .ok task

def TaskCodec.plain : TaskCodec NotificationTask where
  toVec := .ok
  fromSlice := .ok
  fromSlice_toVec _ _ h := h.symm

namespace RabbitMQ

def exchange : String := "noti.exchange"
def retryQueue : String := "noti.retry"
def dispatchQueue : String := "noti.dispatch"

def dlxArgs : QueueArgs := ⟨some exchange, some dispatchQueue⟩

/-- The declarations of `RabbitMQClient::new`. -/
def declaredTopology : Topology :=
  Topology.empty.exchangeDeclare exchange
    |>.queueDeclare retryQueue dlxArgs
    |>.queueDeclare dispatchQueue .default
    |>.queueBind dispatchQueue exchange dispatchQueue

def documentedTopology : Topology :=
  Topology.empty.exchangeDeclare exchange
    |>.queueDeclare retryQueue dlxArgs
    |>.queueDeclare dispatchQueue ⟨some "", some retryQueue⟩
    |>.queueBind dispatchQueue exchange dispatchQueue

/-- `delay_mins * 60 * 1000` in `i32`. -/
def expiration (delayMins : Int) : Int := (delayMins * 60 * 1000).bmod (2 ^ 32)

section Publish

variable {Bytes : Type} (topology : Topology) (codec : TaskCodec Bytes)

def publishTask (now : Int) (task : NotificationTask) (delayMins : Int) (b : Broker Bytes) :
    Except NotiError (Broker Bytes) :=
  match codec.toVec task with
  | .error e => .error (.internal e)
  | .ok payload =>
    if 0 < delayMins then
      .ok (b.publish topology "" retryQueue payload (some (now + expiration delayMins)))
    else
      .ok (b.publish topology exchange dispatchQueue payload none)

def publishDispatch (now : Int) (id : Uuid) (b : Broker Bytes) :
    Except NotiError (Broker Bytes) :=
  publishTask topology codec now ⟨id, 0⟩ 0 b

def publishRetry (now : Int) (id : Uuid) (delayMs : Nat) (b : Broker Bytes) :
    Except NotiError (Broker Bytes) :=
  publishTask topology codec now ⟨id, 1⟩ (delayMs / 60000 : Nat) b

end Publish

structure Routes (topology : Topology) : Prop where
  dispatch : topology.route exchange dispatchQueue = [dispatchQueue]
  retry : topology.route "" retryQueue = [retryQueue]
  expired : ∀ key, topology.deadLetterRoute retryQueue key = [dispatchQueue]

theorem routes_declaredTopology : Routes declaredTopology :=
  ⟨rfl, rfl, fun _ => rfl⟩

theorem routes_documentedTopology : Routes documentedTopology :=
  ⟨rfl, rfl, fun _ => rfl⟩

theorem publishTask_eq_ok {Bytes : Type} {topology : Topology} (routes : Routes topology)
    {codec : TaskCodec Bytes} {now : Int} {task : NotificationTask} {delayMins : Int}
    {b b' : Broker Bytes} (h : publishTask topology codec now task delayMins b = .ok b') :
    ∃ payload, codec.fromSlice payload = .ok task ∧
      ((0 < delayMins ∧ b'.ready = (b.push ⟨b.nextTag, payload, retryQueue,
          some (now + expiration delayMins)⟩ retryQueue).ready) ∨
        (delayMins ≤ 0 ∧
          b'.ready = (b.push ⟨b.nextTag, payload, dispatchQueue, none⟩ dispatchQueue).ready)) := by
  unfold publishTask at h
  split at h
  · cases h
  · next payload hvec =>
    refine ⟨payload, codec.fromSlice_toVec task payload hvec, ?_⟩
    split at h
    · next hpos =>
      refine .inl ⟨hpos, ?_⟩
      rw [← Except.ok.inj h, Broker.publish, routes.retry]
      rfl
    · next hneg =>
      refine .inr ⟨Int.not_lt.mp hneg, ?_⟩
      rw [← Except.ok.inj h, Broker.publish, routes.dispatch]
      rfl

theorem rejected_declaredTopology (key : String) :
    declaredTopology.deadLetterRoute dispatchQueue key = [] := rfl

theorem rejected_documentedTopology (key : String) :
    documentedTopology.deadLetterRoute dispatchQueue key = [retryQueue] := rfl

end RabbitMQ

end NotiService
