import NotiService.Events
import NotiService.RabbitMQ

/-! What the consumers make of one Kafka record and of one RabbitMQ delivery. -/

namespace NotiService
open Foundation

structure OwnedRecord where
  payload : Option String
  topic : String
  partition : Int
  offset : Int
deriving DecidableEq, Repr

inductive RecordError where
  | json (text : String)
  | noti (e : NotiError)
deriving DecidableEq, Repr

/-- What `handle_record` reads from the envelope of an event. -/
structure Envelope where
  eventType : String
  eventId : Option String
  data : Json

inductive Disposition where
  | ack
  | nackToDlx
deriving DecidableEq, Repr

namespace Consumer

def envelope (event : Json) : Envelope where
  eventType := ((event.get "event_type").bind Json.asStr).getD "unknown"
  eventId := (event.get "id").bind Json.asStr
  data := (event.get "data").getD (.obj [])

def handleRecord (mq : Bool) (env : EventEnv) (rec : OwnedRecord) :
    Program Op (Except RecordError Unit) :=
  match rec.payload with
  | none => .done (.ok ())
  | some payload =>
    match env.fromStr payload with
    | .error e => .done (.error (.json e))
    | .ok event =>
      let e := envelope event
      (Events.dispatch mq env ⟨rec.partition, rec.offset, e.eventId⟩ e.eventType e.data).run.map
        (Except.mapError RecordError.noti)

end Consumer

def OwnedRecord.event (env : EventEnv) (rec : OwnedRecord) : Option Envelope :=
  rec.payload.bind fun payload => (env.fromStr payload).toOption.map Consumer.envelope

def OwnedRecord.eventId (env : EventEnv) (rec : OwnedRecord) : Option String :=
  (rec.event env).bind Envelope.eventId

def OwnedRecord.ctx (env : EventEnv) (rec : OwnedRecord) : MsgCtx :=
  ⟨rec.partition, rec.offset, rec.eventId env⟩

/-- What the handler of a record queues if nothing fails or skips. -/
def OwnedRecord.queued (env : EventEnv) (rec : OwnedRecord) : List Queued :=
  (rec.event env).elim [] fun e => Events.queued env e.eventType e.data

def OwnedRecord.counter (env : EventEnv) (rec : OwnedRecord) : Option String :=
  (rec.event env).bind fun e => Events.counter env e.eventType e.data

/-- The orchestrator calls of the handler of a record with an event. -/
def OwnedRecord.handling (mq : Bool) (env : EventEnv) (rec : OwnedRecord) :
    Orchestrator Unit :=
  match rec.counter env with
  | none => Events.queueAll mq (rec.ctx env) (rec.queued env)
  | some key => Events.alertIfNew mq (rec.ctx env) key (rec.queued env)

namespace Consumer

theorem handleRecord_cases (mq : Bool) (env : EventEnv) (rec : OwnedRecord) :
    (∃ r, handleRecord mq env rec = .done r ∧ rec.event env = none) ∨
      handleRecord mq env rec = (rec.handling mq env).run.map (Except.mapError .noti) := by
  unfold handleRecord OwnedRecord.handling OwnedRecord.counter OwnedRecord.queued
    OwnedRecord.ctx OwnedRecord.eventId OwnedRecord.event
  cases rec.payload with
  | none => exact .inl ⟨_, rfl, rfl⟩
  | some payload =>
    cases hparse : env.fromStr payload with
    | error e =>
      exact .inl ⟨.error (.json e), by simp only [hparse], by simp [hparse, Except.toOption]⟩
    | ok event =>
      refine .inr ?_
      simp only [hparse, Option.bind_some]
      exact congrArg
        (fun calls : Orchestrator Unit => calls.run.map (Except.mapError RecordError.noti))
        (Events.dispatch_eq ..)

def disposition : Except NotiError Unit → Disposition
  | .ok () => .ack
  | .error _ => .nackToDlx

/-- A payload that does not parse is acknowledged away. -/
def processDispatchPayload {Bytes : Type} (codec : TaskCodec Bytes) (mq : Bool) (data : Bytes) :
    Program Op Disposition :=
  match codec.fromSlice data with
  | .error _ => .done .ack
  | .ok task => (Orchestrator.dispatch mq task.notificationId).run.map disposition

end Consumer

def EventEnv.knowing (payloads : List (String × Json)) (ids : List Uuid) : EventEnv where
  frontendUrl := none
  parseStr s := ids.find? fun id => id.toString = s
  toString _ := "null"
  fromStr s := match payloads.lookup s with
    | some event => .ok event
    | none => .error "expected value at line 1 column 1"

end NotiService
