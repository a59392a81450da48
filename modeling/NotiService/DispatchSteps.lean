import NotiService.World

/-! The steps of `dispatch`. `DispatchPc` names the points where it awaits a call,
`DispatchPc.prog` is what is left of the program there, and `DispatchStep` lists
everything a call can do at each of them. -/

namespace NotiService
open Foundation Orchestrator

inductive DispatchPc where
  | load
  | mark (n : Notification)
  | render (n : Notification)
  | giveUp (e : NotiError)
  | encode (n : Notification) (content : String)
  | send (n : Notification) (content : String)
  | succeed (providerRef : String)
  | clock (n : Notification) (e : NotiError)
  | bump (n : Notification) (e : NotiError) (now : Int)
  | repend (n : Notification) (e : NotiError)
  | schedule (ms : Nat)
  | fallback (ms : Nat)
  | done (r : Except NotiError Unit)

namespace DispatchPc

variable (mq : Bool) (id : Uuid)

def prog : DispatchPc → Program Op (Except NotiError Unit)
  | .load => (dispatch mq id).run
  | .mark n => (do
      call (.updateStatus id .processing none none)
      sendContent mq id n (← encodeContent n (← renderTemplate id n)) : Orchestrator Unit).run
  | .render n =>
    (do sendContent mq id n (← encodeContent n (← renderTemplate id n)) : Orchestrator Unit).run
  | .giveUp e => (Orchestrator.giveUp id e : Orchestrator Unit).run
  | .encode n content => .call (.encodeView n content) fun
      | .ok json => (sendContent mq id n json).run
      | .error e => .done (.error (.internal ("failed to encode WebSocket payload: " ++ e)))
  | .send n content => (sendContent mq id n content).run
  | .succeed ref => (call (.updateStatus id .sent none (some ref)) : Orchestrator Unit).run
  | .clock n e => (retryLater mq id n e).run
  | .bump n e now => (do
      call (.incrementRetry id (now + delayMs (n.retryCount + 1)))
      call (.updateStatus id .pending (some e.toString) none)
      scheduleRetry mq id (delayMs (n.retryCount + 1)) : Orchestrator Unit).run
  | .repend n e => (do
      call (.updateStatus id .pending (some e.toString) none)
      scheduleRetry mq id (delayMs (n.retryCount + 1)) : Orchestrator Unit).run
  | .schedule ms => .call (.publishRetry id ms) fun
      | .ok () => .done (.ok ())
      | .error _ => (attempt (.spawnInProcessRetry id ms) : Orchestrator Unit).run
  | .fallback ms => (attempt (.spawnInProcessRetry id ms) : Orchestrator Unit).run
  | .done r => .done r

def afterLoad : Except NotiError (Option Notification) → DispatchPc
  | .error e => .done (.error e)
  | .ok none => .done (.error (.notFound ("notification " ++ id.toString)))
  | .ok (some n) => if n.status.live then .mark n else .done (.ok ())

def afterRender (n : Notification) : Except NotiError String → DispatchPc
  | .ok content => if n.channel = .webSocket then .encode n content else .send n content
  | .error e => .giveUp e

def afterSend (n : Notification) : Except NotiError String → DispatchPc
  | .ok ref => .succeed ref
  | .error e => if maxRetries ≤ n.retryCount then .giveUp e else .clock n e

def afterEncode (n : Notification) : Except String String → DispatchPc
  | .ok json => .send n json
  | .error e => .done (.error (.internal ("failed to encode WebSocket payload: " ++ e)))

def retryVia (ms : Nat) : DispatchPc := if mq then .schedule ms else .fallback ms

def afterSchedule (ms : Nat) : Except NotiError Unit → DispatchPc
  | .ok () => .done (.ok ())
  | .error _ => .fallback ms

/-- The point a call of the repository leads to when its error is passed on. -/
def orError {α : Type} (next : DispatchPc) : Except NotiError α → DispatchPc
  | .ok _ => next
  | .error e => .done (.error e)

theorem giveUp_bind {α β : Type} (e : NotiError) (next : α → Orchestrator β) :
    (Orchestrator.giveUp id e >>= next).run = (Orchestrator.giveUp id e : Orchestrator β).run :=
  Program.call_congr fun r => by cases r <;> rfl

theorem prog_load : prog mq id .load =
    .call (.getById id) fun r => prog mq id (afterLoad id r) := by
  refine Program.call_congr fun r => ?_
  rcases r with e | _ | n
  · rfl
  · rfl
  · have guard : n.status.live = true ↔ ¬ (n.status ≠ .pending ∧ n.status ≠ .processing) := by
      cases n.status <;> decide
    by_cases h : n.status.live
    · rw [afterLoad, if_pos h]
      exact congrArg ExceptT.run (if_neg (guard.mp h))
    · rw [afterLoad, if_neg h]
      exact congrArg ExceptT.run (if_pos (not_not.mp (mt guard.mpr h)))

theorem prog_mark (n : Notification) : prog mq id (.mark n) =
    .call (.updateStatus id .processing none none) fun r =>
      prog mq id (orError (.render n) r) :=
  Program.call_congr fun r => by cases r <;> rfl

@[elab_as_elim] theorem afterRender_ok {motive : DispatchPc → Prop} (n : Notification)
    (content : String) (hencode : n.channel = .webSocket → motive (.encode n content))
    (hsend : n.channel ≠ .webSocket → motive (.send n content)) :
    motive (afterRender n (.ok content)) := by
  by_cases h : n.channel = .webSocket
  · rw [afterRender, if_pos h]
    exact hencode h
  · rw [afterRender, if_neg h]
    exact hsend h

theorem prog_render (n : Notification) : prog mq id (.render n) =
    .call (.render n.templateId n.vars) fun r => prog mq id (afterRender n r) := by
  refine Program.call_congr fun r => ?_
  cases r with
  | error e => exact giveUp_bind id e _
  | ok content =>
    show Program.bind ((encodeContent n content).run) _ = _
    by_cases h : n.channel = .webSocket
    · rw [afterRender, if_pos h, encodeContent, if_pos h]
      exact Program.call_congr fun r => by cases r <;> rfl
    · rw [afterRender, if_neg h, encodeContent, if_neg h]
      rfl

theorem prog_giveUp (e : NotiError) : prog mq id (.giveUp e) =
    .call (.updateStatus id .permanentFailure (some e.toString) none) fun r =>
      prog mq id (orError (.done (.error e)) r) :=
  Program.call_congr fun r => by cases r <;> rfl

theorem prog_encode (n : Notification) (content : String) : prog mq id (.encode n content) =
    .call (.encodeView n content) fun r => prog mq id (afterEncode n r) :=
  Program.call_congr fun r => by cases r <;> rfl

theorem prog_send (n : Notification) (content : String) : prog mq id (.send n content) =
    .call (.send n.channel n.recipient content) fun r => prog mq id (afterSend n r) := by
  refine Program.call_congr fun r => ?_
  cases r with
  | ok ref => rfl
  | error e =>
    by_cases h : maxRetries ≤ n.retryCount
    · rw [afterSend, if_pos h]
      exact congrArg ExceptT.run (if_pos h)
    · rw [afterSend, if_neg h]
      exact congrArg ExceptT.run (if_neg h)

theorem prog_succeed (ref : String) : prog mq id (.succeed ref) =
    .call (.updateStatus id .sent none (some ref)) fun r =>
      prog mq id (orError (.done (.ok ())) r) :=
  Program.call_congr fun r => by cases r <;> rfl

theorem prog_clock (n : Notification) (e : NotiError) : prog mq id (.clock n e) =
    .call .now fun now => prog mq id (.bump n e now) := rfl

theorem prog_bump (n : Notification) (e : NotiError) (now : Int) :
    prog mq id (.bump n e now) =
      .call (.incrementRetry id (now + delayMs (n.retryCount + 1))) fun r =>
        prog mq id (orError (.repend n e) r) :=
  Program.call_congr fun r => by cases r <;> rfl

theorem prog_repend (n : Notification) (e : NotiError) : prog mq id (.repend n e) =
    .call (.updateStatus id .pending (some e.toString) none) fun r =>
      prog mq id (orError (retryVia mq (delayMs (n.retryCount + 1))) r) := by
  refine Program.call_congr fun r => ?_
  cases r with
  | error e => rfl
  | ok =>
    cases mq with
    | false => rfl
    | true => exact Program.call_congr fun r => by cases r <;> rfl

theorem prog_schedule (ms : Nat) : prog mq id (.schedule ms) =
    .call (.publishRetry id ms) fun r => prog mq id (afterSchedule ms r) :=
  Program.call_congr fun r => by cases r <;> rfl

theorem prog_fallback (ms : Nat) : prog mq id (.fallback ms) =
    .call (.spawnInProcessRetry id ms) fun _ => prog mq id (.done (.ok ())) := rfl

def kind : DispatchPc → Option OpKind
  | .load => some .getById
  | .mark _ | .giveUp _ | .succeed _ | .repend _ _ => some .updateStatus
  | .render _ => some .render
  | .encode _ _ => some .encodeView
  | .send _ _ => some .send
  | .clock _ _ => some .now
  | .bump _ _ _ => some .incrementRetry
  | .schedule _ => some .publishRetry
  | .fallback _ => some .spawnInProcessRetry
  | .done _ => none

def result : DispatchPc → Option (Except NotiError Unit)
  | .done r => some r
  | _ => none

theorem eq_done {pc : DispatchPc} {r : Except NotiError Unit} (h : pc.result = some r) :
    pc = .done r := by
  cases pc <;> cases h
  rfl

theorem awaits_prog (pc : DispatchPc) : awaits (pc.prog mq id) = pc.kind := by
  cases pc <;> rfl

theorem result_prog (pc : DispatchPc) : (pc.prog mq id).result = pc.result := by
  cases pc <;> rfl

end DispatchPc

variable {Bytes : Type}

/-- `DispatchStep d id o w pc w' pc'`: the call that `dispatch id` awaits at `pc` has
the outcome `o`. -/
inductive DispatchStep (d : Deployment Bytes) (id : Uuid) :
    Outcome → World Bytes → DispatchPc → World Bytes → DispatchPc → Prop where
  | load {w n} : w.table.getById id = some n → n.status.live →
      DispatchStep d id .ok w .load w (.mark n)
  | loadTerminal {w n} : w.table.getById id = some n → n.status.live = false →
      DispatchStep d id .ok w .load w (.done (.ok ()))
  | loadMissing {w} : w.table.getById id = none →
      DispatchStep d id .ok w .load w (.done (.error (.notFound ("notification " ++ id.toString))))
  | loadFail {o w e w'} : Failed e w w o w' → DispatchStep d id o w .load w' (.done (.error e))
  | mark {w n} :
      DispatchStep d id .ok w (.mark n) (w.updateStatus id .processing none none) (.render n)
  | markFail {o w n e w'} : Failed e w (w.updateStatus id .processing none none) o w' →
      DispatchStep d id o w (.mark n) w' (.done (.error e))
  | render {w n content} :
      DispatchStep d id (.text content) w (.render n) w (.afterRender n (.ok content))
  | renderFail {w n e} : DispatchStep d id (.fail e) w (.render n) w (.giveUp e)
  | giveUp {w e} : DispatchStep d id .ok w (.giveUp e)
      (w.updateStatus id .permanentFailure (some e.toString) none) (.done (.error e))
  | giveUpFail {o w e e' w'} :
      Failed e' w (w.updateStatus id .permanentFailure (some e.toString) none) o w' →
      DispatchStep d id o w (.giveUp e) w' (.done (.error e'))
  | encode {w n content json} :
      DispatchStep d id (.text json) w (.encode n content) w (.send n json)
  | encodeFail {w n content e} : DispatchStep d id (.refuse e) w (.encode n content) w
      (.done (.error (.internal ("failed to encode WebSocket payload: " ++ e))))
  | send {w n content ref} : DispatchStep d id (.text ref) w (.send n content) w (.succeed ref)
  | sendFail {w n content e} : n.retryCount < maxRetries →
      DispatchStep d id (.fail e) w (.send n content) w (.clock n e)
  | sendExhausted {w n content e} : maxRetries ≤ n.retryCount →
      DispatchStep d id (.fail e) w (.send n content) w (.giveUp e)
  | succeed {w ref} : DispatchStep d id .ok w (.succeed ref)
      (w.updateStatus id .sent none (some ref)) (.done (.ok ()))
  | succeedFail {o w ref e w'} : Failed e w (w.updateStatus id .sent none (some ref)) o w' →
      DispatchStep d id o w (.succeed ref) w' (.done (.error e))
  | clock {o w n e} : DispatchStep d id o w (.clock n e) w (.bump n e w.now)
  | bump {w n e now} : DispatchStep d id .ok w (.bump n e now)
      (w.incrementRetry id (now + delayMs (n.retryCount + 1))) (.repend n e)
  | bumpFail {o w n e now e' w'} :
      Failed e' w (w.incrementRetry id (now + delayMs (n.retryCount + 1))) o w' →
      DispatchStep d id o w (.bump n e now) w' (.done (.error e'))
  | repend {w n e} : DispatchStep d id .ok w (.repend n e)
      (w.updateStatus id .pending (some e.toString) none)
      (.retryVia d.mq (delayMs (n.retryCount + 1)))
  | rependFail {o w n e e' w'} :
      Failed e' w (w.updateStatus id .pending (some e.toString) none) o w' →
      DispatchStep d id o w (.repend n e) w' (.done (.error e'))
  | schedule {w ms broker} :
      RabbitMQ.publishRetry d.topology d.codec w.now id ms w.broker = .ok broker →
      DispatchStep d id .ok w (.schedule ms) { w with broker } (.done (.ok ()))
  | scheduleFail {o w ms broker e w'} :
      RabbitMQ.publishRetry d.topology d.codec w.now id ms w.broker = .ok broker →
      Failed e w { w with broker } o w' → DispatchStep d id o w (.schedule ms) w' (.fallback ms)
  | scheduleUnencoded {o w ms e} :
      RabbitMQ.publishRetry d.topology d.codec w.now id ms w.broker = .error e →
      DispatchStep d id o w (.schedule ms) w (.fallback ms)
  | fallback {o w ms} : DispatchStep d id o w (.fallback ms)
      { w with sleepers := w.sleepers ++ [(id, w.now + ms)] } (.done (.ok ()))

theorem dispatchStep_of_step {d : Deployment Bytes} {id : Uuid} {o : Outcome} {w w' : World Bytes}
    {pc : DispatchPc} {p : Program Op (Except NotiError Unit)}
    (h : Program.step (exec d o) (pc.prog d.mq id) w = some (p, w')) :
    ∃ pc', p = pc'.prog d.mq id ∧ DispatchStep d id o w pc w' pc' := by
  cases pc with
  | load =>
    rw [DispatchPc.prog_load, Program.step_call_eq_some] at h
    obtain ⟨r, hr, rfl⟩ := h
    refine ⟨_, rfl, ?_⟩
    rcases World.answer_eq_some.mp hr with ⟨rfl, rfl, rfl⟩ | ⟨e, rfl, hf⟩
    · cases hn : w'.table.getById id with
      | none => exact .loadMissing hn
      | some n =>
        by_cases hlive : n.status.live
        · simpa only [DispatchPc.afterLoad, if_pos hlive] using .load hn hlive
        · simpa only [DispatchPc.afterLoad, if_neg hlive] using
            .loadTerminal hn (Bool.eq_false_iff.mpr hlive)
    · exact .loadFail hf
  | mark n =>
    rw [DispatchPc.prog_mark, Program.step_call_eq_some] at h
    obtain ⟨r, hr, rfl⟩ := h
    rcases World.answer_eq_some.mp hr with ⟨rfl, rfl, rfl⟩ | ⟨e, rfl, hf⟩
    · exact ⟨_, rfl, .mark⟩
    · exact ⟨_, rfl, .markFail hf⟩
  | render n =>
    rw [DispatchPc.prog_render, Program.step_call_eq_some] at h
    obtain ⟨r, hr, rfl⟩ := h
    obtain ⟨rfl, ⟨s, rfl, rfl⟩ | ⟨e, rfl, rfl⟩⟩ := World.reply_eq_some.mp hr
    · exact ⟨_, rfl, .render⟩
    · exact ⟨_, rfl, .renderFail⟩
  | giveUp e =>
    rw [DispatchPc.prog_giveUp, Program.step_call_eq_some] at h
    obtain ⟨r, hr, rfl⟩ := h
    rcases World.answer_eq_some.mp hr with ⟨rfl, rfl, rfl⟩ | ⟨e, rfl, hf⟩
    · exact ⟨_, rfl, .giveUp⟩
    · exact ⟨_, rfl, .giveUpFail hf⟩
  | encode n content =>
    rw [DispatchPc.prog_encode, Program.step_call_eq_some] at h
    obtain ⟨r, hr, rfl⟩ := h
    cases o <;> cases hr
    · exact ⟨_, rfl, .encode⟩
    · exact ⟨_, rfl, .encodeFail⟩
  | send n content =>
    rw [DispatchPc.prog_send, Program.step_call_eq_some] at h
    obtain ⟨r, hr, rfl⟩ := h
    obtain ⟨rfl, ⟨s, rfl, rfl⟩ | ⟨e, rfl, rfl⟩⟩ := World.reply_eq_some.mp hr
    · exact ⟨_, rfl, .send⟩
    · refine ⟨_, rfl, ?_⟩
      by_cases hmax : maxRetries ≤ n.retryCount
      · simpa only [DispatchPc.afterSend, if_pos hmax] using .sendExhausted hmax
      · simpa only [DispatchPc.afterSend, if_neg hmax] using .sendFail (Int.not_le.mp hmax)
  | succeed ref =>
    rw [DispatchPc.prog_succeed, Program.step_call_eq_some] at h
    obtain ⟨r, hr, rfl⟩ := h
    rcases World.answer_eq_some.mp hr with ⟨rfl, rfl, rfl⟩ | ⟨e, rfl, hf⟩
    · exact ⟨_, rfl, .succeed⟩
    · exact ⟨_, rfl, .succeedFail hf⟩
  | clock n e =>
    rw [DispatchPc.prog_clock, Program.step_call_eq_some] at h
    obtain ⟨r, hr, rfl⟩ := h
    cases hr
    exact ⟨_, rfl, .clock⟩
  | bump n e now =>
    rw [DispatchPc.prog_bump, Program.step_call_eq_some] at h
    obtain ⟨r, hr, rfl⟩ := h
    rcases World.answer_eq_some.mp hr with ⟨rfl, rfl, rfl⟩ | ⟨e, rfl, hf⟩
    · exact ⟨_, rfl, .bump⟩
    · exact ⟨_, rfl, .bumpFail hf⟩
  | repend n e =>
    rw [DispatchPc.prog_repend, Program.step_call_eq_some] at h
    obtain ⟨r, hr, rfl⟩ := h
    rcases World.answer_eq_some.mp hr with ⟨rfl, rfl, rfl⟩ | ⟨e, rfl, hf⟩
    · exact ⟨_, rfl, .repend⟩
    · exact ⟨_, rfl, .rependFail hf⟩
  | schedule ms =>
    rw [DispatchPc.prog_schedule, Program.step_call_eq_some] at h
    obtain ⟨r, hr, rfl⟩ := h
    refine ⟨_, rfl, ?_⟩
    simp only [exec] at hr
    split at hr
    · next broker hp =>
      rcases World.answer_eq_some.mp hr with ⟨rfl, rfl, rfl⟩ | ⟨e, rfl, hf⟩
      · exact .schedule hp
      · exact .scheduleFail hp hf
    · next e hp =>
      cases hr
      exact .scheduleUnencoded hp
  | fallback ms =>
    rw [DispatchPc.prog_fallback, Program.step_call_eq_some] at h
    obtain ⟨r, hr, rfl⟩ := h
    cases hr
    exact ⟨_, rfl, .fallback⟩
  | done r => cases h

end NotiService
