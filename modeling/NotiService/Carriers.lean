import NotiService.Machine
import NotiService.RowSteps
import NotiService.Foundation.Slots

/-! Who carries the duty to deliver a notification: a task in the broker, a delivery
being processed, an in-process task, or the call that has just stored the row. Each
step of a program that lets go of the duty hands it to one of the others, or has
settled the row. -/

namespace NotiService
open Foundation Orchestrator Amqp RabbitMQ Consumer NotificationTable

variable {Bytes : Type}

/-- Queued at the broker, or waiting to run in process. -/
def InTransit (d : Deployment Bytes) (w : World Bytes) (id : Uuid) : Prop :=
  (∃ queue m, (queue = dispatchQueue ∨ queue = retryQueue) ∧ m ∈ w.broker.ready queue ∧
    d.taskId m = some id) ∨ id ∈ w.spawned ∨ ∃ wakeAt, (id, wakeAt) ∈ w.sleepers

def Delivery.Carries (d : Deployment Bytes) (id : Uuid) (dl : Delivery Bytes) : Prop :=
  d.taskId dl.message = some id ∧
    (dl.prog.result = none ∨ dl.held ∧ dl.prog.result = some .nackToDlx)

/-- From `create` to the end of `trigger_dispatch`. -/
def OpKind.triggering : OpKind → Bool
  | .setValue | .enterTriggerDispatch | .publishDispatch | .spawnDispatch => true
  | _ => false

def Call.Carries (id : Uuid) (c : Call) : Prop :=
  c.id = some id ∧ (awaits c.prog).any OpKind.triggering

def Task.Carries (id : Uuid) (t : Task) : Prop := t.id = id ∧ t.prog.isDone = false

def Carried (d : Deployment Bytes) (s : ServiceState Bytes) (id : Uuid) : Prop :=
  InTransit d s.world id ∨ (∃ dl ∈ s.deliveries, dl.Carries d id) ∨
    (∃ t ∈ s.tasks, t.Carries id) ∨ ∃ c ∈ s.calls, c.Carries id

def DeliveryPc.Carries (d : Deployment Bytes) (id : Uuid) (dl : DeliveryPc Bytes) : Prop :=
  d.taskId dl.message = some id ∧
    (dl.result d = none ∨ dl.held ∧ dl.result d = some .nackToDlx)

def QueuePc.Carries (id : Uuid) (pc : QueuePc) : Prop :=
  pc.id = some id ∧ pc.kind.any OpKind.triggering

def Machine.Carried (d : Deployment Bytes) (m : Machine Bytes) (id : Uuid) : Prop :=
  InTransit d m.world id ∨ (∃ dl ∈ m.deliveries, dl.Carries d id) ∨
    (∃ t ∈ m.tasks, t.1 = id ∧ t.2.result = none) ∨ ∃ c ∈ m.calls, c.2.Carries id

variable {d : Deployment Bytes}

theorem DispatchPc.isDone_prog (mq : Bool) (id : Uuid) (pc : DispatchPc) :
    (pc.prog mq id).isDone = false ↔ pc.result = none := by
  cases pc <;> simp [DispatchPc.result, DispatchPc.prog] <;> rfl

theorem carried_state (m : Machine Bytes) (id : Uuid) :
    Carried d (m.state d) id ↔ m.Carried d id := by
  have hdl : ∀ dl : DeliveryPc Bytes,
      Delivery.Carries d id ⟨dl.message, dl.held, dl.prog d⟩ ↔ dl.Carries d id := by
    intro dl
    rw [Delivery.Carries, DeliveryPc.result_prog, DeliveryPc.Carries]
  have hcall : ∀ c : Request × QueuePc,
      Call.Carries id ⟨c.2.id, c.2.prog d.mq c.1⟩ ↔ c.2.Carries id := by
    intro c
    rw [Call.Carries, QueuePc.awaits_prog, QueuePc.Carries]
  have htask : ∀ t : Uuid × DispatchPc,
      Task.Carries id ⟨t.1, t.2.prog d.mq t.1⟩ ↔ t.1 = id ∧ t.2.result = none := by
    intro t
    rw [Task.Carries, DispatchPc.isDone_prog]
  simp only [Carried, Machine.Carried, Machine.state, List.mem_map,
    exists_exists_and_eq_and, hdl, hcall, htask]

/-- Nothing at the broker or waiting in process is lost. -/
structure World.Grows (w w' : World Bytes) : Prop where
  ready : ∀ queue, (w.broker.ready queue).Sublist (w'.broker.ready queue)
  spawned : w.spawned ⊆ w'.spawned
  sleepers : w.sleepers ⊆ w'.sleepers

theorem World.Grows.of_eq {w w' : World Bytes} (hbroker : w'.broker = w.broker)
    (hspawned : w'.spawned = w.spawned) (hsleepers : w'.sleepers = w.sleepers) : w.Grows w' :=
  ⟨fun _ => hbroker ▸ List.Sublist.refl _, by simp [hspawned], by simp [hsleepers]⟩

theorem InTransit.mono {w w' : World Bytes} (h : w.Grows w') {id : Uuid} (ht : InTransit d w id) :
    InTransit d w' id := by
  rcases ht with ⟨queue, m, hq, hm, hid⟩ | hspawned | ⟨t, ht⟩
  · exact .inl ⟨queue, m, hq, (h.ready queue).subset hm, hid⟩
  · exact .inr (.inl (h.spawned hspawned))
  · exact .inr (.inr ⟨t, h.sleepers ht⟩)

theorem Failed.grows {e : NotiError} {w w₁ w' : World Bytes} {o : Outcome}
    (h : Failed e w w₁ o w') (hg : w.Grows w₁) : w.Grows w' := by
  cases h with
  | before => exact .of_eq rfl rfl rfl
  | after => exact hg

theorem grows_requeue (m : Message Bytes) (w : World Bytes) :
    w.Grows (Service.requeue m w) ∧
      ∀ id, d.taskId m = some id → InTransit d (Service.requeue m w) id := by
  refine ⟨⟨w.broker.sublist_requeue m _, fun _ h => h, fun _ h => h⟩, ?_⟩
  exact fun id hid =>
    .inl ⟨dispatchQueue, m, .inl rfl, Broker.mem_requeue.mpr (.inl ⟨rfl, rfl⟩), hid⟩

theorem grows_deadLetter {topology : Topology} {queue target : String} {m : Message Bytes}
    (w : World Bytes) (htarget : target = dispatchQueue ∨ target = retryQueue)
    (hroute : topology.deadLetterRoute queue m.routingKey = [target]) :
    w.Grows { w with broker := w.broker.deadLetter topology queue m } ∧
      ∀ id, d.taskId m = some id →
        InTransit d { w with broker := w.broker.deadLetter topology queue m } id := by
  refine ⟨⟨w.broker.sublist_pushAll _ _, fun _ h => h, fun _ h => h⟩, fun id hid => ?_⟩
  · refine .inl ⟨target, { m with
      routingKey := topology.deadLetterKey queue m.routingKey, expiry := none }, htarget, ?_, hid⟩
    refine Broker.mem_pushAll.mpr (.inr ⟨?_, rfl⟩)
    rw [hroute]
    exact .head _

theorem InTransit.deliver {w : World Bytes} {queue : String} {m : Message Bytes}
    {broker : Broker Bytes} (h : w.broker.deliver queue = some (m, broker)) {id : Uuid}
    (ht : InTransit d w id) : d.taskId m = some id ∨ InTransit d { w with broker } id := by
  rcases ht with ⟨q, m', hq, hm', hid⟩ | ht
  · rcases Broker.mem_of_deliver h hm' with ⟨-, rfl⟩ | hm'
    · exact .inl hid
    · exact .inr (.inl ⟨q, m', hq, hm', hid⟩)
  · exact .inr (.inr ht)

section Publish

variable (routes : Routes d.topology) {w : World Bytes} {broker : Broker Bytes} {id : Uuid}
include routes

theorem grows_of_publish {task : NotificationTask} {delayMins : Int}
    (h : publishTask d.topology d.codec w.now task delayMins w.broker = .ok broker) :
    w.Grows { w with broker } ∧ InTransit d { w with broker } task.notificationId := by
  have added : ∀ (m : Message Bytes) (queue : String), queue = dispatchQueue ∨ queue = retryQueue →
      d.codec.fromSlice m.body = .ok task → broker.ready = (w.broker.push m queue).ready →
      w.Grows { w with broker } ∧ InTransit d { w with broker } task.notificationId := by
    intro m queue hqueue hbody hready
    refine ⟨⟨fun q => ?_, fun _ h => h, fun _ h => h⟩, .inl ⟨queue, m, hqueue, ?_, ?_⟩⟩
    · rw [hready]
      exact w.broker.sublist_push m queue q
    · rw [hready]
      exact Broker.mem_push.mpr (.inr ⟨rfl, rfl⟩)
    · simp [Deployment.taskId, hbody]
  obtain ⟨payload, hbody, ⟨-, hready⟩ | ⟨-, hready⟩⟩ := publishTask_eq_ok routes h
  · exact added _ retryQueue (.inr rfl) hbody hready
  · exact added _ dispatchQueue (.inl rfl) hbody hready

theorem TriggerStep.grows {o : Outcome} {w w' : World Bytes} {pc pc' : TriggerPc}
    (h : TriggerStep d id o w pc w' pc') :
    w.Grows w' ∧ (pc' = .finished → InTransit d w' id) := by
  cases h with
  | enter =>
    refine ⟨.of_eq rfl rfl rfl, fun hfin => ?_⟩
    cases hmq : d.mq <;> simp [TriggerPc.afterEnter, hmq] at hfin
  | publish hp => exact ⟨(grows_of_publish routes hp).1, fun _ => (grows_of_publish routes hp).2⟩
  | publishFail hp hf => exact ⟨hf.grows (grows_of_publish routes hp).1, by simp⟩
  | publishUnencoded => exact ⟨.of_eq rfl rfl rfl, by simp⟩
  | spawn =>
    exact ⟨⟨fun _ => .refl _, by simp, fun _ h => h⟩, fun _ => .inr (.inl (by simp))⟩

theorem QueueStep.grows {r : Request} {o : Outcome} {w w' : World Bytes} {pc pc' : QueuePc}
    (h : QueueStep d r o w pc w' pc') : w.Grows w' := by
  cases h with
  | createFail _ hf => exact hf.grows (.of_eq rfl rfl rfl)
  | trigger ht => exact (ht.grows routes).1
  | _ => exact .of_eq rfl rfl rfl

theorem QueueStep.carries {r : Request} {o : Outcome} {w w' : World Bytes} {pc pc' : QueuePc}
    (h : QueueStep d r o w pc w' pc') (hc : pc.Carries id) :
    pc'.Carries id ∨ InTransit d w' id := by
  obtain ⟨hid, hkind⟩ := hc
  cases h with
  | cache => exact .inl ⟨hid, rfl⟩
  | @trigger _ _ _ pc _ pc' ht =>
    obtain rfl : _ = id := by
      cases pc with
      | finished => cases hkind
      | _ => exact Option.some.inj hid
    cases pc' with
    | finished => exact .inr ((ht.grows routes).2 rfl)
    | _ => exact .inl ⟨rfl, rfl⟩
  | _ => simp [QueuePc.kind, OpKind.triggering] at hkind

theorem RecoverStep.grows {o : Outcome} {w w' : World Bytes} {pc pc' : RecoverPc}
    (h : RecoverStep d o w pc w' pc') : w.Grows w' := by
  cases h with
  | resetFail hf => exact hf.grows (.of_eq rfl rfl rfl)
  | trigger ht => exact (ht.grows routes).1
  | triggered ht => exact (ht.grows routes).1
  | _ => exact .of_eq rfl rfl rfl

theorem DispatchStep.grows {o : Outcome} {w w' : World Bytes} {pc pc' : DispatchPc}
    (h : DispatchStep d id o w pc w' pc') : w.Grows w' := by
  cases h with
  | schedule hp => exact (grows_of_publish routes hp).1
  | scheduleFail hp hf => exact hf.grows (grows_of_publish routes hp).1
  | fallback => exact ⟨fun _ => .refl _, fun _ h => h, by simp⟩
  | loadFail hf | markFail hf | giveUpFail hf | succeedFail hf | bumpFail hf | rependFail hf =>
    exact hf.grows (.of_eq rfl rfl rfl)
  | _ => exact .of_eq rfl rfl rfl

end Publish

theorem QueueStep.inserts {r : Request} {o : Outcome} {w w' : World Bytes} {pc pc' : QueuePc}
    (h : QueueStep d r o w pc w' pc') (hcommit : ∀ n, pc = .create n → ∀ e, o = .failAfter e →
      n.idempotencyKey.bind w.table.getByIdempotencyKey ≠ none) :
    ∀ n ∈ w'.table.rows, n ∈ w.table.rows ∨ pc'.Carries n.id := by
  intro row hrow
  cases h with
  | @create _ n saved table hc =>
    rcases create_cases w.table n with ⟨_, existing, -, -, -, heq⟩ | ⟨-, -, t', heq, hrows, -⟩ |
      ⟨-, e, heq⟩
    · rw [heq] at hc
      cases hc
      exact .inl hrow
    · rw [heq] at hc
      cases hc
      rcases List.mem_append.mp (hrows ▸ hrow : row ∈ w.table.rows ++ [insertedRow n]) with h | h
      · exact .inl h
      · rw [List.mem_singleton.mp h]
        cases hkey : n.idempotencyKey <;>
          simp [QueuePc.afterCreate, insertedRow, hkey, QueuePc.Carries, QueuePc.id, QueuePc.kind,
            TriggerPc.kind, OpKind.triggering]
    · rw [heq] at hc
      cases hc
  | @createFail _ _ n saved table e _ hc hf =>
    cases hf with
    | before => exact .inl hrow
    | after =>
      rcases create_cases w.table n with ⟨_, existing, -, -, -, heq⟩ | ⟨hnone, -, -⟩ | ⟨-, e, heq⟩
      · rw [heq] at hc
        cases hc
        exact .inl hrow
      · refine absurd (Option.bind_eq_none_iff.mpr fun key hkey => ?_) (hcommit n rfl e rfl)
        exact getByIdempotencyKey_eq_none.mpr fun m hm => hnone m hm key hkey
      · rw [heq] at hc
        cases hc
  | trigger ht => exact .inl (ht.table_eq ▸ hrow)
  | _ => exact .inl hrow

/-- The row, if there is one, needs no more delivery. -/
def Settled (w : World Bytes) (id : Uuid) : Prop :=
  ∀ n, w.table.getById id = some n → n.status.live = false

theorem settled_updateStatus (w : World Bytes) (id : Uuid) {status : NotificationStatus}
    (h : status.live = false) (error providerRef : Option String) :
    Settled (w.updateStatus id status error providerRef) id := by
  intro n hn
  simp only [World.updateStatus, getById_updateStatus, if_true, Option.map_eq_some_iff] at hn
  obtain ⟨n₀, -, rfl⟩ := hn
  exact h

/-- The calls of a dispatch whose failure ends it with its row as it was. -/
def OpKind.lossy : OpKind → Bool
  | .getById | .updateStatus | .incrementRetry | .encodeView => true
  | _ => false

/-- A dispatch that ends well has settled its row or handed it to a retry; one that
ends badly, without a failure of the repository or the encoding, has settled it. -/
theorem DispatchStep.handsOver (routes : Routes d.topology) {id : Uuid} {o : Outcome}
    {w w' : World Bytes} {pc : DispatchPc} {r : Except NotiError Unit}
    (h : DispatchStep d id o w pc w' (.done r))
    (hr : r = .ok () ∨ ¬ (o.failed ∧ pc.kind.any OpKind.lossy)) :
    Settled w' id ∨ InTransit d w' id := by
  have lost : ∀ {e}, r = .error e → o.failed = true → pc.kind.any OpKind.lossy = true →
      Settled w' id ∨ InTransit d w' id := by
    rintro e rfl hfailed hlossy
    rcases hr with hr | hr
    · cases hr
    · exact absurd ⟨hfailed, hlossy⟩ hr
  generalize hpc' : DispatchPc.done r = pc' at h
  cases h with
  | loadTerminal hn hlive =>
    refine .inl fun n' hn' => ?_
    rw [hn] at hn'
    rw [← Option.some.inj hn', hlive]
  | loadMissing hn =>
    refine .inl fun n' hn' => ?_
    rw [hn] at hn'
    cases hn'
  | loadFail hf | markFail hf | giveUpFail hf | succeedFail hf | bumpFail hf | rependFail hf =>
    cases hpc'
    exact lost rfl hf.failed rfl
  | encodeFail =>
    cases hpc'
    exact lost rfl rfl rfl
  | giveUp => exact .inl (settled_updateStatus w id rfl _ _)
  | succeed => exact .inl (settled_updateStatus w id rfl _ _)
  | schedule hp => exact .inr (grows_of_publish routes hp).2
  | @fallback _ _ ms => exact .inr (.inr (.inr ⟨w.now + ms, by simp⟩))
  | @render _ n content =>
    by_cases hws : n.channel = .webSocket <;> simp [DispatchPc.afterRender, hws] at hpc'
  | repend => cases hmq : d.mq <;> simp [DispatchPc.retryVia, hmq] at hpc'
  | _ => cases hpc'

end NotiService
