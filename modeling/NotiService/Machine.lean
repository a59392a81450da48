import NotiService.Service
import Mathlib.Data.List.InsertIdx

/-! The service with its programs replaced by the points they stand at. `Machine.Step`
lists its transitions; `serviceSystem` is simulated by them, so what they keep, every
run of the programs keeps. -/

namespace NotiService
open Foundation Orchestrator Amqp Service Consumer

variable {Bytes : Type}

def Deployment.taskId (d : Deployment Bytes) (m : Message Bytes) : Option Uuid :=
  match d.codec.fromSlice m.body with
  | .ok task => some task.notificationId
  | .error _ => none

structure DeliveryPc (Bytes : Type) where
  message : Message Bytes
  held : Bool
  pc : DispatchPc

structure Machine (Bytes : Type) where
  world : World Bytes
  calls : List (Request × QueuePc)
  deliveries : List (DeliveryPc Bytes)
  tasks : List (Uuid × DispatchPc)
  sweep : RecoverPc

def QueuePc.id : QueuePc → Option Uuid
  | .ident | .done _ | .trigger _ .finished => none
  | .clock id | .clock₂ id _ | .clock₃ id _ _ | .cache id _ | .trigger id _ => some id
  | .create n => some n.id

def RecoverPc.todo : RecoverPc → List Uuid
  | .trigger _ .finished rest _ => rest.map Notification.id
  | .trigger id _ rest _ => id :: rest.map Notification.id
  | _ => []

def DeliveryPc.result (d : Deployment Bytes) (dl : DeliveryPc Bytes) : Option Disposition :=
  match d.taskId dl.message with
  | none => some .ack
  | some _ => dl.pc.result.map disposition

def DeliveryPc.prog (d : Deployment Bytes) (dl : DeliveryPc Bytes) : Program Op Disposition :=
  match d.taskId dl.message with
  | none => .done .ack
  | some id => (dl.pc.prog d.mq id).map disposition

namespace Machine

def initial (w : World Bytes) : Machine Bytes :=
  ⟨w, [], [], [], .reset stuckProcessingSecs recoveryBatch⟩

def state (d : Deployment Bytes) (m : Machine Bytes) : ServiceState Bytes where
  world := m.world
  calls := m.calls.map fun c => ⟨c.2.id, c.2.prog d.mq c.1⟩
  deliveries := m.deliveries.map fun dl => ⟨dl.message, dl.held, dl.prog d⟩
  tasks := m.tasks.map fun t => ⟨t.1, t.2.prog d.mq t.1⟩
  sweep := ⟨m.sweep.todo, m.sweep.prog d.mq⟩

def crash (m : Machine Bytes) : Machine Bytes where
  world := ((m.deliveries.filter DeliveryPc.held).map DeliveryPc.message).foldr requeue
    { m.world with spawned := [], sleepers := [] }
  calls := []
  deliveries := []
  tasks := []
  sweep := .reset stuckProcessingSecs recoveryBatch

inductive Step (d : Deployment Bytes) : ServiceLabel → Machine Bytes → Machine Bytes → Prop where
  | tick {m ms} : Step d (.tick ms) m { m with world := m.world.tick ms }
  | request {m r} : Step d (.request r) m { m with calls := m.calls ++ [(r, .ident)] }
  | call {m i o r pc w pc'} : m.calls[i]? = some (r, pc) → QueueStep d r o m.world pc w pc' →
      Step d (.call i o) m { m with world := w, calls := m.calls.set i (r, pc') }
  | deliver {m msg broker} :
      m.world.broker.deliver RabbitMQ.dispatchQueue = some (msg, broker) →
      Step d .deliver m { m with
        world := { m.world with broker }
        deliveries := m.deliveries ++ [⟨msg, true, .load⟩] }
  | process {m i o dl id w pc'} : m.deliveries[i]? = some dl → d.taskId dl.message = some id →
      DispatchStep d id o m.world dl.pc w pc' →
      Step d (.process i o) m { m with
        world := w
        deliveries := m.deliveries.set i { dl with pc := pc' } }
  | settle {m i dl disposition} : m.deliveries[i]? = some dl → dl.held →
      dl.result d = some disposition → Step d (.settle i) m { m with
        world := settle d.topology dl.message disposition m.world
        deliveries := m.deliveries.eraseIdx i }
  | settleLoose {m i dl disposition} : m.deliveries[i]? = some dl → dl.held = false →
      dl.result d = some disposition →
      Step d (.settle i) m { m with deliveries := m.deliveries.eraseIdx i }
  | takeBack {m i dl} : m.deliveries[i]? = some dl → dl.held →
      Step d (.takeBack i true) m { m with
        world := requeue dl.message m.world
        deliveries := m.deliveries.set i { dl with held := false } }
  | giveBack {m i dl} : m.deliveries[i]? = some dl → dl.held → dl.pc = .load →
      Step d (.takeBack i false) m { m with
        world := requeue dl.message m.world
        deliveries := m.deliveries.eraseIdx i }
  | expire {m broker} :
      m.world.broker.expireHead d.topology RabbitMQ.retryQueue m.world.now = some broker →
      Step d .expire m { m with world := { m.world with broker } }
  | start {m i id} : m.world.spawned[i]? = some id → Step d (.start i) m { m with
        world := { m.world with spawned := m.world.spawned.eraseIdx i }
        tasks := m.tasks ++ [(id, .load)] }
  | wake {m i id wakeAt} : m.world.sleepers[i]? = some (id, wakeAt) → wakeAt ≤ m.world.now →
      Step d (.wake i) m { m with
        world := { m.world with sleepers := m.world.sleepers.eraseIdx i }
        tasks := m.tasks ++ [(id, .load)] }
  | task {m i o id pc w pc'} : m.tasks[i]? = some (id, pc) → DispatchStep d id o m.world pc w pc' →
      Step d (.task i o) m { m with world := w, tasks := m.tasks.set i (id, pc') }
  | sweep {m o w pc'} : RecoverStep d o m.world m.sweep w pc' →
      Step d (.sweep o) m { m with world := w, sweep := pc' }
  | crash {m} : Step d .crash m m.crash

theorem Step.normal {d : Deployment Bytes} {l : ServiceLabel} {m m' : Machine Bytes}
    (h : Step d l m m') (hm : m.sweep.Normal) : m'.sweep.Normal := by
  cases h with
  | sweep hs => exact hs.normal
  | crash => trivial
  | _ => exact hm

end Machine

section Simulation

variable {d : Deployment Bytes} {o : Outcome} {w w' : World Bytes}

theorem QueueStep.advance {r : Request} {pc pc' : QueuePc} (h : QueueStep d r o w pc w' pc') :
    Call.advance o (pc'.prog d.mq r) ⟨pc.id, pc.prog d.mq r⟩ = ⟨pc'.id, pc'.prog d.mq r⟩ := by
  unfold Call.advance
  rw [QueuePc.isDone_prog, QueuePc.awaits_prog]
  cases h with
  | @create _ n row =>
    by_cases hid : row.id = n.id
    · cases hkey : n.idempotencyKey <;>
        simp [QueuePc.afterCreate, hid, hkey, QueuePc.kind, TriggerPc.kind, QueuePc.id]
    · simp [QueuePc.afterCreate_other hid, QueuePc.kind, QueuePc.id]
  | @trigger _ _ id pc _ pc' ht =>
    cases ht with
    | enter => cases hmq : d.mq <;> simp [TriggerPc.afterEnter, QueuePc.kind, TriggerPc.kind,
        QueuePc.id]
    | _ => simp [QueuePc.kind, TriggerPc.kind, QueuePc.id]
  | _ => simp [QueuePc.kind, QueuePc.id, TriggerPc.kind, Request.notification]

theorem RecoverPc.todo_loop (count : Nat) (due : List Notification) :
    (RecoverPc.loop count due).todo = due.map Notification.id := by
  cases due <;> rfl

theorem RecoverPc.todo_trigger {id : Uuid} {pc : TriggerPc} {rest : List Notification} {count : Nat}
    (h : pc ≠ .finished) :
    (RecoverPc.trigger id pc rest count).todo = id :: rest.map Notification.id := by
  cases pc with
  | finished => exact absurd rfl h
  | _ => rfl

theorem RecoverPc.kind_loop (count : Nat) (due : List Notification) :
    (RecoverPc.loop count due).kind ≠ some .spawnDispatch := by
  cases due <;> simp [RecoverPc.loop, RecoverPc.kind, TriggerPc.kind]

theorem RecoverStep.advance {pc pc' : RecoverPc} (hpc : pc.Normal)
    (h : RecoverStep d o w pc w' pc') :
    Sweep.advance o (pc'.prog d.mq) ⟨pc.todo, pc.prog d.mq⟩ = ⟨pc'.todo, pc'.prog d.mq⟩ := by
  unfold Sweep.advance
  rw [RecoverPc.awaits_prog d.mq hpc, RecoverPc.awaits_prog d.mq h.normal]
  cases h with
  | reset | resetFail | selectFail => rfl
  | select hdue =>
    simp [RecoverPc.kind, RecoverPc.todo_loop,
      (NotificationTable.getPendingForRetry_eq_some hdue).1]
  | trigger ht hne =>
    cases ht with
    | enter => cases d.mq <;> rfl
    | publishFail | publishUnencoded => rfl
    | _ => exact absurd rfl hne
  | @triggered _ _ id _ rest count _ ht =>
    have hnext : (if (RecoverPc.loop count rest).kind = some .spawnDispatch
        then id :: rest.map Notification.id else rest.map Notification.id) =
          (RecoverPc.loop count rest).todo := by
      rw [if_neg (RecoverPc.kind_loop count rest), RecoverPc.todo_loop]
    obtain rfl | rfl := ht.of_finished <;> exact congrArg (Sweep.mk · _) hnext

theorem DeliveryPc.result_prog (dl : DeliveryPc Bytes) : (dl.prog d).result = dl.result d := by
  unfold DeliveryPc.prog DeliveryPc.result
  cases d.taskId dl.message with
  | none => rfl
  | some id => simp [DispatchPc.result_prog]

theorem processDispatchPayload_eq (msg : Message Bytes) (held : Bool) :
    processDispatchPayload d.codec d.mq msg.body = (DeliveryPc.mk msg held .load).prog d := by
  unfold processDispatchPayload DeliveryPc.prog Deployment.taskId
  cases d.codec.fromSlice msg.body <;> rfl

theorem DeliveryPc.step_prog (dl : DeliveryPc Bytes) {p : Program Op Disposition}
    (h : Program.step (exec d o) (dl.prog d) w = some (p, w')) :
    ∃ id pc', d.taskId dl.message = some id ∧ p = (pc'.prog d.mq id).map disposition ∧
      DispatchStep d id o w dl.pc w' pc' := by
  unfold DeliveryPc.prog at h
  cases hid : d.taskId dl.message with
  | none =>
    rw [hid] at h
    cases h
  | some id =>
    rw [hid, Program.step_map] at h
    obtain ⟨⟨p', w₁⟩, hstep, heq⟩ := Option.map_eq_some_iff.mp h
    cases heq
    obtain ⟨pc', rfl, hs⟩ := dispatchStep_of_step hstep
    exact ⟨id, pc', rfl, rfl, hs⟩

theorem DeliveryPc.awaits_prog (dl : DeliveryPc Bytes) {id : Uuid}
    (hid : d.taskId dl.message = some id) : awaits (dl.prog d) = dl.pc.kind := by
  rw [DeliveryPc.prog, hid, awaits, Program.peek_map]
  exact DispatchPc.awaits_prog d.mq id dl.pc

theorem DeliveryPc.load_of_awaits (dl : DeliveryPc Bytes)
    (h : awaits (dl.prog d) = some .getById) : dl.pc = .load := by
  cases hid : d.taskId dl.message with
  | none =>
    rw [DeliveryPc.prog, hid] at h
    cases h
  | some id =>
    rw [dl.awaits_prog hid] at h
    cases hpc : dl.pc <;> simp [hpc, DispatchPc.kind] at h
    rfl

namespace Machine

theorem calls_state {m : Machine Bytes} {i : Nat} {c : Request × QueuePc}
    (h : m.calls[i]? = some c) : (m.state d).calls[i]? = some ⟨c.2.id, c.2.prog d.mq c.1⟩ := by
  simp [state, h]

theorem deliveries_state {m : Machine Bytes} {i : Nat} {dl : DeliveryPc Bytes}
    (h : m.deliveries[i]? = some dl) :
    (m.state d).deliveries[i]? = some ⟨dl.message, dl.held, dl.prog d⟩ := by
  simp [state, h]

theorem tasks_state {m : Machine Bytes} {i : Nat} {t : Uuid × DispatchPc}
    (h : m.tasks[i]? = some t) : (m.state d).tasks[i]? = some ⟨t.1, t.2.prog d.mq t.1⟩ := by
  simp [state, h]

theorem step_sim {m : Machine Bytes} {l : ServiceLabel} {s : ServiceState Bytes}
    (hm : m.sweep.Normal) (h : (serviceSystem d).step (m.state d) l = some s) :
    ∃ m', Step d l m m' ∧ s = m'.state d ∧ m'.sweep.Normal := by
  cases l with
  | tick ms =>
    cases h
    exact ⟨_, .tick, rfl, hm⟩
  | request r =>
    cases h
    refine ⟨_, .request, ?_, hm⟩
    simp [state, QueuePc.prog, QueuePc.id]
  | call i o =>
    obtain ⟨c, hc, h⟩ := Option.bind_eq_some_iff.mp h
    obtain ⟨⟨p, w⟩, hstep, rfl⟩ := Option.map_eq_some_iff.mp h
    obtain ⟨⟨r, pc⟩, hi, rfl⟩ := Option.map_eq_some_iff.mp ((List.getElem?_map ..).symm.trans hc)
    obtain ⟨pc', rfl, hs⟩ := queueStep_of_step hstep
    refine ⟨_, .call hi hs, ?_, hm⟩
    simp [state, List.map_set, hs.advance]
  | deliver =>
    obtain ⟨⟨msg, b⟩, hd, rfl⟩ := Option.map_eq_some_iff.mp h
    refine ⟨_, .deliver hd, ?_, hm⟩
    simpa [state] using processDispatchPayload_eq msg true
  | process i o =>
    obtain ⟨_, hdl, h⟩ := Option.bind_eq_some_iff.mp h
    obtain ⟨⟨p, w⟩, hstep, rfl⟩ := Option.map_eq_some_iff.mp h
    obtain ⟨dl, hi, rfl⟩ := Option.map_eq_some_iff.mp ((List.getElem?_map ..).symm.trans hdl)
    obtain ⟨id, pc', hid, rfl, hs⟩ := dl.step_prog hstep
    refine ⟨_, .process hi hid hs, ?_, hm⟩
    simp [state, List.map_set, DeliveryPc.prog, hid]
  | settle i =>
    obtain ⟨_, hdl, h⟩ := Option.bind_eq_some_iff.mp h
    obtain ⟨disp, hdisp, rfl⟩ := Option.map_eq_some_iff.mp h
    obtain ⟨dl, hi, rfl⟩ := Option.map_eq_some_iff.mp ((List.getElem?_map ..).symm.trans hdl)
    rw [DeliveryPc.result_prog] at hdisp
    cases hheld : dl.held with
    | true =>
      refine ⟨_, .settle hi hheld hdisp, ?_, hm⟩
      simp [state, List.eraseIdx_map]
    | false =>
      refine ⟨_, .settleLoose hi hheld hdisp, ?_, hm⟩
      simp [state, List.eraseIdx_map]
  | takeBack i running =>
    obtain ⟨_, hdl, h⟩ := Option.bind_eq_some_iff.mp h
    obtain ⟨⟨hheld, hrun⟩, h⟩ := Option.ite_none_right_eq_some.mp h
    obtain ⟨dl, hi, rfl⟩ := Option.map_eq_some_iff.mp ((List.getElem?_map ..).symm.trans hdl)
    cases h
    cases running with
    | true =>
      refine ⟨_, .takeBack hi hheld, ?_, hm⟩
      simp [state, List.map_set, DeliveryPc.prog]
    | false =>
      refine ⟨_, .giveBack hi hheld (dl.load_of_awaits (by simpa using hrun)), ?_, hm⟩
      simp [state, List.eraseIdx_map]
  | expire =>
    obtain ⟨b, hb, rfl⟩ := Option.map_eq_some_iff.mp h
    exact ⟨_, .expire hb, rfl, hm⟩
  | start i =>
    obtain ⟨id, hi, rfl⟩ := Option.map_eq_some_iff.mp h
    refine ⟨_, .start hi, ?_, hm⟩
    simp [state, DispatchPc.prog]
  | wake i =>
    obtain ⟨⟨id, t⟩, hi, h⟩ := Option.bind_eq_some_iff.mp h
    obtain ⟨ht, h⟩ := Option.ite_none_right_eq_some.mp h
    cases h
    refine ⟨_, .wake hi ht, ?_, hm⟩
    simp [state, DispatchPc.prog]
  | task i o =>
    obtain ⟨t, ht, h⟩ := Option.bind_eq_some_iff.mp h
    obtain ⟨⟨p, w⟩, hstep, rfl⟩ := Option.map_eq_some_iff.mp h
    obtain ⟨⟨id, pc⟩, hi, rfl⟩ := Option.map_eq_some_iff.mp ((List.getElem?_map ..).symm.trans ht)
    obtain ⟨pc', rfl, hs⟩ := dispatchStep_of_step hstep
    refine ⟨_, .task hi hs, ?_, hm⟩
    simp [state, List.map_set]
  | sweep o =>
    obtain ⟨⟨p, w⟩, hstep, rfl⟩ := Option.map_eq_some_iff.mp h
    obtain ⟨pc', rfl, hs⟩ := recoverStep_of_step hm hstep
    refine ⟨_, .sweep hs, ?_, hs.normal⟩
    simp [state, hs.advance hm]
  | crash =>
    cases h
    refine ⟨_, .crash, ?_, trivial⟩
    simp [state, Machine.crash, Service.crash, List.filter_map, Function.comp_def]
    rfl

/-- What the machine keeps on the permitted steps holds of every state the service
reaches by them. -/
theorem invariant {ok : ServiceState Bytes → ServiceLabel → Prop} {I : Machine Bytes → Prop}
    (hinit : ∀ w, w.table = .empty → w.broker = .empty → w.spawned = [] → w.sleepers = [] →
      I (initial w))
    (hstep : ∀ m l m', I m → ok (m.state d) l → Step d l m m' → I m')
    {s : ServiceState Bytes} (h : (serviceSystem d).Reachable ok s) :
    ∃ m, s = m.state d ∧ m.sweep.Normal ∧ I m := by
  refine h.invariant (P := fun s => ∃ m, s = m.state d ∧ m.sweep.Normal ∧ I m) ?_ ?_
  · rintro ⟨w, calls, deliveries, tasks, sweep⟩
      ⟨htable, hbroker, hspawned, hsleepers, rfl, rfl, rfl, rfl⟩
    exact ⟨initial w, rfl, trivial, hinit w htable hbroker hspawned hsleepers⟩
  · rintro s l t ⟨m, rfl, hnormal, hI⟩ hok hs
    obtain ⟨m', hstep', rfl, hnormal'⟩ := step_sim hnormal hs
    exact ⟨m', rfl, hnormal', hstep m l m' hI hok hstep'⟩

end Machine

end Simulation

end NotiService
