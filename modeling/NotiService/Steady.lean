import NotiService.Tended

/-! What every state of the service has, how far each program of a notification can go on,
and what a step does to the queues: they grow at their ends and lose their heads, and what
stands in `noti.retry` will expire. -/

namespace NotiService
open Foundation Orchestrator Amqp RabbitMQ Consumer Service NotificationTable

variable {Bytes : Type} {d : Deployment Bytes}

section Enabled

theorem exec_answers (d : Deployment Bytes) {β : Type} (op : Op β) (hop : op.kind ≠ .newV4)
    (w : World Bytes) : ∃ o, (exec d o op w).isSome := by
  cases op with
  | newV4 => exact absurd rfl hop
  | create n =>
    refine ⟨.ok, ?_⟩
    cases hc : w.table.create n <;> simp [exec, hc, World.answer]
  | publishDispatch id =>
    refine ⟨.ok, ?_⟩
    cases hp : publishDispatch d.topology d.codec w.now id w.broker <;>
      simp [exec, hp, World.answer]
  | publishRetry id ms =>
    refine ⟨.ok, ?_⟩
    cases hp : publishRetry d.topology d.codec w.now id ms w.broker <;>
      simp [exec, hp, World.answer]
  | getPendingForRetry limit => exact ⟨.fail (.database ""), rfl⟩
  | render | encodeView | send => exact ⟨.text "", rfl⟩
  | _ => exact ⟨.ok, rfl⟩

theorem step_enabled (d : Deployment Bytes) {α : Type} {p : Program Op α} {kind : OpKind}
    (h : awaits p = some kind) (hkind : kind ≠ .newV4) (w : World Bytes) :
    ∃ o, (Program.step (exec d o) p w).isSome := by
  cases p with
  | done => cases h
  | call op rest =>
    obtain rfl : op.kind = kind := Option.some.inj h
    obtain ⟨o, ho⟩ := exec_answers d op hkind w
    exact ⟨o, by simpa [Program.step] using ho⟩

theorem DispatchPc.kind_of_result {pc : DispatchPc} (h : pc.result = none) :
    ∃ kind, pc.kind = some kind ∧ kind ≠ .newV4 := by
  cases pc with
  | done => cases h
  | _ => exact ⟨_, rfl, by decide⟩

theorem QueuePc.kind_of_id {pc : QueuePc} {id : Uuid} (h : pc.id = some id) :
    ∃ kind, pc.kind = some kind ∧ kind ≠ .newV4 := by
  cases pc with
  | ident | done => cases h
  | trigger _ pc =>
    cases pc with
    | finished => cases h
    | _ => exact ⟨_, rfl, by decide⟩
  | _ => exact ⟨_, rfl, by decide⟩

theorem RecoverPc.kind_ne_newV4 (pc : RecoverPc) : pc.kind ≠ some .newV4 := by
  cases pc with
  | trigger _ pc => cases pc <;> simp [RecoverPc.kind, TriggerPc.kind]
  | _ => simp [RecoverPc.kind]

end Enabled

theorem inTransit_iff {w : World Bytes} {id : Uuid} : InTransit d w id ↔
    (∃ msg ∈ w.broker.ready dispatchQueue, d.taskId msg = some id) ∨
      (∃ msg ∈ w.broker.ready retryQueue, d.taskId msg = some id) ∨
      id ∈ w.spawned ∨ ∃ wakeAt, (id, wakeAt) ∈ w.sleepers := by
  constructor
  · rintro (⟨queue, msg, rfl | rfl, hmsg⟩ | hrest)
    · exact .inl ⟨msg, hmsg⟩
    · exact .inr (.inl ⟨msg, hmsg⟩)
    · exact .inr (.inr hrest)
  · rintro (⟨msg, hmsg⟩ | ⟨msg, hmsg⟩ | hrest)
    · exact .inl ⟨_, msg, .inl rfl, hmsg⟩
    · exact .inl ⟨_, msg, .inr rfl, hmsg⟩
    · exact .inr hrest

/-- The queues grow at their ends, and what is added to `noti.retry` will expire. -/
def World.Extends (w w' : World Bytes) : Prop :=
  ∀ queue, ∃ added, w'.broker.ready queue = w.broker.ready queue ++ added ∧
    (queue = retryQueue → ∀ msg ∈ added, ∃ e, msg.expiry = some e)

section Extends

variable {w w' : World Bytes} {id : Uuid} {o : Outcome}

theorem World.Extends.of_broker (h : w'.broker = w.broker) : w.Extends w' :=
  fun _ => ⟨[], by rw [h, List.append_nil], fun _ _ hmsg => absurd hmsg List.not_mem_nil⟩

theorem World.Extends.of_failed {e : NotiError} {w₁ : World Bytes} (hf : Failed e w w₁ o w')
    (h : w.Extends w₁) : w.Extends w' := by
  cases hf with
  | before => exact .of_broker rfl
  | after => exact h

variable (routes : Routes d.topology)
include routes

theorem extends_publish {task : NotificationTask} {delayMins : Int} {broker : Broker Bytes}
    (h : publishTask d.topology d.codec w.now task delayMins w.broker = .ok broker) :
    w.Extends { w with broker } := by
  have pushed : ∀ (msg : Message Bytes) (target : String),
      (target = retryQueue → ∃ e, msg.expiry = some e) →
      broker.ready = (w.broker.push msg target).ready → w.Extends { w with broker } := by
    intro msg target hexpiry hready queue
    by_cases hq : queue = target
    · refine ⟨[msg], ?_, fun hretry msg' hmsg' => ?_⟩
      · simp only [hready, hq, Broker.ready_push_self]
      · rw [List.mem_singleton.mp hmsg']
        exact hexpiry (hq ▸ hretry)
    · refine ⟨[], ?_, fun _ _ hmsg => absurd hmsg List.not_mem_nil⟩
      simp only [hready, Broker.ready_push_of_ne w.broker msg hq, List.append_nil]
  obtain ⟨payload, -, ⟨-, hready⟩ | ⟨-, hready⟩⟩ := publishTask_eq_ok routes h
  · exact pushed _ _ (fun _ => ⟨_, rfl⟩) hready
  · exact pushed _ _ (fun h => absurd h (by decide)) hready

theorem TriggerStep.extends {pc pc' : TriggerPc} (h : TriggerStep d id o w pc w' pc') :
    w.Extends w' := by
  cases h with
  | publish hp => exact extends_publish routes hp
  | publishFail hp hf => exact .of_failed hf (extends_publish routes hp)
  | _ => exact .of_broker rfl

theorem QueueStep.extends {r : Request} {pc pc' : QueuePc} (h : QueueStep d r o w pc w' pc') :
    w.Extends w' := by
  cases h with
  | createFail _ hf => exact .of_failed hf (.of_broker rfl)
  | trigger ht => exact ht.extends routes
  | _ => exact .of_broker rfl

theorem RecoverStep.extends {pc pc' : RecoverPc} (h : RecoverStep d o w pc w' pc') :
    w.Extends w' := by
  cases h with
  | resetFail hf => exact .of_failed hf (.of_broker rfl)
  | trigger ht | triggered ht => exact ht.extends routes
  | _ => exact .of_broker rfl

theorem DispatchStep.extends {pc pc' : DispatchPc} (h : DispatchStep d id o w pc w' pc') :
    w.Extends w' := by
  cases h with
  | schedule hp => exact extends_publish routes hp
  | scheduleFail hp hf => exact .of_failed hf (extends_publish routes hp)
  | loadFail hf | markFail hf | giveUpFail hf | succeedFail hf | bumpFail hf | rependFail hf =>
    exact .of_failed hf (.of_broker rfl)
  | _ => exact .of_broker rfl

end Extends

namespace Machine

variable {m m' : Machine Bytes} {l : ServiceLabel} {id : Uuid}

def Expiring (m : Machine Bytes) : Prop :=
  ∀ msg ∈ m.world.broker.ready retryQueue, ∃ e, msg.expiry = some e

theorem Step.queues (hd : d.topology = declaredTopology) (hs : Step d l m m') (hl : Undropped l) :
    (l ≠ .deliver ∧ l ≠ .expire ∧ m.world.Extends m'.world) ∨
      (l = .deliver ∧ (∃ msg, m.world.broker.ready dispatchQueue =
          msg :: m'.world.broker.ready dispatchQueue) ∧
        m'.world.broker.ready retryQueue = m.world.broker.ready retryQueue) ∨
      (l = .expire ∧ (∃ msg, m.world.broker.ready retryQueue =
          msg :: m'.world.broker.ready retryQueue) ∧
        m.world.broker.ready dispatchQueue <+: m'.world.broker.ready dispatchQueue) := by
  have routes : Routes d.topology := hd ▸ routes_declaredTopology
  cases hs with
  | call _ hs => exact .inl ⟨by simp, by simp, hs.extends routes⟩
  | process _ _ hs | task _ hs => exact .inl ⟨by simp, by simp, hs.extends routes⟩
  | sweep hs => exact .inl ⟨by simp, by simp, hs.extends routes⟩
  | settle =>
    rw [hd, settle_declared]
    exact .inl ⟨by simp, by simp, .of_broker rfl⟩
  | takeBack | giveBack | crash => exact hl.elim
  | deliver hdeliver =>
    obtain ⟨rest, hready, rfl⟩ := Broker.deliver_eq_some.mp hdeliver
    exact .inr (.inl ⟨rfl, ⟨_, by simpa using hready⟩, by simp [dispatchQueue, retryQueue]⟩)
  | expire hexpire =>
    obtain ⟨msg, b₁, e, hdeliver, -, -, rfl⟩ := Broker.expireHead_eq_some.mp hexpire
    obtain ⟨rest, hready, rfl⟩ := Broker.deliver_eq_some.mp hdeliver
    have hne : retryQueue ≠ dispatchQueue := by decide
    refine .inr (.inr ⟨rfl, ⟨msg, ?_⟩, ?_⟩) <;>
      simp only [Broker.deadLetter, routes.expired, Broker.pushAll, List.foldl_cons,
        List.foldl_nil, Broker.push, Function.update_self, Function.update_of_ne hne,
        Function.update_of_ne hne.symm, hready, List.prefix_append]
  | _ => exact .inl ⟨by simp, by simp, .of_broker rfl⟩

def Working (d : Deployment Bytes) (m : Machine Bytes) (id : Uuid) : Prop :=
  id ∈ m.world.spawned ∨ (∃ sleeper ∈ m.world.sleepers, sleeper.1 = id ∧ sleeper.2 ≤ m.world.now) ∨
    (∃ c ∈ m.calls, c.2.id = some id) ∨
    (∃ dl ∈ m.deliveries, d.taskId dl.message = some id ∧ dl.pc.result = none) ∨
    ∃ t ∈ m.tasks, t.1 = id ∧ t.2.result = none

theorem Working.enabled (h : m.Working d id) : ∃ l, WorksOn d (m.state d) id l ∧
    ((serviceSystem d).step (m.state d) l).isSome := by
  rcases h with hspawned | ⟨⟨k, t⟩, hsleeping, rfl, hdue⟩ | ⟨c, hc, hid⟩ | ⟨dl, hdl, hid, hnone⟩ |
    ⟨t, ht, hid, hnone⟩
  · obtain ⟨i, hi⟩ := List.mem_iff_getElem?.mp hspawned
    refine ⟨.start i, hi, ?_⟩
    simp [serviceSystem, state, hi]
  · obtain ⟨i, hi⟩ := List.mem_iff_getElem?.mp hsleeping
    refine ⟨.wake i, ⟨t, hi⟩, ?_⟩
    have hdue : t ≤ m.world.now := hdue
    simp [serviceSystem, state, hi, hdue]
  · obtain ⟨i, hi⟩ := List.mem_iff_getElem?.mp hc
    obtain ⟨kind, hkind, hne⟩ := QueuePc.kind_of_id hid
    obtain ⟨o, ho⟩ := step_enabled d ((QueuePc.awaits_prog d.mq c.1 c.2).trans hkind) hne
      (m.state d).world
    refine ⟨.call i o, ⟨_, calls_state hi, hid⟩, ?_⟩
    simpa [serviceSystem, calls_state hi] using ho
  · obtain ⟨i, hi⟩ := List.mem_iff_getElem?.mp hdl
    obtain ⟨kind, hkind, hne⟩ := DispatchPc.kind_of_result hnone
    obtain ⟨o, ho⟩ := step_enabled d ((dl.awaits_prog hid).trans hkind) hne (m.state d).world
    refine ⟨.process i o, ⟨_, deliveries_state hi, hid⟩, ?_⟩
    simpa [serviceSystem, deliveries_state hi] using ho
  · obtain ⟨i, hi⟩ := List.mem_iff_getElem?.mp ht
    obtain ⟨kind, hkind, hne⟩ := DispatchPc.kind_of_result hnone
    obtain ⟨o, ho⟩ := step_enabled d ((DispatchPc.awaits_prog d.mq t.1 t.2).trans hkind) hne
      (m.state d).world
    refine ⟨.task i o, ⟨_, tasks_state hi, hid⟩, ?_⟩
    simpa [serviceSystem, tasks_state hi] using ho

theorem Working.settled {i : Nat} {dl : DeliveryPc Bytes} {disposition : Disposition}
    (h : m.Working d id) (hi : m.deliveries[i]? = some dl)
    (hresult : dl.result d = some disposition) :
    Working d { m with deliveries := m.deliveries.eraseIdx i } id := by
  refine h.imp_right (Or.imp_right (Or.imp_right (Or.imp_left fun hdl => ?_)))
  exact (Slots.exists_mem_eraseIdx hi hdl).resolve_left (dl.finished hresult)

theorem Step.working (hd : d.topology = declaredTopology) (hs : Step d l m m') (hl : Undropped l)
    (h : m.Working d id) (hnot : ¬ WorksOn d (m.state d) id l) : m'.Working d id := by
  have routes : Routes d.topology := hd ▸ routes_declaredTopology
  have kept : ∀ {w : World Bytes}, m.world.spawned ⊆ w.spawned → m.world.sleepers ⊆ w.sleepers →
      m.world.now ≤ w.now → Working d { m with world := w } id := by
    intro w hspawned hsleepers hnow
    refine h.imp (@hspawned id) (Or.imp_left ?_)
    rintro ⟨sleeper, hmem, hid, hdue⟩
    exact ⟨sleeper, hsleepers hmem, hid, Int.le_trans hdue hnow⟩
  have grown : ∀ {w : World Bytes}, m.world.Grows w → w.now = m.world.now →
      Working d { m with world := w } id :=
    fun hg hnow => kept hg.spawned hg.sleepers (Int.le_of_eq hnow.symm)
  cases hs with
  | @tick _ ms =>
    exact kept (fun _ h => h) (fun _ h => h) (Int.le_add_of_nonneg_right (Int.natCast_nonneg ms))
  | request =>
    refine h.imp_right (Or.imp_right (Or.imp_left ?_))
    rintro ⟨c, hc, hid⟩
    exact ⟨c, List.mem_append_left _ hc, hid⟩
  | @call _ i o r pc _ _ hi hs =>
    refine (grown (hs.grows routes) hs.now_eq).imp_right
      (Or.imp_right (Or.imp_left fun hcall => ?_))
    exact (Slots.exists_mem_set hi hcall).resolve_left fun hid => hnot ⟨_, calls_state hi, hid⟩
  | deliver =>
    refine h.imp_right (Or.imp_right (Or.imp_right (Or.imp_left ?_)))
    rintro ⟨dl, hdl, hunfinished⟩
    exact ⟨dl, List.mem_append_left _ hdl, hunfinished⟩
  | @process _ i o dl k _ _ hi hk hs =>
    refine (grown (hs.grows routes) hs.now_eq).imp_right
      (Or.imp_right (Or.imp_right (Or.imp_left fun hdl => ?_)))
    exact (Slots.exists_mem_set hi hdl).resolve_left fun ⟨hid, _⟩ =>
      hnot ⟨_, deliveries_state hi, hid⟩
  | @settle _ i dl disposition hi _ hresult =>
    rw [hd, settle_declared]
    exact h.settled hi hresult
  | settleLoose hi _ hresult => exact h.settled hi hresult
  | takeBack | giveBack | crash => exact hl.elim
  | @start _ i k hi =>
    rcases h with hspawned | hsleeping | hcall | hdl | ⟨t, ht, hid⟩
    · rcases Slots.exists_mem_eraseIdx hi (P := (· = id)) ⟨id, hspawned, rfl⟩ with
        rfl | ⟨_, hk, rfl⟩
      · exact absurd hi hnot
      · exact .inl hk
    · exact .inr (.inl hsleeping)
    · exact .inr (.inr (.inl hcall))
    · exact .inr (.inr (.inr (.inl hdl)))
    · exact .inr (.inr (.inr (.inr ⟨t, List.mem_append_left _ ht, hid⟩)))
  | @wake _ i k wakeAt hi hwake =>
    rcases h with hspawned | hsleeping | hcall | hdl | ⟨t, ht, hid⟩
    · exact .inl hspawned
    · refine .inr (.inl ((Slots.exists_mem_eraseIdx hi hsleeping).resolve_left ?_))
      rintro ⟨rfl, -⟩
      exact hnot ⟨wakeAt, hi⟩
    · exact .inr (.inr (.inl hcall))
    · exact .inr (.inr (.inr (.inl hdl)))
    · exact .inr (.inr (.inr (.inr ⟨t, List.mem_append_left _ ht, hid⟩)))
  | @task _ i o k pc _ _ hi hs =>
    refine (grown (hs.grows routes) hs.now_eq).imp_right
      (Or.imp_right (Or.imp_right (Or.imp_right fun ht => ?_)))
    exact (Slots.exists_mem_set hi ht).resolve_left fun ⟨hid, _⟩ => hnot ⟨_, tasks_state hi, hid⟩
  | sweep hs => exact grown (hs.grows routes) hs.now_eq
  | expire => exact h

theorem Step.sleeping (hd : d.topology = declaredTopology) (hs : Step d l m m') (hl : Undropped l)
    {wakeAt : Int} (h : (id, wakeAt) ∈ m.world.sleepers) (hnot : ¬ WorksOn d (m.state d) id l) :
    (id, wakeAt) ∈ m'.world.sleepers := by
  have routes : Routes d.topology := hd ▸ routes_declaredTopology
  cases hs with
  | call _ hs => exact (hs.grows routes).sleepers h
  | process _ _ hs | task _ hs => exact (hs.grows routes).sleepers h
  | sweep hs => exact (hs.grows routes).sleepers h
  | settle =>
    rw [hd, settle_declared]
    exact h
  | takeBack | giveBack | crash => exact hl.elim
  | @wake _ i k t hi hwake =>
    rcases Slots.exists_mem_eraseIdx hi (P := (· = (id, wakeAt))) ⟨_, h, rfl⟩ with
      heq | ⟨_, hk, rfl⟩
    · exact absurd ⟨t, by rw [← (Prod.mk.inj heq).1]; exact hi⟩ hnot
    · exact hk
  | _ => exact h

theorem Step.now_le (hs : Step d l m m') (hl : Undropped l) : m.world.now ≤ m'.world.now := by
  cases hs with
  | tick => exact Int.le_add_of_nonneg_right (Int.natCast_nonneg _)
  | call _ hs => exact Int.le_of_eq hs.now_eq.symm
  | process _ _ hs | task _ hs => exact Int.le_of_eq hs.now_eq.symm
  | sweep hs => exact Int.le_of_eq hs.now_eq.symm
  | @settle _ _ _ disposition => cases disposition <;> exact Int.le_refl _
  | crash => exact hl.elim
  | _ => exact Int.le_refl _

/-- No row is `Delivered` or `Failed`: the service stores neither. -/
def StatusesUsed (t : NotificationTable) : Prop :=
  ∀ id n, t.getById id = some n → n.status ≠ .delivered ∧ n.status ≠ .failed

theorem StatusesUsed.of_aside {w w' : World Bytes} (h : StatusesUsed w.table)
    (haside : ∀ id, w.Aside w' id) : StatusesUsed w'.table := by
  intro id n' hn'
  cases hn : w.table.getById id with
  | none =>
    obtain ⟨r, t, t', t'', rfl⟩ := (haside id).new hn n' hn'
    exact ⟨nofun, nofun⟩
  | some n =>
    have hused := h id n hn
    obtain ⟨n'', hn'', htouched⟩ := (haside id).kept n hn
    obtain rfl := Option.some.inj (hn'.symm.trans hn'')
    cases htouched with
    | same | read => exact hused
    | reset => exact ⟨nofun, nofun⟩

theorem StatusesUsed.of_dispatch {w w' : World Bytes} (h : StatusesUsed w.table) {k : Uuid}
    {o : Outcome} {pc pc' : DispatchPc} (hs : DispatchStep d k o w pc w' pc') :
    StatusesUsed w'.table := by
  intro id n' hn'
  by_cases hid : id = k
  · subst hid
    rcases hs.row with heq | ⟨f, hf, heq⟩
    · exact h id n' (heq ▸ hn')
    · rw [heq, Option.map_eq_some_iff] at hn'
      obtain ⟨n, hn, rfl⟩ := hn'
      cases pc with
      | mark | giveUp | succeed | repend =>
        cases hf
        exact ⟨nofun, nofun⟩
      | bump =>
        cases hf
        exact h id n hn
      | _ => cases hf
  · exact h id n' (hs.frame hid ▸ hn')

/-- What holds of every state the service reaches. -/
structure Steady (d : Deployment Bytes) (m : Machine Bytes) : Prop where
  normal : m.sweep.Normal
  behind : m.Behind d
  built : ∀ c ∈ m.calls, c.2.Built c.1
  used : StatusesUsed m.world.table
  expiring : m.Expiring

theorem Step.built (hs : Step d l m m') (h : ∀ c ∈ m.calls, c.2.Built c.1) :
    ∀ c ∈ m'.calls, c.2.Built c.1 := by
  cases hs with
  | request =>
    intro c hc
    rcases List.mem_append.mp hc with hc | hc
    · exact h c hc
    · rw [List.mem_singleton.mp hc]
      exact QueuePc.built_ident _
  | call hi hs => exact Slots.forall_mem_set hs.built h
  | crash => simp [Machine.crash]
  | _ => exact h

theorem Step.used (hs : Step d l m m') (hbuilt : ∀ c ∈ m.calls, c.2.Built c.1)
    (h : StatusesUsed m.world.table) : StatusesUsed m'.world.table := by
  cases hs with
  | call hi hs => exact h.of_aside (hs.aside (hbuilt _ (List.mem_of_getElem? hi)))
  | process _ _ hs | task _ hs => exact h.of_dispatch hs
  | sweep hs => exact h.of_aside hs.aside
  | @settle _ _ _ disposition => cases disposition <;> exact h
  | crash => exact (Backoff.foldr_requeue_eq _ _).1.symm ▸ h
  | _ => exact h

theorem ready_requeue (msg : Message Bytes) (w : World Bytes) :
    (requeue msg w).broker.ready retryQueue = w.broker.ready retryQueue := by
  simp [requeue, Broker.requeue, dispatchQueue, retryQueue]

theorem Step.expiring (hd : d.topology = declaredTopology) (hs : Step d l m m')
    (h : m.Expiring) : m'.Expiring := by
  by_cases hl : Undropped l
  · rcases hs.queues hd hl with ⟨-, -, hext⟩ | ⟨-, -, hsame⟩ | ⟨-, ⟨msg, hpop⟩, -⟩
    · obtain ⟨added, hadded, hexpiry⟩ := hext retryQueue
      intro msg hmsg
      rw [hadded] at hmsg
      exact (List.mem_append.mp hmsg).elim (h msg) (hexpiry rfl msg)
    · exact fun msg hmsg => h msg (hsame ▸ hmsg)
    · exact fun msg' hmsg' => h msg' (hpop ▸ List.mem_cons_of_mem msg hmsg')
  · cases hs with
    | takeBack | giveBack => exact fun msg hmsg => h msg (ready_requeue _ _ ▸ hmsg)
    | crash =>
      have same : ∀ (ms : List (Message Bytes)) (w : World Bytes),
          (ms.foldr requeue w).broker.ready retryQueue = w.broker.ready retryQueue := by
        intro ms w
        induction ms with
        | nil => rfl
        | cons m ms ih => exact (ready_requeue ..).trans ih
      intro msg hmsg
      rw [Machine.crash, same] at hmsg
      exact h msg hmsg
    | _ => exact absurd trivial hl

theorem Step.steady (hd : d.topology = declaredTopology) (hs : Step d l m m')
    (h : m.Steady d) : m'.Steady d where
  normal := hs.normal h.normal
  behind := hs.behind h.behind
  built := hs.built h.built
  used := hs.used h.built h.used
  expiring := hs.expiring hd h.expiring

theorem steady_initial {w : World Bytes} (htable : w.table = .empty) (hbroker : w.broker = .empty) :
    Steady d (initial w) where
  normal := trivial
  behind := ⟨by simp [initial], by simp [initial]⟩
  built := by simp [initial]
  used := by
    intro id n hn
    rw [show (initial w).world.table = .empty from htable] at hn
    cases hn
  expiring := by
    intro msg hmsg
    rw [show (initial w).world.broker = .empty from hbroker] at hmsg
    cases hmsg

theorem burdenAt_pos {left : Nat} : 0 < m.burdenAt d left id ↔
    InTransit d m.world id ∨
      (∃ dl ∈ m.deliveries, d.taskId dl.message = some id ∧ dl.pc.result = none) ∨
      (∃ t ∈ m.tasks, t.1 = id ∧ t.2.result = none) ∨ ∃ c ∈ m.calls, c.2.id = some id := by
  have hpc : ∀ pc : DispatchPc, 0 < pc.burden left ↔ pc.result = none := by
    intro pc
    cases pc <;> simp [DispatchPc.burden, DispatchPc.result, loadBurden]
  have hcall : ∀ c : Request × QueuePc, 0 < callBurden left id c ↔ c.2.id = some id := by
    intro c
    by_cases hid : c.2.id = some id
    · simp only [callBurden, hid, if_true, iff_true]
      cases hc : c.2 with
      | ident | done => simp [hc, QueuePc.id] at hid
      | trigger _ pc => cases pc <;> simp_all [QueuePc.id, QueuePc.burden, TriggerPc.burden]
      | _ => simp [QueuePc.burden]
    · simp [callBurden, hid]
  have hdl : ∀ dl : DeliveryPc Bytes, 0 < DeliveryPc.burden d left id dl ↔
      d.taskId dl.message = some id ∧ dl.pc.result = none := by
    intro dl
    by_cases hid : d.taskId dl.message = some id <;> simp [DeliveryPc.burden, hid, hpc]
  have htask : ∀ t : Uuid × DispatchPc,
      0 < taskBurden left id t ↔ t.1 = id ∧ t.2.result = none := by
    intro t
    by_cases hid : t.1 = id <;> simp [taskBurden, hid, hpc]
  have hworld : 0 < m.world.burden d left id ↔ InTransit d m.world id := by
    simp only [World.burden, Nat.add_pos_iff_pos_or_pos, Nat.mul_pos_iff_of_pos_right,
      Nat.succ_pos, List.countP_pos_iff, inTransit_iff, decide_eq_true_eq, or_assoc, Prod.exists,
      exists_eq_right]
    refine or_congr_right (or_congr_right (or_congr_right ⟨?_, ?_⟩))
    · rintro ⟨_, wakeAt, hmem, rfl⟩
      exact ⟨wakeAt, hmem⟩
    · rintro ⟨wakeAt, hmem⟩
      exact ⟨id, wakeAt, hmem, rfl⟩
  simp only [burdenAt, Nat.add_pos_iff_pos_or_pos, List.sum_pos_iff_exists_pos_nat, List.mem_map,
    exists_exists_and_eq_and, hworld, hcall, hdl, htask, or_assoc]

theorem Step.sweep_cases (hs : Step d l m m') (hl : Undropped l) :
    (∃ o, l = .sweep o ∧ RecoverStep d o m.world m.sweep m'.world m'.sweep) ∨
      (∀ o, l ≠ .sweep o) ∧ m'.sweep = m.sweep := by
  cases hs with
  | sweep hs => exact .inl ⟨_, rfl, hs⟩
  | crash => exact hl.elim
  | _ => exact .inr ⟨by simp, rfl⟩

theorem Tended.burden_pos (h : m.Tended d id) (hnormal : m.sweep.Normal)
    (hsweep : m.sweep.kind = none) : 0 < m.burden d id := by
  refine burdenAt_pos.mpr ?_
  rcases h with ht | htodo | ⟨c, hc, hid, -⟩ | hdl | htask
  · exact .inl ht
  · cases hpc : m.sweep with
    | trigger id pc rest count =>
      rw [hpc] at hsweep hnormal
      cases pc with
      | finished => exact hnormal.elim
      | _ => cases hsweep
    | _ =>
      rw [hpc] at htodo
      cases htodo
  · exact .inr (.inr (.inr ⟨c, hc, hid⟩))
  · exact .inr (.inl hdl)
  · exact .inr (.inr (.inl htask))

theorem Step.status (hs : Step d l m m') (hl : Undropped l) (hsteady : m.Steady d)
    (hsweep : m.sweep.kind = none) (hnot : ¬ WorksOn d (m.state d) id l)
    {n : Notification} (hn : m.world.table.getById id = some n) (hdead : n.status.live = false) :
    ∃ n', m'.world.table.getById id = some n' ∧ n'.status = n.status := by
  cases hs with
  | call hi hs =>
    obtain ⟨n', hn', htouched⟩ :=
      (hs.aside (hsteady.built _ (List.mem_of_getElem? hi)) id).kept n hn
    refine ⟨n', hn', ?_⟩
    cases htouched with
    | same | read => rfl
    | reset hprocessing =>
      rw [hprocessing] at hdead
      cases hdead
  | @process _ i o dl k _ _ hi hk hs =>
    refine ⟨n, (hs.frame ?_).trans hn, rfl⟩
    rintro rfl
    exact hnot ⟨_, deliveries_state hi, hk⟩
  | @task _ i o k pc _ _ hi hs =>
    refine ⟨n, (hs.frame ?_).trans hn, rfl⟩
    rintro rfl
    exact hnot ⟨_, tasks_state hi, rfl⟩
  | sweep hs => exact absurd hsweep hs.awaits
  | @settle _ _ _ disposition => cases disposition <;> exact ⟨n, hn, rfl⟩
  | crash => exact hl.elim
  | _ => exact ⟨n, hn, rfl⟩

end Machine

end NotiService
