import NotiService.Carriers
import NotiService.RetryQueue

/-! Backoff: a row that has been retried is not sent more than 5 seconds before its
retry time. Everything that will dispatch a row is scheduled, at once or for a time;
each is early enough only while no other retry of the row is recorded, so a recorded
retry must be the only thing left that dispatches its row. -/

namespace NotiService
open Foundation Orchestrator Amqp RabbitMQ Consumer Service NotificationTable

variable {Bytes : Type}

/-- Sent at `t`, or else now, the row would not be early. -/
def World.ReadyBy (w : World Bytes) (id : Uuid) (t : Option Int) : Prop :=
  ∀ n, w.table.getById id = some n → 0 < n.retryCount →
    n.nextRetryAt ≤ max (t.getD w.now) w.now + skewTolerance

/-- At the broker or in process, a dispatch of `id` waits for the time, or for nothing. -/
inductive Scheduled (d : Deployment Bytes) (w : World Bytes) (id : Uuid) : Option Int → Prop where
  | queued {m} : m ∈ w.broker.ready dispatchQueue → d.taskId m = some id → Scheduled d w id none
  | retrying {m e} : m ∈ w.broker.ready retryQueue → d.taskId m = some id → m.expiry = some e →
      Scheduled d w id (some e)
  | spawned : id ∈ w.spawned → Scheduled d w id none
  | sleeping {t} : (id, t) ∈ w.sleepers → Scheduled d w id (some t)

def Outstanding (d : Deployment Bytes) (s : ServiceState Bytes) (id : Uuid) : Prop :=
  (∃ t, Scheduled d s.world id t) ∨ id ∈ s.sweep.todo ∨ (∃ c ∈ s.calls, c.id = some id) ∨
    (∃ dl ∈ s.deliveries, d.taskId dl.message = some id ∧ dl.prog.result = none) ∨
    ∃ t ∈ s.tasks, t.id = id ∧ t.prog.result = none

/-- A retry is recorded when nothing else will dispatch its row, and the broker takes no
delivery back whose row waits for its retry. -/
def Undisturbed (d : Deployment Bytes) (s : ServiceState Bytes) : ServiceLabel → Prop
  | .process i o => ∀ dl id, s.deliveries[i]? = some dl → d.taskId dl.message = some id →
      RecordsRetry dl.prog o →
      ¬ Outstanding d { s with deliveries := s.deliveries.eraseIdx i } id
  | .task i o => ∀ t, s.tasks[i]? = some t → RecordsRetry t.prog o →
      ¬ Outstanding d { s with tasks := s.tasks.eraseIdx i } t.id
  | .takeBack i _ => ∀ dl id, s.deliveries[i]? = some dl → d.taskId dl.message = some id →
      s.world.ReadyBy id none
  | .crash => ∀ dl ∈ s.deliveries, dl.held → ∀ id, d.taskId dl.message = some id →
      s.world.ReadyBy id none
  | _ => True

def SendsRow (d : Deployment Bytes) (s : ServiceState Bytes) (id : Uuid) : ServiceLabel → Prop
  | .process i _ => ∃ dl, s.deliveries[i]? = some dl ∧ d.taskId dl.message = some id ∧
      awaits dl.prog = some .send
  | .task i _ => ∃ t, s.tasks[i]? = some t ∧ t.id = id ∧ awaits t.prog = some .send
  | _ => False

def KeepsBackoff (d : Deployment Bytes) (s : ServiceState Bytes) : Prop :=
  ∀ l id, SendsRow d s id l → ∀ n, s.world.table.getById id = some n → 0 < n.retryCount →
    n.nextRetryAt - 5000 ≤ s.world.now

def Begun {α : Type} (p : Program Op α) : Prop := p.result = none ∧ awaits p ≠ some .getById

def OneAtATime (s : ServiceState Bytes) : ServiceLabel → Prop
  | .process i _ => (∀ dl ∈ s.deliveries.eraseIdx i, ¬ Begun dl.prog) ∧
      ∀ t ∈ s.tasks, ¬ Begun t.prog
  | .task i _ => (∀ dl ∈ s.deliveries, ¬ Begun dl.prog) ∧
      ∀ t ∈ s.tasks.eraseIdx i, ¬ Begun t.prog
  | _ => True

namespace World.ReadyBy

variable {w w' : World Bytes} {id : Uuid} {t : Option Int}

theorem step (h : w.ReadyBy id t) (hno : w.NoRetry w' id) (hnow : w.now ≤ w'.now) :
    w'.ReadyBy id t := by
  intro n' hn' hpos
  cases hn : w.table.getById id with
  | none =>
    have := hno.new hn n' hn'
    omega
  | some n =>
    obtain ⟨n₁, hn₁, hcount, htime⟩ := hno.kept n hn
    obtain rfl := Option.some.inj (hn₁.symm.trans hn')
    have := h n hn (by omega)
    cases t <;> simp only [Option.getD] at this ⊢ <;> unfold skewTolerance at * <;> omega

theorem later (h : w.ReadyBy id none) (t : Option Int) : w.ReadyBy id t := by
  intro n hn hpos
  have := h n hn hpos
  simp only [Option.getD_none] at this
  omega

theorem mono {t t' : Int} (h : w.ReadyBy id (some t)) (ht : t ≤ t') : w.ReadyBy id (some t') := by
  intro n hn hpos
  have := h n hn hpos
  simp only [Option.getD_some] at this ⊢
  omega

theorem now {t : Int} (h : w.ReadyBy id (some t)) (ht : t ≤ w.now) : w.ReadyBy id none := by
  intro n hn hpos
  have := h n hn hpos
  simp only [Option.getD_some, Option.getD_none] at this ⊢
  omega

end World.ReadyBy

section Scheduled

variable {d : Deployment Bytes} {w w' : World Bytes} {id k : Uuid} {t : Option Int}

theorem Scheduled.mono (h : Scheduled d w id t) (hg : w.Grows w') : Scheduled d w' id t := by
  cases h with
  | queued hm hid => exact .queued ((hg.ready _).subset hm) hid
  | retrying hm hid he => exact .retrying ((hg.ready _).subset hm) hid he
  | spawned h => exact .spawned (hg.spawned h)
  | sleeping h => exact .sleeping (hg.sleepers h)

theorem Scheduled.of_push {m : Message Bytes} {queue : String} {broker : Broker Bytes}
    (hready : broker.ready = (w.broker.push m queue).ready)
    (h : Scheduled d { w with broker } k t) :
    Scheduled d w k t ∨ (d.taskId m = some k ∧ ((queue = dispatchQueue ∧ t = none) ∨
      (queue = retryQueue ∧ m.expiry = t))) := by
  cases h with
  | queued hm hid =>
    rw [hready] at hm
    rcases Broker.mem_push.mp hm with hm | ⟨hq, rfl⟩
    · exact .inl (.queued hm hid)
    · exact .inr ⟨hid, .inl ⟨hq.symm, rfl⟩⟩
  | retrying hm hid he =>
    rw [hready] at hm
    rcases Broker.mem_push.mp hm with hm | ⟨hq, rfl⟩
    · exact .inl (.retrying hm hid he)
    · exact .inr ⟨hid, .inr ⟨hq.symm, he⟩⟩
  | spawned h => exact .inl (.spawned h)
  | sleeping h => exact .inl (.sleeping h)

theorem Scheduled.of_requeue {m : Message Bytes} (h : Scheduled d (requeue m w) k t) :
    Scheduled d w k t ∨ (d.taskId m = some k ∧ t = none) := by
  cases h with
  | queued hm hid =>
    rcases Broker.mem_requeue.mp hm with ⟨-, rfl⟩ | hm
    · exact .inr ⟨hid, rfl⟩
    · exact .inl (.queued hm hid)
  | retrying hm hid he =>
    rcases Broker.mem_requeue.mp hm with ⟨hq, -⟩ | hm
    · exact absurd hq (by decide)
    · exact .inl (.retrying hm hid he)
  | spawned h => exact .inl (.spawned h)
  | sleeping h => exact .inl (.sleeping h)

variable (routes : Routes d.topology)
include routes

theorem TriggerStep.scheduled {o : Outcome} {pc pc' : TriggerPc}
    (hs : TriggerStep d id o w pc w' pc') (h : Scheduled d w' k t) :
    Scheduled d w k t ∨ (k = id ∧ t = none) := by
  have published : ∀ {broker}, publishDispatch d.topology d.codec w.now id w.broker = .ok broker →
      Scheduled d { w with broker } k t → Scheduled d w k t ∨ (k = id ∧ t = none) := by
    intro broker hp h
    obtain ⟨payload, hbody, ⟨hpos, -⟩ | ⟨-, hready⟩⟩ := publishTask_eq_ok routes hp
    · omega
    · refine (h.of_push hready).imp_right ?_
      rintro ⟨hid, ⟨-, ht⟩ | ⟨hq, -⟩⟩
      · simp only [Deployment.taskId, hbody, Option.some.injEq] at hid
        exact ⟨hid.symm, ht⟩
      · exact absurd hq (by decide)
  cases hs with
  | enter => exact .inl (h.mono (.of_eq rfl rfl rfl))
  | publish hp => exact published hp h
  | publishFail hp hf =>
    cases hf with
    | before => exact .inl h
    | after => exact published hp h
  | publishUnencoded => exact .inl h
  | spawn =>
    cases h with
    | spawned h =>
      rcases List.mem_append.mp h with h | h
      · exact .inl (.spawned h)
      · exact .inr ⟨List.mem_singleton.mp h, rfl⟩
    | queued hm hid => exact .inl (.queued hm hid)
    | retrying hm hid he => exact .inl (.retrying hm hid he)
    | sleeping h => exact .inl (.sleeping h)

theorem QueueStep.scheduled {r : Request} {o : Outcome} {pc pc' : QueuePc}
    (hs : QueueStep d r o w pc w' pc') (h : Scheduled d w' k t) :
    Scheduled d w k t ∨ (pc.id = some k ∧ t = none) := by
  cases hs with
  | createFail _ hf => cases hf <;> exact .inl (h.mono (.of_eq rfl rfl rfl))
  | @trigger _ _ id pc _ _ ht =>
    have hpc : QueuePc.id (.trigger id pc) = some id := by cases ht <;> rfl
    refine (ht.scheduled routes h).imp_right ?_
    rintro ⟨rfl, rfl⟩
    exact ⟨hpc, rfl⟩
  | _ => exact .inl (h.mono (.of_eq rfl rfl rfl))

theorem RecoverStep.scheduled {o : Outcome} {pc pc' : RecoverPc}
    (hs : RecoverStep d o w pc w' pc') (h : Scheduled d w' k t) :
    Scheduled d w k t ∨ (k ∈ pc.todo ∧ t = none) := by
  have triggered : ∀ {id pc rest count w' pc'}, TriggerStep d id o w pc w' pc' →
      Scheduled d w' k t → Scheduled d w k t ∨
        (k ∈ (RecoverPc.trigger id pc rest count).todo ∧ t = none) := by
    intro id pc rest count w' pc' ht h
    refine (ht.scheduled routes h).imp_right ?_
    rintro ⟨rfl, rfl⟩
    refine ⟨?_, rfl⟩
    cases ht <;> exact .head _
  cases hs with
  | reset => exact .inl (h.mono (.of_eq rfl rfl rfl))
  | resetFail hf => cases hf <;> exact .inl (h.mono (.of_eq rfl rfl rfl))
  | select | selectFail => exact .inl h
  | trigger ht | triggered ht => exact triggered ht h

end Scheduled

/-- The row at `id` as the dispatch read it has not run out of retries. -/
def Retriable (n : Notification) : Prop := 0 ≤ n.retryCount ∧ n.retryCount < maxRetries

/-- What a dispatch needs of its row: that it may be sent now, until it is, and that it
may be sent when the retry comes back, from when that is recorded. -/
def DispatchPc.Timely (w : World Bytes) (id : Uuid) : DispatchPc → Prop
  | .load => w.ReadyBy id none
  | .mark n | .render n | .encode n _ | .send n _ => w.ReadyBy id none ∧ 0 ≤ n.retryCount
  | .clock n _ => Retriable n
  | .bump n _ now => Retriable n ∧ now ≤ w.now
  | .repend n _ => Retriable n ∧ w.ReadyBy id (some (w.now + delayMs (n.retryCount + 1)))
  | .schedule ms => (∃ n, Retriable n ∧ ms = delayMs (n.retryCount + 1)) ∧
      w.ReadyBy id (some (w.now + ms))
  | .fallback ms => w.ReadyBy id (some (w.now + ms))
  | .giveUp _ | .succeed _ | .done _ => True

section Timely

variable {d : Deployment Bytes} {w w' : World Bytes} {id k : Uuid} {o : Outcome}
  {pc pc' : DispatchPc}

theorem DispatchPc.Timely.step (h : pc.Timely w id) (hno : w.NoRetry w' id)
    (hnow : w.now ≤ w'.now) : pc.Timely w' id := by
  have later : ∀ ms : Nat, w.ReadyBy id (some (w.now + ms)) → w'.ReadyBy id (some (w'.now + ms)) :=
    fun ms h => (h.step hno hnow).mono (by omega)
  cases pc with
  | load => exact World.ReadyBy.step h hno hnow
  | mark | render | encode | send => exact ⟨h.1.step hno hnow, h.2⟩
  | clock => exact h
  | bump => exact ⟨h.1, Int.le_trans h.2 hnow⟩
  | repend => exact ⟨h.1, later _ h.2⟩
  | schedule => exact ⟨h.1, later _ h.2⟩
  | fallback => exact later _ h
  | _ => trivial

theorem readyBy_incrementRetry {now : Int} {ms : Nat} (h : now ≤ w.now) :
    (w.incrementRetry id (now + ms)).ReadyBy id (some (w.now + ms)) := by
  intro n hn _
  simp only [World.incrementRetry, getById_incrementRetry, if_true, Option.map_eq_some_iff] at hn
  obtain ⟨n₀, -, rfl⟩ := hn
  simp only [withRetry, Option.getD_some, skewTolerance]
  omega

theorem DispatchStep.timely (hs : DispatchStep d id o w pc w' pc') (h : pc.Timely w id)
    (hrows : ∀ n, w.table.getById id = some n → 0 ≤ n.retryCount) : pc'.Timely w' id := by
  have hno : ¬ pc.RecordsRetry o → w.NoRetry w' id := fun hr => hs.noRetry fun _ => hr
  have hnow := hs.now_eq
  cases hs with
  | load hn => exact ⟨h, hrows _ hn⟩
  | mark => exact ⟨h.1.step (.updateStatus ..) (Int.le_refl _), h.2⟩
  | @render _ n content => exact DispatchPc.afterRender_ok n content (fun _ => h) fun _ => h
  | encode => exact h
  | sendFail hmax => exact ⟨h.2, hmax⟩
  | clock => exact ⟨h, Int.le_refl _⟩
  | bump => exact ⟨h.1, readyBy_incrementRetry h.2⟩
  | @repend _ n =>
    have hready := h.2.step (hno fun hr => by cases hr.1) (Int.le_of_eq hnow.symm)
    cases hmq : d.mq with
    | false => exact hready
    | true => exact ⟨⟨n, h.1, rfl⟩, hready⟩
  | scheduleFail hp hf =>
    cases hf with
    | before => exact h.2
    | after => exact h.2.step (.of_table rfl) (Int.le_refl _)
  | scheduleUnencoded => exact h.2
  | _ => trivial

theorem DispatchStep.scheduled (routes : Routes d.topology) {t : Option Int}
    (hs : DispatchStep d id o w pc w' pc') (htimely : pc.Timely w id) (h : Scheduled d w' k t) :
    Scheduled d w k t ∨ (k = id ∧ w.ReadyBy id t) := by
  have published : ∀ {ms broker}, pc = .schedule ms →
      publishRetry d.topology d.codec w.now id ms w.broker = .ok broker →
      Scheduled d { w with broker } k t → Scheduled d w k t ∨ (k = id ∧ w.ReadyBy id t) := by
    rintro ms broker rfl hp h
    obtain ⟨⟨n, ⟨hpos, hmax⟩, rfl⟩, hready⟩ := htimely
    obtain ⟨payload, hbody, hpush⟩ :=
      publishRetry_eq_ok d.codec routes (Int.lt_add_one_of_le hpos) (by omega) hp
    refine (h.of_push hpush).imp_right ?_
    rintro ⟨hid, ⟨hq, -⟩ | ⟨-, rfl⟩⟩
    · exact absurd hq (by decide)
    · simp only [Deployment.taskId, hbody, Option.some.injEq] at hid
      exact ⟨hid.symm, hready⟩
  cases hs with
  | schedule hp => exact published rfl hp h
  | scheduleFail hp hf =>
    cases hf with
    | before => exact .inl h
    | after => exact published rfl hp h
  | fallback =>
    cases h with
    | sleeping h =>
      rcases List.mem_append.mp h with h | h
      · exact .inl (.sleeping h)
      · cases List.mem_singleton.mp h
        exact .inr ⟨rfl, htimely⟩
    | queued hm hid => exact .inl (.queued hm hid)
    | retrying hm hid he => exact .inl (.retrying hm hid he)
    | spawned h => exact .inl (.spawned h)
  | loadFail hf | markFail hf | giveUpFail hf | succeedFail hf | bumpFail hf | rependFail hf =>
    cases hf <;> exact .inl (h.mono (.of_eq rfl rfl rfl))
  | _ => exact .inl (h.mono (.of_eq rfl rfl rfl))

end Timely

def Machine.Outstanding (d : Deployment Bytes) (m : Machine Bytes) (id : Uuid) : Prop :=
  (∃ t, Scheduled d m.world id t) ∨ id ∈ m.sweep.todo ∨ (∃ c ∈ m.calls, c.2.id = some id) ∨
    (∃ dl ∈ m.deliveries, d.taskId dl.message = some id ∧ dl.pc.result = none) ∨
    ∃ t ∈ m.tasks, t.1 = id ∧ t.2.result = none

theorem outstanding_state {d : Deployment Bytes} (m : Machine Bytes) (id : Uuid) :
    Outstanding d (m.state d) id ↔ m.Outstanding d id := by
  have hdl : ∀ dl : DeliveryPc Bytes, (d.taskId dl.message = some id ∧ (dl.prog d).result = none) ↔
      d.taskId dl.message = some id ∧ dl.pc.result = none := by
    intro dl
    refine and_congr_right fun hid => ?_
    rw [DeliveryPc.result_prog, DeliveryPc.result, hid]
    exact Option.map_eq_none_iff
  simp only [Outstanding, Machine.Outstanding, Machine.state, List.mem_map,
    exists_exists_and_eq_and, hdl, DispatchPc.result_prog]

namespace Backoff

/-- Whatever dispatches a row does so in time. -/
structure Inv (d : Deployment Bytes) (m : Machine Bytes) : Prop where
  rows : ∀ k n, m.world.table.getById k = some n → 0 ≤ n.retryCount
  scheduled : ∀ k t, Scheduled d m.world k t → m.world.ReadyBy k t
  todo : ∀ k ∈ m.sweep.todo, m.world.ReadyBy k none
  calls : ∀ c ∈ m.calls, ∀ k, c.2.id = some k → m.world.ReadyBy k none
  deliveries : ∀ dl ∈ m.deliveries, ∀ k, d.taskId dl.message = some k →
    dl.pc.Timely m.world k
  tasks : ∀ t ∈ m.tasks, t.2.Timely m.world t.1

variable {d : Deployment Bytes} {m : Machine Bytes}

theorem Inv.advance (h : Inv d m) {w : World Bytes} (hno : ∀ k, m.world.NoRetry w k)
    (hnow : m.world.now ≤ w.now)
    (hscheduled : ∀ k t, Scheduled d w k t → Scheduled d m.world k t ∨ m.world.ReadyBy k t) :
    Inv d { m with world := w } where
  rows k n' hn' := by
    cases hn : m.world.table.getById k with
    | none => exact Int.le_of_eq ((hno k).new hn n' hn').symm
    | some n =>
      obtain ⟨n₁, hn₁, hcount, -⟩ := (hno k).kept n hn
      obtain rfl := Option.some.inj (hn₁.symm.trans hn')
      rw [hcount]
      exact h.rows k n hn
  scheduled k t hst := by
    rcases hscheduled k t hst with hst | hready
    · exact (h.scheduled k t hst).step (hno k) hnow
    · exact hready.step (hno k) hnow
  todo k hk := (h.todo k hk).step (hno k) hnow
  calls c hc k hk := (h.calls c hc k hk).step (hno k) hnow
  deliveries dl hdl k hk := (h.deliveries dl hdl k hk).step (hno k) hnow
  tasks t ht := (h.tasks t ht).step (hno t.1) hnow

/-- Where a dispatch steps, what else there is stays in time: its row is only put off
when nothing else will dispatch it. -/
theorem Inv.dispatched (routes : Routes d.topology) (h : Inv d m) {id : Uuid} {o : Outcome}
    {pc pc' : DispatchPc} {w : World Bytes} (hs : DispatchStep d id o m.world pc w pc')
    (htimely : pc.Timely m.world id) {ds : List (DeliveryPc Bytes)} {ts : List (Uuid × DispatchPc)}
    (hds : ds ⊆ m.deliveries) (hts : ts ⊆ m.tasks)
    (halone : pc.RecordsRetry o → ¬ Machine.Outstanding d
    { m with deliveries := ds, tasks := ts } id) :
    Inv d { m with world := w, deliveries := ds, tasks := ts } := by
  have rest : Inv d { m with deliveries := ds, tasks := ts } :=
    { h with
      deliveries := fun dl hdl => h.deliveries dl (hds hdl)
      tasks := fun t ht => h.tasks t (hts ht) }
  by_cases hretry : pc.RecordsRetry o
  · have hno : ∀ k, Machine.Outstanding d { m with deliveries := ds, tasks := ts } k →
        m.world.NoRetry w k := by
      intro k hk
      refine hs.noRetry ?_
      rintro rfl
      exact absurd hk (halone hretry)
    have hnow := Int.le_of_eq hs.now_eq.symm
    refine ⟨?_, ?_, ?_, ?_, ?_, ?_⟩
    · intro k n' hn'
      obtain ⟨n, e, t, -, rfl, -⟩ := hs.recordsRetry hretry
      by_cases hk : k = id
      · simp only [World.incrementRetry, getById_incrementRetry, if_pos hk,
          Option.map_eq_some_iff] at hn'
        obtain ⟨n₀, hn₀, rfl⟩ := hn'
        have := h.rows id n₀ hn₀
        simp only [withRetry]
        omega
      · simp only [World.incrementRetry, getById_incrementRetry, if_neg hk] at hn'
        exact h.rows k n' hn'
    · intro k t hst
      rcases hs.scheduled routes htimely hst with hst | ⟨rfl, hready⟩
      · exact (h.scheduled k t hst).step (hno k (.inl ⟨t, hst⟩)) hnow
      · obtain ⟨n, e, t', rfl, rfl, -⟩ := hs.recordsRetry hretry
        have hst' : Scheduled d m.world k t := hst.mono (.of_eq rfl rfl rfl)
        exact absurd (.inl ⟨t, hst'⟩) (halone hretry)
    · exact fun k hk => (rest.todo k hk).step (hno k (.inr (.inl hk))) hnow
    · exact fun c hc k hk =>
        (rest.calls c hc k hk).step (hno k (.inr (.inr (.inl ⟨c, hc, hk⟩)))) hnow
    · intro dl hdl k hk
      cases hresult : dl.pc.result with
      | none =>
        exact (rest.deliveries dl hdl k hk).step
          (hno k (.inr (.inr (.inr (.inl ⟨dl, hdl, hk, hresult⟩))))) hnow
      | some r =>
        rw [DispatchPc.eq_done hresult]
        trivial
    · intro t ht
      cases hresult : t.2.result with
      | none =>
        exact (rest.tasks t ht).step
          (hno t.1 (.inr (.inr (.inr (.inr ⟨t, ht, rfl, hresult⟩))))) hnow
      | some r =>
        rw [DispatchPc.eq_done hresult]
        trivial
  · refine rest.advance (fun k => hs.noRetry fun _ => hretry) (Int.le_of_eq hs.now_eq.symm) ?_
    intro k t hst
    refine (hs.scheduled routes htimely hst).imp_right ?_
    rintro ⟨rfl, hready⟩
    exact hready

theorem inv_initial (w : World Bytes) (htable : w.table = .empty) (hbroker : w.broker = .empty)
    (hspawned : w.spawned = []) (hsleepers : w.sleepers = []) : Inv d (.initial w) where
  rows k n hn := by
    rw [show (Machine.initial w).world.table = .empty from htable] at hn
    cases hn
  scheduled k t hst := by
    have : ∀ queue, w.broker.ready queue = [] := by simp [hbroker, Broker.empty]
    cases hst <;> simp_all [Machine.initial]
  todo := by simp [Machine.initial, RecoverPc.todo]
  calls := by simp [Machine.initial]
  deliveries := by simp [Machine.initial]
  tasks := by simp [Machine.initial]

theorem QueueStep.id {r : Request} {o : Outcome} {w w' : World Bytes} {pc pc' : QueuePc} {k : Uuid}
    (h : QueueStep d r o w pc w' pc') (hk : pc'.id = some k) :
    pc.id = some k ∨ w'.table.getById k = none := by
  cases h with
  | ident hfresh hnone =>
    obtain rfl := Option.some.inj hk
    exact .inr hnone
  | @create _ n row =>
    left
    by_cases hid : row.id = n.id
    · cases hkey : n.idempotencyKey <;> simpa [QueuePc.afterCreate, hid, hkey, QueuePc.id] using hk
    · simp [QueuePc.afterCreate_other hid, QueuePc.id] at hk
  | createFail | createRefused => simp [QueuePc.id] at hk
  | @trigger _ _ id pc _ pc' ht =>
    left
    cases ht with
    | publish | spawn => cases hk
    | enter => cases hmq : d.mq <;> simpa [TriggerPc.afterEnter, hmq, QueuePc.id] using hk
    | _ => exact hk
  | _ => exact .inl hk

theorem inv_call (routes : Routes d.topology) (h : Inv d m) {i : Nat} {o : Outcome} {r : Request}
    {pc pc' : QueuePc} {w : World Bytes} (hi : m.calls[i]? = some (r, pc))
    (hs : QueueStep d r o m.world pc w pc') :
    Inv d { m with world := w, calls := m.calls.set i (r, pc') } := by
  have own := h.calls _ (List.mem_of_getElem? hi)
  have rest : Inv d { m with world := w } := by
    refine h.advance hs.noRetry (Int.le_of_eq hs.now_eq.symm) fun k t hst => ?_
    refine (hs.scheduled routes hst).imp_right ?_
    rintro ⟨hk, -⟩
    exact (own k hk).later t
  refine { rest with calls := Slots.forall_mem_set (fun k hk => ?_) rest.calls }
  rcases QueueStep.id hs hk with hk | hnone
  · exact (own k hk).step (hs.noRetry k) (Int.le_of_eq hs.now_eq.symm)
  · intro n hn
    exact absurd (hnone.symm.trans hn) nofun

theorem RecoverStep.todo {o : Outcome} {w w' : World Bytes} {pc pc' : RecoverPc} {k : Uuid}
    (h : RecoverStep d o w pc w' pc') (hk : k ∈ pc'.todo) :
    k ∈ pc.todo ∨ (w' = w ∧ ∃ n, w.table.getById k = some n ∧ due w.now n) := by
  cases h with
  | select hdue =>
    rw [RecoverPc.todo_loop] at hk
    obtain ⟨rfl, -, hfound, -⟩ := getPendingForRetry_eq_some hdue
    exact .inr ⟨rfl, hfound k hk⟩
  | trigger ht hne =>
    rw [RecoverPc.todo_trigger hne] at hk
    rw [RecoverPc.todo_trigger ht.ne_finished]
    exact .inl hk
  | triggered ht =>
    rw [RecoverPc.todo_loop] at hk
    rw [RecoverPc.todo_trigger ht.ne_finished]
    exact .inl (.tail _ hk)
  | _ => cases hk

theorem inv_sweep (routes : Routes d.topology) (h : Inv d m) {o : Outcome} {w : World Bytes}
    {pc' : RecoverPc} (hs : RecoverStep d o m.world m.sweep w pc') :
    Inv d { m with world := w, sweep := pc' } := by
  have rest : Inv d { m with world := w } := by
    refine h.advance hs.noRetry (Int.le_of_eq hs.now_eq.symm) fun k t hst => ?_
    refine (hs.scheduled routes hst).imp_right ?_
    rintro ⟨hk, -⟩
    exact (h.todo k hk).later t
  refine { rest with todo := fun k hk => ?_ }
  rcases RecoverStep.todo hs hk with hk | ⟨rfl, n, hn, hdue⟩
  · exact rest.todo k hk
  · intro n' hn' _
    obtain rfl := Option.some.inj (hn.symm.trans hn')
    simp only [due, decide_eq_true_eq] at hdue
    simp only [Option.getD_none]
    omega

theorem of_foldr_requeue {k : Uuid} {t : Option Int} {w : World Bytes} :
    ∀ {ms : List (Message Bytes)}, Scheduled d (ms.foldr requeue w) k t →
      Scheduled d w k t ∨ (t = none ∧ ∃ m ∈ ms, d.taskId m = some k)
  | [], h => .inl h
  | m :: ms, h => by
    rcases h.of_requeue with h | ⟨hid, ht⟩
    · rcases of_foldr_requeue h with h | ⟨ht, m', hm', hid⟩
      · exact .inl h
      · exact .inr ⟨ht, m', .tail _ hm', hid⟩
    · exact .inr ⟨ht, m, .head _, hid⟩

theorem foldr_requeue_eq (ms : List (Message Bytes)) (w : World Bytes) :
    (ms.foldr requeue w).table = w.table ∧ (ms.foldr requeue w).now = w.now := by
  induction ms with
  | nil => exact ⟨rfl, rfl⟩
  | cons m ms ih => exact ih

theorem Inv.requeued (h : Inv d m) {msg : Message Bytes}
    (hready : ∀ k, d.taskId msg = some k → m.world.ReadyBy k none) :
    Inv d { m with world := requeue msg m.world } := by
  refine h.advance (fun k => .of_table rfl) (Int.le_refl _) fun k t hst => ?_
  refine hst.of_requeue.imp_right ?_
  rintro ⟨hk, rfl⟩
  exact hready k hk

theorem Inv.started (h : Inv d m) {id : Uuid} (hready : m.world.ReadyBy id none) :
    Inv d { m with tasks := m.tasks ++ [(id, .load)] } := by
  refine { h with tasks := fun t ht => ?_ }
  rcases List.mem_append.mp ht with ht | ht
  · exact h.tasks t ht
  · rw [List.mem_singleton.mp ht]
    exact hready

theorem inv_crash (h : Inv d m) (hheld : ∀ dl ∈ m.deliveries, dl.held → ∀ k,
    d.taskId dl.message = some k → m.world.ReadyBy k none) : Inv d m.crash := by
  obtain ⟨htable, hnow⟩ := foldr_requeue_eq ((m.deliveries.filter DeliveryPc.held).map
    DeliveryPc.message) { m.world with spawned := [], sleepers := [] }
  have rest : Inv d { m with world := m.crash.world } := by
    refine h.advance (fun k => .of_table htable) (Int.le_of_eq hnow.symm) fun k t hst => ?_
    rcases of_foldr_requeue hst with hst | ⟨rfl, msg, hmsg, hid⟩
    · exact .inl (hst.mono ⟨fun _ => .refl _, by simp, by simp⟩)
    · obtain ⟨dl, hdl, rfl⟩ := List.mem_map.mp hmsg
      obtain ⟨hdl, hh⟩ := List.mem_filter.mp hdl
      exact .inr (hheld dl hdl hh k hid)
  exact { rest with
    todo := by simp [Machine.crash, RecoverPc.todo]
    calls := by simp [Machine.crash]
    deliveries := by simp [Machine.crash]
    tasks := by simp [Machine.crash] }

theorem recordsRetry_prog {dl : DeliveryPc Bytes} {id : Uuid} {o : Outcome}
    (hid : d.taskId dl.message = some id) (h : dl.pc.RecordsRetry o) :
    RecordsRetry (dl.prog d) o := by
  rw [RecordsRetry, dl.awaits_prog hid]
  exact h

theorem inv_step (hd : d.topology = declaredTopology) {m m' : Machine Bytes} {l : ServiceLabel}
    (h : Inv d m) (hok : Undisturbed d (m.state d) l) (hs : Machine.Step d l m m') : Inv d m' := by
  have routes : Routes d.topology := hd ▸ routes_declaredTopology
  cases hs with
  | @tick _ ms =>
    exact h.advance (fun k => .of_table rfl) (Int.le_add_of_nonneg_right (Int.natCast_nonneg ms))
      fun k t hst => .inl (hst.mono (.of_eq rfl rfl rfl))
  | request =>
    refine { h with calls := fun c hc => ?_ }
    rcases List.mem_append.mp hc with hc | hc
    · exact h.calls c hc
    · rw [List.mem_singleton.mp hc]
      exact nofun
  | call hi hs => exact inv_call routes h hi hs
  | @deliver _ msg broker hdeliver =>
    have rest : Inv d { m with world := { m.world with broker } } :=
      h.advance (fun k => .of_table rfl) (Int.le_refl _) fun k t hst =>
        .inl (hst.mono ⟨Broker.sublist_of_deliver hdeliver, fun _ h => h, fun _ h => h⟩)
    refine { rest with deliveries := fun dl hdl k hk => ?_ }
    rcases List.mem_append.mp hdl with hdl | hdl
    · exact rest.deliveries dl hdl k hk
    · rw [List.mem_singleton.mp hdl] at hk ⊢
      exact h.scheduled k none (.queued (Broker.head_of_deliver hdeliver) hk)
  | @process _ i o dl id w pc' hi hid hs =>
    have htimely := h.deliveries dl (List.mem_of_getElem? hi) id hid
    have rest := h.dispatched routes hs htimely (List.eraseIdx_subset (k := i)) (List.Subset.refl _)
      fun hretry => by
        have := hok _ id (Machine.deliveries_state hi) hid (recordsRetry_prog hid hretry)
        rw [← outstanding_state]
        simpa [Machine.state, List.eraseIdx_map] using this
    refine { rest with deliveries := fun x hx k hk => ?_ }
    rcases Slots.eq_or_mem_eraseIdx hx with rfl | hx
    · obtain rfl := Option.some.inj (hid.symm.trans hk)
      exact hs.timely htimely (h.rows id)
    · exact rest.deliveries x hx k hk
  | settle hi =>
    rw [hd, settle_declared]
    exact { h with deliveries := Slots.forall_mem_eraseIdx h.deliveries }
  | settleLoose => exact { h with deliveries := Slots.forall_mem_eraseIdx h.deliveries }
  | @takeBack _ i dl hi hheld =>
    have rest := h.requeued fun k hk => hok _ k (Machine.deliveries_state hi) hk
    exact { rest with
      deliveries := Slots.forall_mem_set (rest.deliveries dl (List.mem_of_getElem? hi))
        rest.deliveries }
  | @giveBack _ i dl hi hheld =>
    have rest := h.requeued fun k hk => hok _ k (Machine.deliveries_state hi) hk
    exact { rest with deliveries := Slots.forall_mem_eraseIdx rest.deliveries }
  | @expire _ broker hexpire =>
    obtain ⟨msg, b₁, e, hdeliver, he, hle, rfl⟩ := Broker.expireHead_eq_some.mp hexpire
    refine h.advance (fun k => .of_table rfl) (Int.le_refl _) fun k t hst => ?_
    rw [Broker.deadLetter, routes.expired] at hst
    rcases Scheduled.of_push (w := { m.world with broker := b₁ }) rfl hst with hst | ⟨hk, h'⟩
    · exact .inl (hst.mono ⟨Broker.sublist_of_deliver hdeliver, fun _ h => h, fun _ h => h⟩)
    · refine .inr (World.ReadyBy.later ?_ t)
      exact (h.scheduled k (some e) (.retrying (Broker.head_of_deliver hdeliver) hk he)).now hle
  | @start _ i id hi =>
    have rest : Inv d { m with world := { m.world with spawned := m.world.spawned.eraseIdx i } } :=
      h.advance (fun k => .of_table rfl) (Int.le_refl _) fun k t hst =>
        .inl (hst.mono ⟨fun _ => .refl _, List.eraseIdx_subset, fun _ h => h⟩)
    exact rest.started (h.scheduled id none (.spawned (List.mem_of_getElem? hi)))
  | @wake _ i id wakeAt hi hwake =>
    have rest : Inv d { m with
        world := { m.world with sleepers := m.world.sleepers.eraseIdx i } } :=
      h.advance (fun k => .of_table rfl) (Int.le_refl _) fun k t hst =>
        .inl (hst.mono ⟨fun _ => .refl _, fun _ h => h, List.eraseIdx_subset⟩)
    have hready := h.scheduled id (some wakeAt) (.sleeping (List.mem_of_getElem? hi))
    exact rest.started (hready.now hwake)
  | @task _ i o id pc w pc' hi hs =>
    have htimely := h.tasks _ (List.mem_of_getElem? hi)
    have rest := h.dispatched routes hs htimely (List.Subset.refl _) (List.eraseIdx_subset (k := i))
      fun hretry => by
        have := hok _ (Machine.tasks_state hi) (by rwa [RecordsRetry, DispatchPc.awaits_prog])
        rw [← outstanding_state]
        simpa [Machine.state, List.eraseIdx_map] using this
    refine { rest with tasks := fun x hx => ?_ }
    rcases Slots.eq_or_mem_eraseIdx hx with rfl | hx
    · exact hs.timely htimely (h.rows id)
    · exact rest.tasks x hx
  | sweep hs => exact inv_sweep routes h hs
  | crash =>
    refine inv_crash h fun dl hdl hheld k hk => ?_
    exact hok ⟨dl.message, dl.held, dl.prog d⟩ (List.mem_map_of_mem hdl) hheld k hk

end Backoff

/-- While retries are recorded undisturbed, no row is sent more than 5 seconds before its
retry time. -/
theorem service_keepsBackoff (codec : TaskCodec Bytes) (mq : Bool) (s : ServiceState Bytes)
    (h : (serviceSystem (.declared codec mq)).Reachable (Undisturbed (.declared codec mq)) s) :
    KeepsBackoff (.declared codec mq) s := by
  obtain ⟨m, rfl, -, hinv⟩ := Machine.invariant (I := Backoff.Inv (.declared codec mq))
    (fun w => Backoff.inv_initial w)
    (fun _ _ _ hI hok hs => Backoff.inv_step rfl hI hok hs) h
  have early : ∀ {pc : DispatchPc} {id}, pc.kind = some .send → pc.Timely m.world id →
      ∀ n, m.world.table.getById id = some n → 0 < n.retryCount →
        n.nextRetryAt - 5000 ≤ m.world.now := by
    intro pc id hkind htimely n hn hpos
    cases pc with
    | send =>
      have := htimely.1 n hn hpos
      simp only [Option.getD_none, skewTolerance] at this
      omega
    | _ => cases hkind
  intro l id hsends
  cases l with
  | process i o =>
    obtain ⟨dl, hdl, hid, hawaits⟩ := hsends
    obtain ⟨dl', hi, rfl⟩ := Option.map_eq_some_iff.mp ((List.getElem?_map ..).symm.trans hdl)
    rw [dl'.awaits_prog hid] at hawaits
    exact early hawaits (hinv.deliveries dl' (List.mem_of_getElem? hi) id hid)
  | task i o =>
    obtain ⟨t, ht, rfl, hawaits⟩ := hsends
    obtain ⟨t', hi, rfl⟩ := Option.map_eq_some_iff.mp ((List.getElem?_map ..).symm.trans ht)
    rw [DispatchPc.awaits_prog] at hawaits
    exact early hawaits (hinv.tasks t' (List.mem_of_getElem? hi))
  | _ => exact hsends.elim

/-- A first attempt fails and schedules its retry; the retry is about to send. -/
theorem service_keepsBackoff_retried :
    ∃ s, (serviceSystem (.declared .plain true)).Reachable (Undisturbed (.declared .plain true)) s ∧
      SendsRow (.declared .plain true) s ⟨1⟩ (.process 0 .ok) ∧
      s.world.table.rows.map Notification.retryCount = [1] ∧
      KeepsBackoff (.declared .plain true) s := by
  let quiet (s : ServiceState NotificationTask) : ServiceLabel → Bool
    | .process i _ => i = 0 && s.deliveries.length = 1 && s.tasks.isEmpty &&
        s.calls.all (fun c => c.id.isNone) && s.sweep.todo.isEmpty && s.world.spawned.isEmpty &&
        s.world.sleepers.isEmpty && (s.world.broker.ready dispatchQueue).isEmpty &&
        (s.world.broker.ready retryQueue).isEmpty
    | .task .. | .takeBack .. | .crash => false
    | _ => true
  have undisturbed : ∀ s l, quiet s l = true → Undisturbed (.declared .plain true) s l := by
    intro s l hl
    cases l with
    | process i o =>
      simp only [quiet, Bool.and_eq_true, decide_eq_true_eq, List.isEmpty_iff,
        List.all_eq_true, Option.isNone_iff_eq_none] at hl
      obtain ⟨⟨⟨⟨⟨⟨⟨⟨rfl, hone⟩, htasks⟩, hcalls⟩, htodo⟩, hspawned⟩, hsleepers⟩, hqueued⟩,
        hretrying⟩ := hl
      obtain ⟨dl, hdl⟩ := List.length_eq_one_iff.mp hone
      rintro - id - - - (⟨t, hst⟩ | htodo' | ⟨c, hc, hid⟩ | hother | hother)
      · cases hst <;> simp_all
      · simp [htodo] at htodo'
      · simp [hcalls c hc] at hid
      · simp [hdl] at hother
      · simp [htasks] at hother
    | task | takeBack | crash => cases hl
    | _ => trivial
  obtain ⟨s, hrun, hsends, hrows⟩ : ∃ s, (serviceSystem (.declared .plain true)).runWhen quiet
      (.start true)
      [.sweep .ok, .sweep (.rows []), .request .sample, .call 0 (.fresh ⟨1⟩), .call 0 .ok,
        .call 0 .ok, .call 0 .ok, .call 0 .ok, .call 0 .ok, .call 0 .ok, .deliver,
        .process 0 .ok, .process 0 .ok, .process 0 (.text "hello"),
        .process 0 (.fail (.provider "timeout")), .process 0 .ok, .process 0 .ok, .process 0 .ok,
        .process 0 .ok, .settle 0, .tick 120000, .expire, .deliver, .process 0 .ok,
        .process 0 .ok, .process 0 (.text "hello")] = some s ∧
      SendsRow (.declared .plain true) s ⟨1⟩ (.process 0 .ok) ∧
      s.world.table.rows.map Notification.retryCount = [1] :=
    ⟨_, rfl, ⟨_, rfl, rfl, rfl⟩, rfl⟩
  have reach := (ServiceState.reachable_start (.declared .plain true) _).runWhen undisturbed hrun
  exact ⟨s, reach, hsends, hrows, service_keepsBackoff .plain true s reach⟩

/-- A crash leaves one dispatch queued, the boot sweep adds another. The first fails and
puts the row off for 2 minutes; the second sends it at once. -/
theorem service_skipsBackoff : ∃ s n,
    (serviceSystem (.declared .plain true)).Reachable OneAtATime s ∧
      OneAtATime s (.process 0 (.text "ref")) ∧
      ((serviceSystem (.declared .plain true)).step s (.process 0 (.text "ref"))).isSome ∧
      SendsRow (.declared .plain true) s ⟨1⟩ (.process 0 (.text "ref")) ∧
      s.world.table.getById ⟨1⟩ = some n ∧ 0 < n.retryCount ∧
      s.world.now < n.nextRetryAt - 5000 := by
  let single (s : ServiceState NotificationTask) : ServiceLabel → Bool
    | .process i _ => i = 0 && s.deliveries.length ≤ 1 && s.tasks.isEmpty
    | .task .. => false
    | _ => true
  have oneAtATime : ∀ s l, single s l = true → OneAtATime s l := by
    intro s l hl
    cases l with
    | process i o =>
      simp only [single, Bool.and_eq_true, decide_eq_true_eq, List.isEmpty_iff] at hl
      obtain ⟨⟨rfl, hlen⟩, htasks⟩ := hl
      have hrest : s.deliveries.eraseIdx 0 = [] := by
        rw [List.eraseIdx_zero, ← List.length_eq_zero_iff, List.length_tail]
        omega
      exact ⟨by simp [hrest], by simp [htasks]⟩
    | task => cases hl
    | _ => trivial
  obtain ⟨s, n, hrun, hsingle, hstep, hsends, hn, hcount, hearly⟩ : ∃ s n,
      (serviceSystem (.declared .plain true)).runWhen single (.start true)
        [.sweep .ok, .sweep (.rows []), .request .sample, .call 0 (.fresh ⟨1⟩), .call 0 .ok,
          .call 0 .ok, .call 0 .ok, .call 0 .ok, .call 0 .ok, .call 0 .ok, .crash,
          .sweep .ok, .sweep (.rows [⟨1⟩]), .sweep .ok, .sweep .ok, .deliver,
          .process 0 .ok, .process 0 .ok, .process 0 (.text "hello"),
          .process 0 (.fail (.provider "timeout")), .process 0 .ok, .process 0 .ok,
          .process 0 .ok, .process 0 .ok, .settle 0, .deliver, .process 0 .ok, .process 0 .ok,
          .process 0 (.text "hello")] = some s ∧
      single s (.process 0 (.text "ref")) = true ∧
      ((serviceSystem (.declared .plain true)).step s (.process 0 (.text "ref"))).isSome ∧
      SendsRow (.declared .plain true) s ⟨1⟩ (.process 0 (.text "ref")) ∧
      s.world.table.getById ⟨1⟩ = some n ∧ n.retryCount = 1 ∧
      s.world.now = 0 ∧ n.nextRetryAt = 120000 :=
    ⟨_, _, rfl, rfl, rfl, ⟨_, rfl, rfl, rfl⟩, rfl, rfl, rfl, rfl⟩
  refine ⟨s, n, (ServiceState.reachable_start (.declared .plain true) _).runWhen oneAtATime hrun,
    oneAtATime _ _ hsingle, hstep, hsends, hn, ?_, ?_⟩
  · omega
  · omega

end NotiService
