import NotiService.Burden
import NotiService.RowHistory
import NotiService.Stranded

/-! The service while nothing goes wrong that loses a task: the process lives, the broker
takes no delivery back, `create` reports no error for a row it has stored, and no dispatch
meets a failing call of the repository or of the encoding. Templates, providers, the cache
and the broker's publishes may fail at any time. Every live row is then tended, if it was. -/

namespace NotiService
open Foundation Orchestrator Amqp RabbitMQ Consumer Service NotificationTable

variable {Bytes : Type}

def Calm (s : ServiceState Bytes) : ServiceLabel → Prop
  | .crash | .takeBack _ _ => False
  | .call i o => ∀ c, s.calls[i]? = some c → ∀ n, creates c.prog = some n →
      ∀ e, o = .failAfter e → n.idempotencyKey.bind s.world.table.getByIdempotencyKey ≠ none
  | .process i o => ∀ dl, s.deliveries[i]? = some dl → ¬ Lossy dl.prog o
  | .task i o => ∀ t, s.tasks[i]? = some t → ¬ Lossy t.prog o
  | _ => True

theorem Calm.undropped {s : ServiceState Bytes} {l : ServiceLabel} (h : Calm s l) :
    Undropped l := by
  cases l with
  | crash | takeBack => exact h.elim
  | _ => trivial

/-- Something is dispatching `id`, or will. -/
def Tended (d : Deployment Bytes) (s : ServiceState Bytes) (id : Uuid) : Prop :=
  InTransit d s.world id ∨ id ∈ s.sweep.todo ∨ (∃ c ∈ s.calls, c.Carries id) ∨
    (∃ dl ∈ s.deliveries, d.taskId dl.message = some id ∧ dl.prog.result = none) ∨
    ∃ t ∈ s.tasks, t.Carries id

def Machine.Tended (d : Deployment Bytes) (m : Machine Bytes) (id : Uuid) : Prop :=
  InTransit d m.world id ∨ id ∈ m.sweep.todo ∨ (∃ c ∈ m.calls, c.2.Carries id) ∨
    (∃ dl ∈ m.deliveries, d.taskId dl.message = some id ∧ dl.pc.result = none) ∨
    ∃ t ∈ m.tasks, t.1 = id ∧ t.2.result = none

theorem tended_state {d : Deployment Bytes} (m : Machine Bytes) (id : Uuid) :
    Tended d (m.state d) id ↔ m.Tended d id := by
  have hcall : ∀ c : Request × QueuePc,
      Call.Carries id ⟨c.2.id, c.2.prog d.mq c.1⟩ ↔ c.2.Carries id := by
    intro c
    rw [Call.Carries, QueuePc.awaits_prog, QueuePc.Carries]
  have hdl : ∀ dl : DeliveryPc Bytes, (d.taskId dl.message = some id ∧ (dl.prog d).result = none) ↔
      d.taskId dl.message = some id ∧ dl.pc.result = none := by
    intro dl
    refine and_congr_right fun hid => ?_
    rw [DeliveryPc.result_prog, DeliveryPc.result, hid]
    exact Option.map_eq_none_iff
  have htask : ∀ t : Uuid × DispatchPc,
      Task.Carries id ⟨t.1, t.2.prog d.mq t.1⟩ ↔ t.1 = id ∧ t.2.result = none := by
    intro t
    rw [Task.Carries, DispatchPc.isDone_prog]
  simp only [NotiService.Tended, Machine.Tended, Machine.state, List.mem_map,
    exists_exists_and_eq_and, hcall, hdl, htask]

def Machine.Kept (d : Deployment Bytes) (m : Machine Bytes) : Prop :=
  ∀ n ∈ m.world.table.rows, n.status.live → m.Tended d n.id

theorem DeliveryPc.finished {d : Deployment Bytes} (dl : DeliveryPc Bytes) {id : Uuid}
    {disposition : Disposition} (h : dl.result d = some disposition) :
    ¬ (d.taskId dl.message = some id ∧ dl.pc.result = none) := by
  rintro ⟨hid, hnone⟩
  rw [DeliveryPc.result, hid] at h
  simp [hnone] at h

namespace Machine

variable {d : Deployment Bytes} {m m' : Machine Bytes} {l : ServiceLabel} {id : Uuid}

theorem Kept.keep (h : m.Kept d) (hrows : ∀ n ∈ m'.world.table.rows, n.status.live →
    m'.Tended d n.id ∨ ∃ n₀ ∈ m.world.table.rows, n₀.id = n.id ∧ n₀.status.live ∧
      (m.Tended d n.id → m'.Tended d n.id)) : m'.Kept d := by
  intro n hn hlive
  rcases hrows n hn hlive with ht | ⟨n₀, hn₀, hid, hlive₀, hkept⟩
  · exact ht
  · exact hkept (hid ▸ h n₀ hn₀ hlive₀)

theorem Kept.of_table (h : m.Kept d) (htable : m'.world.table = m.world.table)
    (hkept : ∀ k, m.Tended d k → m'.Tended d k) : m'.Kept d :=
  h.keep fun n hn hlive => .inr ⟨n, htable ▸ hn, rfl, hlive, hkept n.id⟩

theorem Kept.dispatched (h : m.Kept d) {o : Outcome} {pc pc' : DispatchPc}
    (hs : DispatchStep d id o m.world pc m'.world pc')
    (hother : ∀ k, k ≠ id → m.Tended d k → m'.Tended d k)
    (hid : Settled m'.world id ∨ m'.Tended d id) : m'.Kept d := by
  refine h.keep fun n hn hlive => ?_
  have hget := mem_rows_iff.mp hn
  by_cases hk : n.id = id
  · rcases hid with hsettled | ht
    · rw [hk] at hget
      rw [hsettled n hget] at hlive
      cases hlive
    · exact .inl (hk ▸ ht)
  · rw [hs.frame hk] at hget
    exact .inr ⟨n, mem_rows_iff.mpr hget, rfl, hlive, hother n.id hk⟩

theorem kept_task (routes : Routes d.topology) (h : m.Kept d) {i : Nat} {o : Outcome}
    {pc pc' : DispatchPc} {w : World Bytes} (hi : m.tasks[i]? = some (id, pc))
    (hs : DispatchStep d id o m.world pc w pc') (hok : ¬ (o.failed ∧ pc.kind.any OpKind.lossy)) :
    Kept d { m with world := w, tasks := m.tasks.set i (id, pc') } := by
  refine h.dispatched hs ?_ ?_
  · rintro k hk (ht | htodo | hcall | hdl | htask)
    · exact .inl (ht.mono (hs.grows routes))
    · exact .inr (.inl htodo)
    · exact .inr (.inr (.inl hcall))
    · exact .inr (.inr (.inr (.inl hdl)))
    · rcases Slots.exists_mem_set hi htask with ⟨hid, -⟩ | htask
      · exact absurd hid.symm hk
      · exact .inr (.inr (.inr (.inr htask)))
  · cases hpc' : pc'.result with
    | none => exact .inr (.inr (.inr (.inr (.inr ⟨_, Slots.mem_set_self hi, rfl, hpc'⟩))))
    | some r =>
      rw [DispatchPc.eq_done hpc'] at hs
      exact (hs.handsOver routes (.inr hok)).imp_right .inl

theorem kept_process (routes : Routes d.topology) (h : m.Kept d) {i : Nat} {o : Outcome}
    {dl : DeliveryPc Bytes} {pc' : DispatchPc} {w : World Bytes} (hi : m.deliveries[i]? = some dl)
    (hid : d.taskId dl.message = some id) (hs : DispatchStep d id o m.world dl.pc w pc')
    (hok : ¬ (o.failed ∧ dl.pc.kind.any OpKind.lossy)) :
    Kept d { m with world := w, deliveries := m.deliveries.set i { dl with pc := pc' } } := by
  refine h.dispatched hs ?_ ?_
  · rintro k hk (ht | htodo | hcall | hdl | htask)
    · exact .inl (ht.mono (hs.grows routes))
    · exact .inr (.inl htodo)
    · exact .inr (.inr (.inl hcall))
    · rcases Slots.exists_mem_set hi hdl with ⟨hk', -⟩ | hdl
      · exact absurd (Option.some.inj (hk'.symm.trans hid)) hk
      · exact .inr (.inr (.inr (.inl hdl)))
    · exact .inr (.inr (.inr (.inr htask)))
  · cases hpc' : pc'.result with
    | none => exact .inr (.inr (.inr (.inr (.inl ⟨_, Slots.mem_set_self hi, hid, hpc'⟩))))
    | some r =>
      rw [DispatchPc.eq_done hpc'] at hs
      exact (hs.handsOver routes (.inr hok)).imp_right .inl

theorem kept_call (routes : Routes d.topology) (h : m.Kept d) {i : Nat} {o : Outcome} {r : Request}
    {pc pc' : QueuePc} {w : World Bytes} (hi : m.calls[i]? = some (r, pc))
    (hs : QueueStep d r o m.world pc w pc')
    (hcommit : ∀ n, pc = .create n → ∀ e, o = .failAfter e →
      n.idempotencyKey.bind m.world.table.getByIdempotencyKey ≠ none) :
    Kept d { m with world := w, calls := m.calls.set i (r, pc') } := by
  have new : ∀ {k}, pc'.Carries k → ∃ c ∈ m.calls.set i (r, pc'), c.2.Carries k :=
    fun hc => ⟨_, Slots.mem_set_self hi, hc⟩
  have kept : ∀ k, m.Tended d k →
      Tended d { m with world := w, calls := m.calls.set i (r, pc') } k := by
    rintro k (ht | htodo | hcall | hrest)
    · exact .inl (ht.mono (hs.grows routes))
    · exact .inr (.inl htodo)
    · rcases Slots.exists_mem_set hi hcall with hc | hcall
      · exact (hs.carries routes hc).elim (fun hc => .inr (.inr (.inl (new hc)))) .inl
      · exact .inr (.inr (.inl hcall))
    · exact .inr (.inr (.inr hrest))
  refine h.keep fun n hn hlive => ?_
  rcases hs.inserts hcommit n hn with hold | hc
  · exact .inr ⟨n, hold, rfl, hlive, kept n.id⟩
  · exact .inl (.inr (.inr (.inl (new hc))))

theorem kept_sweep (routes : Routes d.topology) (h : m.Kept d) {o : Outcome} {w : World Bytes}
    {pc' : RecoverPc} (hs : RecoverStep d o m.world m.sweep w pc') :
    Kept d { m with world := w, sweep := pc' } := by
  have hgrows := hs.grows routes
  generalize hsweep : m.sweep = pc at hs
  have kept : ∀ k, (k ∈ pc.todo → InTransit d w k ∨ k ∈ pc'.todo) → m.Tended d k →
      Tended d { m with world := w, sweep := pc' } k := by
    rintro k htodo (ht | hk | hrest)
    · exact .inl (ht.mono hgrows)
    · rw [hsweep] at hk
      exact (htodo hk).imp_right .inl
    · exact .inr (.inr hrest)
  have reset : ∀ {secs limit n}, pc = .reset secs limit →
      n ∈ (m.world.resetStuckProcessing secs).table.rows → n.status.live →
      ∃ n₀ ∈ m.world.table.rows, n₀.id = n.id ∧ n₀.status.live ∧
        (m.Tended d n.id → Tended d { m with world := w, sweep := pc' } n.id) := by
    rintro secs limit n rfl hn hlive
    obtain ⟨n₀, hn₀, hid, hlive₀, -⟩ := Stranded.mem_rows_resetStuckProcessing hn hlive
    exact ⟨n₀, hn₀, hid, hlive₀, kept n.id nofun⟩
  cases hs with
  | reset => exact h.keep fun n hn hlive => .inr (reset rfl hn hlive)
  | resetFail hf =>
    cases hf with
    | before => exact h.of_table rfl fun k => kept k nofun
    | after => exact h.keep fun n hn hlive => .inr (reset rfl hn hlive)
  | select | selectFail => exact h.of_table rfl fun k => kept k nofun
  | trigger ht hne =>
    refine h.of_table ht.table_eq fun k => kept k fun hk => .inr ?_
    rw [RecoverPc.todo_trigger ht.ne_finished] at hk
    rwa [RecoverPc.todo_trigger hne]
  | triggered ht =>
    refine h.of_table ht.table_eq fun k => kept k fun hk => ?_
    rw [RecoverPc.todo_trigger ht.ne_finished] at hk
    rw [RecoverPc.todo_loop]
    rcases List.mem_cons.mp hk with rfl | hk
    · exact .inl ((ht.grows routes).2 rfl)
    · exact .inr hk

theorem Tended.settled {i : Nat} {dl : DeliveryPc Bytes} {disposition : Disposition}
    (h : m.Tended d id) (hi : m.deliveries[i]? = some dl)
    (hresult : dl.result d = some disposition) :
    Tended d { m with deliveries := m.deliveries.eraseIdx i } id := by
  refine h.imp_right (Or.imp_right (Or.imp_right (Or.imp_left fun hdl => ?_)))
  exact (Slots.exists_mem_eraseIdx hi hdl).resolve_left (dl.finished hresult)

theorem Step.kept (hd : d.topology = declaredTopology) (hs : Step d l m m') (h : m.Kept d)
    (hok : Calm (m.state d) l) : m'.Kept d := by
  have routes : Routes d.topology := hd ▸ routes_declaredTopology
  cases hs with
  | tick => exact h.of_table rfl fun _ => id
  | request =>
    refine h.of_table rfl fun k => ?_
    rintro (ht | htodo | ⟨c, hc, hcarries⟩ | hrest)
    · exact .inl ht
    · exact .inr (.inl htodo)
    · exact .inr (.inr (.inl ⟨c, List.mem_append_left _ hc, hcarries⟩))
    · exact .inr (.inr (.inr hrest))
  | @call _ i o r pc _ _ hi hs =>
    refine kept_call routes h hi hs ?_
    rintro n rfl e ho
    exact hok _ (calls_state hi) n rfl e ho
  | deliver hdeliver =>
    refine h.of_table rfl fun k => ?_
    rintro (ht | htodo | hcall | ⟨dl, hdl, hunfinished⟩ | htask)
    · rcases ht.deliver hdeliver with hid | ht
      · exact .inr (.inr (.inr (.inl ⟨_, List.mem_append_right _ (.head _), hid, rfl⟩)))
      · exact .inl ht
    · exact .inr (.inl htodo)
    · exact .inr (.inr (.inl hcall))
    · exact .inr (.inr (.inr (.inl ⟨dl, List.mem_append_left _ hdl, hunfinished⟩)))
    · exact .inr (.inr (.inr (.inr htask)))
  | @process _ i o dl id _ _ hi hid hs =>
    refine kept_process routes h hi hid hs fun hlossy => hok _ (deliveries_state hi) ?_
    rwa [Lossy, dl.awaits_prog hid]
  | @settle _ i dl disposition hi _ hresult =>
    rw [hd, settle_declared]
    exact h.of_table rfl fun k ht => ht.settled hi hresult
  | settleLoose hi _ hresult => exact h.of_table rfl fun k ht => ht.settled hi hresult
  | takeBack | giveBack | crash => exact hok.elim
  | expire hexpire =>
    obtain ⟨msg, b₁, e, hdeliver, -, -, rfl⟩ := Broker.expireHead_eq_some.mp hexpire
    obtain ⟨hgrows, hback⟩ := grows_deadLetter (d := d) { m.world with broker := b₁ } (.inl rfl)
      (routes.expired msg.routingKey)
    refine h.of_table rfl fun k => ?_
    rintro (ht | hrest)
    · rcases ht.deliver hdeliver with hid | ht
      · exact .inl (hback k hid)
      · exact .inl (ht.mono hgrows)
    · exact .inr hrest
  | @start _ i id hi =>
    refine h.of_table rfl fun k => ?_
    rintro ((hqueued | hspawned | hsleeping) | htodo | hcall | hdl | ⟨t, ht, hc⟩)
    · exact .inl (.inl hqueued)
    · rcases Slots.exists_mem_eraseIdx hi (P := (· = k)) ⟨k, hspawned, rfl⟩ with rfl | ⟨_, hk, rfl⟩
      · exact .inr (.inr (.inr (.inr ⟨(id, .load), by simp, rfl, rfl⟩)))
      · exact .inl (.inr (.inl hk))
    · exact .inl (.inr (.inr hsleeping))
    · exact .inr (.inl htodo)
    · exact .inr (.inr (.inl hcall))
    · exact .inr (.inr (.inr (.inl hdl)))
    · exact .inr (.inr (.inr (.inr ⟨t, List.mem_append_left _ ht, hc⟩)))
  | @wake _ i id wakeAt hi hwake =>
    refine h.of_table rfl fun k => ?_
    rintro ((hqueued | hspawned | ⟨t, ht⟩) | htodo | hcall | hdl | ⟨t, ht, hc⟩)
    · exact .inl (.inl hqueued)
    · exact .inl (.inr (.inl hspawned))
    · rcases Slots.exists_mem_eraseIdx hi (P := (·.1 = k)) ⟨(k, t), ht, rfl⟩ with
        rfl | ⟨⟨_, t'⟩, hk, rfl⟩
      · exact .inr (.inr (.inr (.inr ⟨(id, .load), by simp, rfl, rfl⟩)))
      · exact .inl (.inr (.inr ⟨t', hk⟩))
    · exact .inr (.inl htodo)
    · exact .inr (.inr (.inl hcall))
    · exact .inr (.inr (.inr (.inl hdl)))
    · exact .inr (.inr (.inr (.inr ⟨t, List.mem_append_left _ ht, hc⟩)))
  | @task _ i o id pc _ _ hi hs =>
    refine kept_task routes h hi hs fun hlossy => hok _ (tasks_state hi) ?_
    rwa [Lossy, DispatchPc.awaits_prog]
  | sweep hs => exact kept_sweep routes h hs

end Machine

end NotiService
