import NotiService.Carriers

/-! No stranded notification: once the boot sweep is over, every live row has a
carrier, if each of the places where the duty can be dropped is passed safely. -/

namespace NotiService
open Foundation Orchestrator Amqp RabbitMQ Consumer Service NotificationTable

variable {Bytes : Type}

def NoneStranded (d : Deployment Bytes) (s : ServiceState Bytes) : Prop :=
  s.sweep.prog.isDone → ∀ n ∈ s.world.table.rows, n.status.live → Carried d s n.id

def Lossy {α : Type} (p : Program Op α) (o : Outcome) : Prop :=
  o.failed ∧ (awaits p).any OpKind.lossy

/-- `create` does not report an error after it has inserted a row. In-process dispatches
meet no failing repository call or encoding. The sweep's reset finds every live row
without a carrier stuck or due, its select leaves out no such row that is due, and both
succeed, unless no row needs them. -/
def Dutiful (d : Deployment Bytes) (s : ServiceState Bytes) : ServiceLabel → Prop
  | .call i o => ∀ c, s.calls[i]? = some c → ∀ n, creates c.prog = some n →
      ∀ e, o = .failAfter e → n.idempotencyKey.bind s.world.table.getByIdempotencyKey ≠ none
  | .process i o => ∀ dl, s.deliveries[i]? = some dl → dl.held = false → ¬ Lossy dl.prog o
  | .task i o => ∀ t, s.tasks[i]? = some t → ¬ Lossy t.prog o
  | .sweep o => ∀ n ∈ s.world.table.rows, n.status.live → ¬ Carried d s n.id →
      (awaits s.sweep.prog = some .resetStuckProcessing →
        o = .ok ∧ (stuck s.world.now stuckProcessingSecs n ∨ due s.world.now n)) ∧
      (awaits s.sweep.prog = some .getPendingForRetry →
        ∃ ids, o = .rows ids ∧ (due s.world.now n → n.id ∈ ids))
  | _ => True

namespace Stranded

variable {d : Deployment Bytes}

/-- What the sweep still owes a row without a carrier. -/
def Owed (m : Machine Bytes) (n : Notification) : Prop :=
  match m.sweep with
  | .reset secs _ => secs = stuckProcessingSecs
  | .select _ => due m.world.now n
  | pc => n.id ∈ pc.todo

def Inv (d : Deployment Bytes) (m : Machine Bytes) : Prop :=
  ∀ n ∈ m.world.table.rows, n.status.live → m.Carried d n.id ∨ Owed m n

theorem Owed.mono {m m' : Machine Bytes} {n : Notification} (hsweep : m'.sweep = m.sweep)
    (hnow : m.world.now ≤ m'.world.now) (h : Owed m n) : Owed m' n := by
  unfold Owed at h ⊢
  rw [hsweep]
  split at h
  · exact h
  · simp only [due, decide_eq_true_eq] at h ⊢
    exact ⟨h.1, by omega⟩
  · exact h

/-- A step outside the sweep keeps the invariant when each live row afterwards is
carried, or was there and has lost no carrier. -/
theorem Inv.keep {m m' : Machine Bytes} (h : Inv d m) (hsweep : m'.sweep = m.sweep)
    (hnow : m.world.now ≤ m'.world.now)
    (hrows : ∀ n ∈ m'.world.table.rows, n.status.live → m'.Carried d n.id ∨
      (n ∈ m.world.table.rows ∧ (m.Carried d n.id → m'.Carried d n.id))) : Inv d m' := by
  intro n hn hlive
  rcases hrows n hn hlive with hc | ⟨hold, hkept⟩
  · exact .inl hc
  · exact (h n hold hlive).imp hkept (Owed.mono hsweep hnow)

/-- A step of `dispatch(id)` keeps the invariant when the other rows keep their carriers
and the run still carries `id`, or has settled or handed it over. -/
theorem Inv.dispatched {m m' : Machine Bytes} (h : Inv d m) {id : Uuid} {o : Outcome}
    {pc pc' : DispatchPc} (hs : DispatchStep d id o m.world pc m'.world pc')
    (hsweep : m'.sweep = m.sweep) (hnow : m.world.now ≤ m'.world.now)
    (hother : ∀ k, k ≠ id → m.Carried d k → m'.Carried d k)
    (hid : Settled m'.world id ∨ m'.Carried d id) : Inv d m' := by
  refine h.keep hsweep hnow fun n hn hlive => ?_
  have hget := mem_rows_iff.mp hn
  by_cases hk : n.id = id
  · rcases hid with hsettled | hc
    · rw [hk] at hget
      rw [hsettled n hget] at hlive
      cases hlive
    · exact .inl (hk ▸ hc)
  · rw [hs.frame hk] at hget
    exact .inr ⟨mem_rows_iff.mpr hget, hother n.id hk⟩

theorem inv_task (routes : Routes d.topology) {m : Machine Bytes} (h : Inv d m) {i : Nat}
    {o : Outcome} {id : Uuid} {pc pc' : DispatchPc} {w : World Bytes}
    (hi : m.tasks[i]? = some (id, pc)) (hs : DispatchStep d id o m.world pc w pc')
    (hok : ¬ (o.failed ∧ pc.kind.any OpKind.lossy)) :
    Inv d { m with world := w, tasks := m.tasks.set i (id, pc') } := by
  refine h.dispatched hs rfl (Int.le_of_eq hs.now_eq.symm) ?_ ?_
  · rintro k hk (ht | hdl | htask | hcall)
    · exact .inl (ht.mono (hs.grows routes))
    · exact .inr (.inl hdl)
    · rcases Slots.exists_mem_set hi htask with ⟨hid, -⟩ | htask
      · exact absurd hid.symm hk
      · exact .inr (.inr (.inl htask))
    · exact .inr (.inr (.inr hcall))
  · cases hpc' : pc'.result with
    | none => exact .inr (.inr (.inr (.inl ⟨_, Slots.mem_set_self hi, rfl, hpc'⟩)))
    | some r =>
      rw [DispatchPc.eq_done hpc'] at hs
      exact (hs.handsOver routes (.inr hok)).imp_right .inl

theorem inv_process (routes : Routes d.topology) {m : Machine Bytes} (h : Inv d m) {i : Nat}
    {o : Outcome} {dl : DeliveryPc Bytes} {id : Uuid} {pc' : DispatchPc} {w : World Bytes}
    (hi : m.deliveries[i]? = some dl) (hid : d.taskId dl.message = some id)
    (hs : DispatchStep d id o m.world dl.pc w pc')
    (hok : dl.held = false → ¬ (o.failed ∧ dl.pc.kind.any OpKind.lossy)) :
    Inv d { m with world := w, deliveries := m.deliveries.set i { dl with pc := pc' } } := by
  refine h.dispatched hs rfl (Int.le_of_eq hs.now_eq.symm) ?_ ?_
  · rintro k hk (ht | hdl | htask | hcall)
    · exact .inl (ht.mono (hs.grows routes))
    · rcases Slots.exists_mem_set hi hdl with ⟨hk', -⟩ | hdl
      · exact absurd (Option.some.inj (hk'.symm.trans hid)) hk
      · exact .inr (.inl hdl)
    · exact .inr (.inr (.inl htask))
    · exact .inr (.inr (.inr hcall))
  · have carries : ∀ {r}, pc'.result = r → (r = none ∨ dl.held = true ∧ ∃ e, r = some (.error e)) →
        Machine.Carried d { m with
          world := w, deliveries := m.deliveries.set i { dl with pc := pc' } } id := by
      intro r hr h
      refine .inr (.inl ⟨_, Slots.mem_set_self hi, hid, ?_⟩)
      simp only [DeliveryPc.result, hid, hr]
      rcases h with rfl | ⟨hheld, e, rfl⟩
      · exact .inl rfl
      · exact .inr ⟨hheld, rfl⟩
    cases hpc' : pc'.result with
    | none => exact .inr (carries hpc' (.inl rfl))
    | some r =>
      rw [DispatchPc.eq_done hpc'] at hs
      cases r with
      | ok => exact (hs.handsOver routes (.inl rfl)).imp_right .inl
      | error e =>
        by_cases hheld : dl.held = true
        · exact .inr (carries hpc' (.inr ⟨hheld, e, rfl⟩))
        · exact (hs.handsOver routes (.inr (hok (by simpa using hheld)))).imp_right .inl

theorem Inv.carry {m m' : Machine Bytes} (h : Inv d m) (hsweep : m'.sweep = m.sweep)
    (hnow : m'.world.now = m.world.now) (htable : m'.world.table = m.world.table)
    (hc : ∀ k, m.Carried d k → m'.Carried d k) : Inv d m' :=
  h.keep hsweep (Int.le_of_eq hnow.symm) fun _ hn _ => .inr ⟨htable ▸ hn, hc _⟩

theorem Inv.letGo {m : Machine Bytes} (h : Inv d m) {dl : DeliveryPc Bytes} {w : World Bytes}
    {ds : List (DeliveryPc Bytes)} (hgrows : m.world.Grows w) (hnow : w.now = m.world.now)
    (htable : w.table = m.world.table)
    (hothers : ∀ k, (∃ dl ∈ m.deliveries, dl.Carries d k) →
      dl.Carries d k ∨ ∃ dl ∈ ds, dl.Carries d k)
    (hback : ∀ k, dl.Carries d k → InTransit d w k) :
    Inv d { m with world := w, deliveries := ds } := by
  refine h.carry rfl hnow htable ?_
  rintro k (ht | hdl | htask | hcall)
  · exact .inl (ht.mono hgrows)
  · exact (hothers k hdl).elim (fun hc => .inl (hback k hc)) fun hdl => .inr (.inl hdl)
  · exact .inr (.inr (.inl htask))
  · exact .inr (.inr (.inr hcall))

theorem inv_call (routes : Routes d.topology) {m : Machine Bytes} (h : Inv d m) {i : Nat}
    {o : Outcome} {r : Request} {pc pc' : QueuePc} {w : World Bytes}
    (hi : m.calls[i]? = some (r, pc)) (hs : QueueStep d r o m.world pc w pc')
    (hcommit : ∀ n, pc = .create n → ∀ e, o = .failAfter e →
      n.idempotencyKey.bind m.world.table.getByIdempotencyKey ≠ none) :
    Inv d { m with world := w, calls := m.calls.set i (r, pc') } := by
  have new : ∀ {k}, pc'.Carries k → ∃ c ∈ m.calls.set i (r, pc'), c.2.Carries k :=
    fun hc => ⟨_, Slots.mem_set_self hi, hc⟩
  have kept : ∀ k, m.Carried d k →
      Machine.Carried d { m with world := w, calls := m.calls.set i (r, pc') } k := by
    rintro k (ht | hdl | htask | hcall)
    · exact .inl (ht.mono (hs.grows routes))
    · exact .inr (.inl hdl)
    · exact .inr (.inr (.inl htask))
    · rcases Slots.exists_mem_set hi hcall with hc | hcall
      · rcases hs.carries routes hc with hc | ht
        · exact .inr (.inr (.inr (new hc)))
        · exact .inl ht
      · exact .inr (.inr (.inr hcall))
  refine h.keep rfl (Int.le_of_eq hs.now_eq.symm) fun n hn _ => ?_
  rcases hs.inserts hcommit n hn with hold | hc
  · exact .inr ⟨hold, kept n.id⟩
  · exact .inl (.inr (.inr (.inr (new hc))))

theorem Inv.swept {m : Machine Bytes} (h : Inv d m) {w : World Bytes} {pc' : RecoverPc}
    (hgrows : m.world.Grows w)
    (hrows : ∀ n ∈ w.table.rows, n.status.live → ∃ n₀ ∈ m.world.table.rows, n₀.id = n.id ∧
      n₀.status.live ∧ (¬ m.Carried d n₀.id → Owed m n₀ →
        InTransit d w n.id ∨ Owed { m with world := w, sweep := pc' } n)) :
    Inv d { m with world := w, sweep := pc' } := by
  have kept : ∀ k, m.Carried d k → Machine.Carried d { m with world := w, sweep := pc' } k := by
    rintro k (ht | hrest)
    · exact .inl (ht.mono hgrows)
    · exact .inr hrest
  intro n hn hlive
  obtain ⟨n₀, hn₀, hid, hlive₀, hnext⟩ := hrows n hn hlive
  by_cases hc : m.Carried d n₀.id
  · exact .inl (kept _ (hid ▸ hc))
  · exact (hnext hc ((h n₀ hn₀ hlive₀).resolve_left hc)).imp_left .inl

theorem mem_rows_resetStuckProcessing {t : NotificationTable} {now secs : Int} {n : Notification}
    (h : n ∈ (t.resetStuckProcessing now secs).rows) (hlive : n.status.live) :
    ∃ n₀ ∈ t.rows, n₀.id = n.id ∧ n₀.status.live ∧
      (stuck now secs n₀ ∨ due now n₀ → due now n) := by
  obtain ⟨n₀, hn₀, rfl⟩ := List.mem_map.mp h
  refine ⟨n₀, hn₀, ?_⟩
  cases hs : stuck now secs n₀ with
  | false => simpa [hs] using hlive
  | true =>
    have hstatus : n₀.status = .processing := by simp_all [stuck]
    simp only [reset, due, skewTolerance, hstatus, NotificationStatus.live, if_true, true_and,
      decide_eq_true_eq]
    omega

theorem owed_loop {m : Machine Bytes} {count : Nat} {chosen : List Notification}
    (hsweep : m.sweep = .loop count chosen) {n : Notification} :
    Owed m n ↔ n.id ∈ chosen.map Notification.id := by
  unfold Owed
  rw [hsweep]
  cases chosen <;> rfl

theorem owed_trigger {m : Machine Bytes} {id : Uuid} {pc : TriggerPc} {rest : List Notification}
    {count : Nat} (hsweep : m.sweep = .trigger id pc rest count) (hpc : pc ≠ .finished)
    {n : Notification} : Owed m n ↔ n.id ∈ id :: rest.map Notification.id := by
  have htodo : (RecoverPc.trigger id pc rest count).todo = _ := RecoverPc.todo_trigger hpc
  rw [← htodo]
  unfold Owed
  rw [hsweep]

theorem inv_sweep (routes : Routes d.topology) {m : Machine Bytes} (h : Inv d m) {o : Outcome}
    {w : World Bytes} {pc' : RecoverPc} (hs : RecoverStep d o m.world m.sweep w pc')
    (hok : ∀ n ∈ m.world.table.rows, n.status.live → ¬ m.Carried d n.id →
      (m.sweep.kind = some .resetStuckProcessing →
        o = .ok ∧ (stuck m.world.now stuckProcessingSecs n ∨ due m.world.now n)) ∧
      (m.sweep.kind = some .getPendingForRetry →
        ∃ ids, o = .rows ids ∧ (due m.world.now n → n.id ∈ ids))) :
    Inv d { m with world := w, sweep := pc' } := by
  generalize hsweep : m.sweep = pc at hs hok
  cases hs with
  | @reset _ secs =>
    refine h.swept (.of_eq rfl rfl rfl) fun n hn hlive => ?_
    obtain ⟨n₀, hn₀, hid, hlive₀, hdue⟩ := mem_rows_resetStuckProcessing hn hlive
    refine ⟨n₀, hn₀, hid, hlive₀, fun hc howed => .inr (hdue ?_)⟩
    obtain rfl : secs = stuckProcessingSecs := by
      simpa only [Owed, hsweep] using howed
    exact ((hok n₀ hn₀ hlive₀ hc).1 rfl).2
  | resetFail hf =>
    refine h.swept (hf.grows (.of_eq rfl rfl rfl)) fun n hn hlive => ?_
    obtain ⟨n₀, hn₀, hid, hlive₀⟩ :
        ∃ n₀ ∈ m.world.table.rows, n₀.id = n.id ∧ n₀.status.live := by
      cases hf with
      | before => exact ⟨n, hn, rfl, hlive⟩
      | after =>
        obtain ⟨n₀, hn₀, hid, hlive₀, -⟩ := mem_rows_resetStuckProcessing hn hlive
        exact ⟨n₀, hn₀, hid, hlive₀⟩
    exact ⟨n₀, hn₀, hid, hlive₀, fun hc _ => absurd ((hok n₀ hn₀ hlive₀ hc).1 rfl).1 hf.ne_ok⟩
  | select hdue =>
    refine h.swept (.of_eq rfl rfl rfl) fun n hn hlive => ⟨n, hn, rfl, hlive, fun hc howed => ?_⟩
    obtain ⟨ids, ho, hchosen⟩ := (hok n hn hlive hc).2 rfl
    cases ho
    refine .inr ((owed_loop rfl).mpr ?_)
    rw [(getPendingForRetry_eq_some hdue).1]
    exact hchosen (by simpa only [Owed, hsweep] using howed)
  | selectFail =>
    refine h.swept (.of_eq rfl rfl rfl) fun n hn hlive => ⟨n, hn, rfl, hlive, fun hc _ => ?_⟩
    obtain ⟨ids, ho, -⟩ := (hok n hn hlive hc).2 rfl
    cases ho
  | @trigger _ _ id pc rest count _ pc' ht hne =>
    refine h.swept (ht.grows routes).1 fun n hn hlive =>
      ⟨n, ht.table_eq ▸ hn, rfl, hlive, fun _ howed => .inr ?_⟩
    exact (owed_trigger rfl hne).mpr ((owed_trigger hsweep ht.ne_finished).mp howed)
  | @triggered _ _ id pc rest count _ ht =>
    refine h.swept (ht.grows routes).1 fun n hn hlive =>
      ⟨n, ht.table_eq ▸ hn, rfl, hlive, fun _ howed => ?_⟩
    rcases List.mem_cons.mp ((owed_trigger hsweep ht.ne_finished).mp howed) with hid | hrest
    · exact .inl (hid ▸ (ht.grows routes).2 rfl)
    · exact .inr ((owed_loop rfl).mpr hrest)

theorem inv_step {m m' : Machine Bytes} {l : ServiceLabel} (hd : d.topology = documentedTopology)
    (hnormal : m.sweep.Normal) (h : Inv d m) (hok : Dutiful d (m.state d) l)
    (hs : Machine.Step d l m m') : Inv d m' := by
  have routes : Routes d.topology := hd ▸ routes_documentedTopology
  cases hs with
  | @tick _ ms =>
    exact h.keep rfl (Int.le_add_of_nonneg_right (Int.natCast_nonneg ms))
      fun n hn _ => .inr ⟨hn, id⟩
  | request =>
    refine h.carry rfl rfl rfl ?_
    rintro k (ht | hdl | htask | ⟨c, hc, hcarries⟩)
    · exact .inl ht
    · exact .inr (.inl hdl)
    · exact .inr (.inr (.inl htask))
    · exact .inr (.inr (.inr ⟨c, List.mem_append_left _ hc, hcarries⟩))
  | @call _ i o r pc _ _ hi hs =>
    refine inv_call routes h hi hs ?_
    rintro n rfl e ho
    exact hok _ (Machine.calls_state hi) n rfl e ho
  | deliver hdeliver =>
    refine h.carry rfl rfl rfl ?_
    rintro k (ht | ⟨dl, hdl, hcarries⟩ | htask | hcall)
    · rcases ht.deliver hdeliver with hid | ht
      · refine .inr (.inl ⟨_, List.mem_append_right _ (.head _), hid, .inl ?_⟩)
        simp [DeliveryPc.result, hid, DispatchPc.result]
      · exact .inl ht
    · exact .inr (.inl ⟨dl, List.mem_append_left _ hdl, hcarries⟩)
    · exact .inr (.inr (.inl htask))
    · exact .inr (.inr (.inr hcall))
  | @process _ i o dl id _ _ hi hid hs =>
    refine inv_process routes h hi hid hs fun hheld hlossy => ?_
    refine hok _ (Machine.deliveries_state hi) hheld ?_
    rwa [Lossy, dl.awaits_prog hid]
  | @settle _ i dl disposition hi hheld hresult =>
    have sent : m.world.Grows (settle d.topology dl.message disposition m.world) ∧
        ∀ k, dl.Carries d k →
          InTransit d (settle d.topology dl.message disposition m.world) k := by
      cases disposition with
      | ack =>
        refine ⟨.of_eq rfl rfl rfl, ?_⟩
        rintro k ⟨-, hnone | ⟨-, hnack⟩⟩
        · cases hresult.symm.trans hnone
        · cases hresult.symm.trans hnack
      | nackToDlx =>
        have hroute : d.topology.deadLetterRoute dispatchQueue dl.message.routingKey =
            [retryQueue] := by
          rw [hd]
          exact rejected_documentedTopology _
        obtain ⟨hgrows, ht⟩ := grows_deadLetter (d := d) m.world (.inr rfl) hroute
        exact ⟨hgrows, fun k hc => ht k hc.1⟩
    refine h.letGo sent.1 ?_ ?_ (fun _ => Slots.exists_mem_eraseIdx hi) sent.2
    · cases disposition <;> rfl
    · cases disposition <;> rfl
  | settleLoose hi hheld hresult =>
    refine h.letGo (.of_eq rfl rfl rfl) rfl rfl (fun _ => Slots.exists_mem_eraseIdx hi) ?_
    rintro k ⟨-, hnone | ⟨hheld', -⟩⟩
    · cases hresult.symm.trans hnone
    · rw [hheld] at hheld'
      cases hheld'
  | @takeBack _ i dl hi hheld =>
    obtain ⟨hgrows, hback⟩ := grows_requeue (d := d) dl.message m.world
    exact h.letGo hgrows rfl rfl (fun _ => Slots.exists_mem_set hi) fun k hc => hback k hc.1
  | @giveBack _ i dl hi hheld hload =>
    obtain ⟨hgrows, hback⟩ := grows_requeue (d := d) dl.message m.world
    exact h.letGo hgrows rfl rfl (fun _ => Slots.exists_mem_eraseIdx hi) fun k hc => hback k hc.1
  | expire hexpire =>
    obtain ⟨msg, b₁, e, hdeliver, -, -, rfl⟩ := Broker.expireHead_eq_some.mp hexpire
    obtain ⟨hgrows, hback⟩ := grows_deadLetter (d := d) { m.world with broker := b₁ } (.inl rfl)
      (routes.expired msg.routingKey)
    refine h.carry rfl rfl rfl ?_
    rintro k (ht | hrest)
    · rcases ht.deliver hdeliver with hid | ht
      · exact .inl (hback k hid)
      · exact .inl (ht.mono hgrows)
    · exact .inr hrest
  | @start _ i id hi =>
    refine h.carry rfl rfl rfl ?_
    rintro k ((hqueued | hspawned | hsleeping) | hdl | ⟨t, ht, hc⟩ | hcall)
    · exact .inl (.inl hqueued)
    · rcases Slots.exists_mem_eraseIdx hi (P := (· = k)) ⟨k, hspawned, rfl⟩ with rfl | ⟨_, hk, rfl⟩
      · exact .inr (.inr (.inl ⟨(id, .load), by simp, rfl, rfl⟩))
      · exact .inl (.inr (.inl hk))
    · exact .inl (.inr (.inr hsleeping))
    · exact .inr (.inl hdl)
    · exact .inr (.inr (.inl ⟨t, List.mem_append_left _ ht, hc⟩))
    · exact .inr (.inr (.inr hcall))
  | @wake _ i id wakeAt hi hwake =>
    refine h.carry rfl rfl rfl ?_
    rintro k ((hqueued | hspawned | ⟨t, ht⟩) | hdl | ⟨t, ht, hc⟩ | hcall)
    · exact .inl (.inl hqueued)
    · exact .inl (.inr (.inl hspawned))
    · rcases Slots.exists_mem_eraseIdx hi (P := (·.1 = k)) ⟨(k, t), ht, rfl⟩ with
        rfl | ⟨⟨_, t'⟩, hk, rfl⟩
      · exact .inr (.inr (.inl ⟨(id, .load), by simp, rfl, rfl⟩))
      · exact .inl (.inr (.inr ⟨t', hk⟩))
    · exact .inr (.inl hdl)
    · exact .inr (.inr (.inl ⟨t, List.mem_append_left _ ht, hc⟩))
    · exact .inr (.inr (.inr hcall))
  | @task _ i o id pc _ _ hi hs =>
    refine inv_task routes h hi hs fun hlossy => ?_
    refine hok _ (Machine.tasks_state hi) ?_
    rwa [Lossy, DispatchPc.awaits_prog]
  | sweep hs =>
    refine inv_sweep routes h hs fun n hn hlive hc => ?_
    have := hok n hn hlive (by rwa [carried_state])
    rwa [show (m.state d).sweep.prog = m.sweep.prog d.mq from rfl,
      RecoverPc.awaits_prog d.mq hnormal] at this
  | crash => exact fun n _ _ => .inr rfl

theorem inv_initial (w : World Bytes) (htable : w.table = .empty) : Inv d (.initial w) := by
  intro n hn
  rw [show (Machine.initial w).world.table = .empty from htable] at hn
  cases hn

theorem inv_reachable (hd : d.topology = documentedTopology) {s : ServiceState Bytes}
    (h : (serviceSystem d).Reachable (Dutiful d) s) :
    ∃ m, s = m.state d ∧ m.sweep.Normal ∧ Inv d m := by
  obtain ⟨m, hm, hnormal, -, hinv⟩ := Machine.invariant
    (I := fun m => m.sweep.Normal ∧ Inv d m)
    (fun w htable _ _ _ => ⟨trivial, inv_initial w htable⟩)
    (fun _ _ _ hI hok hs => ⟨hs.normal hI.1, inv_step hd hI.1 hI.2 hok hs⟩) h
  exact ⟨m, hm, hnormal, hinv⟩

theorem not_owed {m : Machine Bytes} (hnormal : m.sweep.Normal)
    (hdone : (m.sweep.prog d.mq).isDone) (n : Notification) : ¬ Owed m n := by
  intro howed
  rw [RecoverPc.isDone_prog d.mq hnormal] at hdone
  unfold Owed at howed
  cases hsweep : m.sweep with
  | trigger id pc rest count =>
    rw [hsweep] at hdone hnormal
    cases pc with
    | finished => exact hnormal
    | _ => cases hdone
  | done r =>
    rw [hsweep] at howed
    cases howed
  | _ =>
    rw [hsweep] at hdone
    cases hdone

end Stranded

/-- While every place where the duty could be dropped is passed safely, no live row is
left without a carrier. -/
theorem service_noneStranded (codec : TaskCodec Bytes) (mq : Bool) (s : ServiceState Bytes)
    (h : (serviceSystem (.documented codec mq)).Reachable (Dutiful (.documented codec mq)) s) :
    NoneStranded (.documented codec mq) s := by
  obtain ⟨m, rfl, hnormal, hinv⟩ := Stranded.inv_reachable rfl h
  intro hdone n hn hlive
  rw [carried_state]
  exact (hinv n hn hlive).resolve_right (Stranded.not_owed hnormal hdone n)

/-- A row is stored, published, delivered and marked, and no call fails. -/
theorem service_noneStranded_inDelivery :
    ∃ s, (serviceSystem (.documented .plain true)).Reachable
        (Dutiful (.documented .plain true)) s ∧
      s.sweep.prog.isDone = true ∧ s.world.table.rows.map Notification.status = [.processing] ∧
      NoneStranded (.documented .plain true) s := by
  let smooth (s : ServiceState NotificationTask) : ServiceLabel → Bool
    | .call _ o | .process _ o | .task _ o => !o.failed
    | .sweep _ => s.world.table.rows.isEmpty
    | _ => true
  have dutiful : ∀ s l, smooth s l = true → Dutiful (.documented .plain true) s l := by
    intro s l hl
    cases l with
    | call i o =>
      rintro c - n - e rfl
      cases hl
    | process i o =>
      rintro dl - - ⟨hfailed, -⟩
      simp [smooth, hfailed] at hl
    | task i o =>
      rintro t - ⟨hfailed, -⟩
      simp [smooth, hfailed] at hl
    | sweep o =>
      intro n hn
      rw [List.isEmpty_iff.mp hl] at hn
      cases hn
    | _ => trivial
  obtain ⟨s, hrun, hdone, hrows⟩ : ∃ s, (serviceSystem (.documented .plain true)).runWhen smooth
      (.start true)
      [.sweep .ok, .sweep (.rows []), .request .sample, .call 0 (.fresh ⟨1⟩), .call 0 .ok,
        .call 0 .ok, .call 0 .ok, .call 0 .ok, .call 0 .ok, .call 0 .ok, .deliver,
        .process 0 .ok, .process 0 .ok] = some s ∧
      s.sweep.prog.isDone = true ∧ s.world.table.rows.map Notification.status = [.processing] :=
    ⟨_, rfl, rfl, rfl⟩
  have reach := (ServiceState.reachable_start (.documented .plain true) _).runWhen dutiful hrun
  exact ⟨s, reach, hdone, hrows, service_noneStranded .plain true s reach⟩

/-- The publish fails, the in-process dispatch that replaces it cannot load the row, and
its error is dropped: the row stays `Pending`, and nothing carries it. -/
theorem service_strands : ∃ s, (serviceSystem (.documented .plain true)).Reachable
    System.always s ∧ ¬ NoneStranded (.documented .plain true) s := by
  obtain ⟨s, hrun, hdone, hrows, hworld, hdeliveries, htasks, hcalls⟩ :
      ∃ s, (serviceSystem (.documented .plain true)).run (.start true)
        [.sweep .ok, .sweep (.rows []), .request .sample, .call 0 (.fresh ⟨1⟩), .call 0 .ok,
          .call 0 .ok, .call 0 .ok, .call 0 .ok, .call 0 .ok,
          .call 0 (.fail (.internal "connection reset")), .call 0 .ok, .start 0,
          .task 0 (.fail (.database "connection reset"))] = some s ∧
        s.sweep.prog.isDone = true ∧
        s.world.table.rows = [insertedRow (Request.sample.notification ⟨1⟩ 0 0 0)] ∧
        (s.world.broker = .empty ∧ s.world.spawned = [] ∧ s.world.sleepers = []) ∧
        s.deliveries = [] ∧ s.tasks = [⟨⟨1⟩, .done (.error (.database "connection reset"))⟩] ∧
        s.calls = [⟨none, .done (.ok ⟨1⟩)⟩] :=
    ⟨_, rfl, rfl, rfl, ⟨rfl, rfl, rfl⟩, rfl, rfl, rfl⟩
  refine ⟨s, System.Reachable.run (ServiceState.reachable_start _ _) hrun, fun h => ?_⟩
  have hc := h hdone _ (hrows ▸ List.mem_singleton_self _) rfl
  obtain ⟨hbroker, hspawned, hsleepers⟩ := hworld
  simp [Carried, InTransit, hbroker, hspawned, hsleepers, hdeliveries, htasks, hcalls,
    Broker.empty, Task.Carries, Call.Carries, Program.isDone] at hc

end NotiService
