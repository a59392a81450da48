import NotiService.Carriers

/-! Rejected tasks. `noti.dispatch` is declared without a dead-letter exchange, so the
broker discards what the consumer rejects. A task leaves the broker only by an Ack
while no dispatch ends in an error: no call it makes is refused, its row exists, and it
has a retry left when a send fails. -/

namespace NotiService
open Foundation Orchestrator Amqp RabbitMQ Consumer Service NotificationTable

variable {Bytes : Type}

/-- The queued tasks of those `p` picks by tag and payload. -/
def World.copies (p : Nat → Bytes → Bool) (w : World Bytes) : Nat :=
  (w.broker.ready dispatchQueue).countP (fun m => p m.tag m.body) +
    (w.broker.ready retryQueue).countP fun m => p m.tag m.body

/-- Those the broker keeps, queued or delivered and not settled. -/
def copies (p : Nat → Bytes → Bool) (s : ServiceState Bytes) : Nat :=
  s.world.copies p + s.deliveries.countP fun dl => dl.held && p dl.message.tag dl.message.body

def acked (p : Nat → Bytes → Bool) (s : ServiceState Bytes) : ServiceLabel → Nat
  | .settle i => s.deliveries[i]?.toList.countP fun dl =>
      dl.held && p dl.message.tag dl.message.body && dl.prog.result = some .ack
  | _ => 0

/-- A task leaves the queues only by an Ack, and a rejected one is in a queue again. -/
def Retained (d : Deployment Bytes) (s : ServiceState Bytes) : Prop :=
  ∀ l t, (serviceSystem d).step s l = some t →
    (∀ p, copies p s ≤ copies p t + acked p s l) ∧
    ∀ i dl, l = .settle i → s.deliveries[i]? = some dl → dl.held →
      dl.prog.result = some .nackToDlx → ∃ queue m, (queue = dispatchQueue ∨ queue = retryQueue) ∧
        m ∈ t.world.broker.ready queue ∧ m.tag = dl.message.tag ∧ m.body = dl.message.body

/-- The calls of a dispatch whose failure is its own. -/
def OpKind.refusable : OpKind → Bool
  | .getById | .updateStatus | .incrementRetry | .render | .encodeView => true
  | _ => false

/-- The dispatch of a delivery meets no failing call but `send` and the retry's publish,
finds its row, and has a retry left if `send` fails. -/
def Unrefused (d : Deployment Bytes) (s : ServiceState Bytes) : ServiceLabel → Prop
  | .process i o => ∀ dl id, s.deliveries[i]? = some dl → d.taskId dl.message = some id →
      ((awaits dl.prog).any OpKind.refusable → o.failed = false) ∧
      (awaits dl.prog = some .getById → s.world.table.getById id ≠ none) ∧
      (awaits dl.prog = some .send → o.failed → ∀ n, s.world.table.getById id = some n →
        n.retryCount < maxRetries)
  | _ => True

/-- Not ending in an error, with a row that was retried at least as often as it was when
it was read. -/
def DispatchPc.Sound (w : World Bytes) (id : Uuid) : DispatchPc → Prop
  | .mark n | .render n | .encode n _ | .send n _ =>
    ∃ row, w.table.getById id = some row ∧ n.retryCount ≤ row.retryCount
  | .giveUp _ | .done (.error _) => False
  | _ => True

section Sound

variable {d : Deployment Bytes} {w w' : World Bytes} {id : Uuid} {o : Outcome}
  {pc pc' : DispatchPc}

theorem DispatchPc.Sound.step (h : pc.Sound w id) (hgrow : w.RetriesGrow w') : pc.Sound w' id := by
  have grown : ∀ n : Notification,
      (∃ row, w.table.getById id = some row ∧ n.retryCount ≤ row.retryCount) →
        ∃ row, w'.table.getById id = some row ∧ n.retryCount ≤ row.retryCount := by
    rintro n ⟨row, hrow, hle⟩
    obtain ⟨row', hrow', hle'⟩ := hgrow id row hrow
    exact ⟨row', hrow', Int.le_trans hle hle'⟩
  cases pc with
  | mark n | render n | encode n | send n => exact grown n h
  | done r =>
    cases r with
    | ok => trivial
    | error => exact h
  | giveUp => exact h
  | _ => trivial

theorem DispatchStep.sound (hs : DispatchStep d id o w pc w' pc') (h : pc.Sound w id)
    (hrefused : pc.kind.any OpKind.refusable → o.failed = false)
    (hrow : pc.kind = some .getById → w.table.getById id ≠ none)
    (hsend : pc.kind = some .send → o.failed → ∀ n, w.table.getById id = some n →
      n.retryCount < maxRetries) : pc'.Sound w' id := by
  have hgrow := hs.retriesGrow
  cases hs with
  | load hn => exact ⟨_, hn, Int.le_refl _⟩
  | loadMissing hn => exact hrow rfl hn
  | loadFail hf | markFail hf | giveUpFail hf | succeedFail hf | bumpFail hf | rependFail hf =>
    exact absurd (hrefused rfl) (by simp [hf.failed])
  | renderFail | encodeFail => exact absurd (hrefused rfl) (by simp [Outcome.failed])
  | mark => exact DispatchPc.Sound.step (show (DispatchPc.render _).Sound _ _ from h) hgrow
  | @render _ n content => exact DispatchPc.afterRender_ok n content (fun _ => h) fun _ => h
  | encode => exact h
  | sendExhausted hmax =>
    obtain ⟨row, hrow, hle⟩ := h
    have := hsend rfl rfl row hrow
    omega
  | giveUp => exact h
  | repend => cases hmq : d.mq <;> simp [DispatchPc.retryVia, DispatchPc.Sound]
  | _ => trivial

end Sound

namespace Rejected

variable {d : Deployment Bytes}

def Inv (d : Deployment Bytes) (m : Machine Bytes) : Prop :=
  ∀ dl ∈ m.deliveries, ∀ id, d.taskId dl.message = some id → dl.pc.Sound m.world id

theorem Inv.keep {m m' : Machine Bytes} (h : Inv d m) (hgrow : m.world.RetriesGrow m'.world)
    (hsub : m'.deliveries ⊆ m.deliveries) : Inv d m' :=
  fun dl hdl id hid => (h dl (hsub hdl) id hid).step hgrow

theorem inv_step {m m' : Machine Bytes} {l : ServiceLabel} (h : Inv d m)
    (hok : Unrefused d (m.state d) l) (hs : Machine.Step d l m m') : Inv d m' := by
  have same : ∀ {w : World Bytes}, w.table = m.world.table → m.world.RetriesGrow w :=
    fun htable => .of_noRetry fun _ => .of_table htable
  cases hs with
  | call _ hs => exact h.keep (.of_noRetry hs.noRetry) (List.Subset.refl _)
  | sweep hs => exact h.keep (.of_noRetry hs.noRetry) (List.Subset.refl _)
  | task _ hs => exact h.keep hs.retriesGrow (List.Subset.refl _)
  | deliver =>
    intro dl hdl id hid
    rcases List.mem_append.mp hdl with hdl | hdl
    · exact h dl hdl id hid
    · rw [List.mem_singleton.mp hdl]
      trivial
  | @process _ i o dl id w pc' hi hid hs =>
    intro x hx k hk
    rcases Slots.eq_or_mem_eraseIdx hx with rfl | hx
    · obtain rfl := Option.some.inj (hid.symm.trans hk)
      obtain ⟨hrefused, hrow, hsend⟩ := hok _ id (Machine.deliveries_state hi) hid
      simp only [dl.awaits_prog hid] at hrefused hrow hsend
      exact hs.sound (h dl (List.mem_of_getElem? hi) id hid) hrefused hrow hsend
    · exact (h x (List.mem_of_mem_eraseIdx hx) k hk).step hs.retriesGrow
  | @settle _ i dl disposition =>
    refine h.keep (same ?_) List.eraseIdx_subset
    cases disposition <;> rfl
  | settleLoose | giveBack => exact h.keep (same rfl) List.eraseIdx_subset
  | takeBack hi =>
    have own := h _ (List.mem_of_getElem? hi)
    exact Slots.forall_mem_set own h
  | crash => exact fun dl hdl => absurd hdl (List.not_mem_nil)
  | _ => exact h.keep (same rfl) (List.Subset.refl _)

section Copies

variable {p : Nat → Bytes → Bool} {w w' : World Bytes}

theorem copies_of_grows (h : w.Grows w') : w.copies p ≤ w'.copies p :=
  Nat.add_le_add (h.ready dispatchQueue).countP_le (h.ready retryQueue).countP_le

theorem copies_requeue (m : Message Bytes) : (requeue m w).copies p =
    w.copies p + (if p m.tag m.body then 1 else 0) := by
  simp only [World.copies, requeue, Broker.requeue]
  rw [Function.update_self, Function.update_of_ne (by decide), List.countP_cons]
  omega

theorem copies_foldr_requeue (ms : List (Message Bytes)) : (ms.foldr requeue w).copies p =
    w.copies p + ms.countP fun m => p m.tag m.body := by
  induction ms with
  | nil => rfl
  | cons m ms ih =>
    rw [List.foldr_cons, copies_requeue, ih, List.countP_cons]
    omega

theorem copies_deliver {m : Message Bytes} {queue : String} {broker : Broker Bytes}
    (hqueue : queue = dispatchQueue ∨ queue = retryQueue)
    (h : w.broker.deliver queue = some (m, broker)) :
    w.copies p = ({ w with broker } : World Bytes).copies p +
        (if p m.tag m.body then 1 else 0) := by
  obtain ⟨rest, hready, rfl⟩ := Broker.deliver_eq_some.mp h
  rcases hqueue with rfl | rfl
  · have hother := Function.update_of_ne (show retryQueue ≠ dispatchQueue by decide) rest
      w.broker.ready
    simp only [World.copies, hready, hother, Function.update_self, List.countP_cons]
    omega
  · have hother := Function.update_of_ne (show dispatchQueue ≠ retryQueue by decide) rest
      w.broker.ready
    simp only [World.copies, hready, hother, Function.update_self, List.countP_cons]
    omega

theorem copies_push (m : Message Bytes) :
    ({ w with broker := w.broker.push m dispatchQueue } : World Bytes).copies p =
      w.copies p + (if p m.tag m.body then 1 else 0) := by
  have hretry := w.broker.ready_push_of_ne m (show retryQueue ≠ dispatchQueue by decide)
  simp only [World.copies, hretry, Broker.ready_push_self, List.countP_append,
    List.countP_singleton]
  omega

end Copies

def copiesPc (p : Nat → Bytes → Bool) (m : Machine Bytes) : Nat :=
  m.world.copies p + m.deliveries.countP fun dl => dl.held && p dl.message.tag dl.message.body

theorem copies_state (p : Nat → Bytes → Bool) (m : Machine Bytes) :
    copies p (m.state d) = copiesPc p m := by
  simp only [copies, copiesPc, Machine.state, List.countP_map, Function.comp_def]

theorem result_ne_nackToDlx {m : Machine Bytes} (h : Inv d m) {dl : DeliveryPc Bytes}
    (hdl : dl ∈ m.deliveries) : dl.result d ≠ some .nackToDlx := by
  intro hresult
  unfold DeliveryPc.result at hresult
  cases hid : d.taskId dl.message with
  | none =>
    rw [hid] at hresult
    cases hresult
  | some id =>
    rw [hid] at hresult
    obtain ⟨r, hr, hdisposition⟩ := Option.map_eq_some_iff.mp hresult
    have hsound := h dl hdl id hid
    rw [DispatchPc.eq_done hr] at hsound
    cases r with
    | ok => cases hdisposition
    | error e => exact hsound

theorem copiesPc_step (hd : d.topology = declaredTopology) {m m' : Machine Bytes} {l : ServiceLabel}
    (h : Inv d m) (hs : Machine.Step d l m m') (p : Nat → Bytes → Bool) :
    copiesPc p m ≤ copiesPc p m' + acked p (m.state d) l := by
  have routes : Routes d.topology := hd ▸ routes_declaredTopology
  have grown : ∀ {w : World Bytes}, m.world.Grows w →
      m.world.copies p ≤ w.copies p := copies_of_grows
  cases hs with
  | call _ hs =>
    have := grown (hs.grows routes)
    simp only [copiesPc]
    omega
  | sweep hs =>
    have := grown (hs.grows routes)
    simp only [copiesPc]
    omega
  | task _ hs =>
    have := grown (hs.grows routes)
    simp only [copiesPc]
    omega
  | @deliver _ msg broker hdeliver =>
    have := copies_deliver (p := p) (.inl rfl) hdeliver
    simp only [copiesPc, List.countP_append, List.countP_singleton, Bool.true_and]
    omega
  | @process _ i o dl id w pc' hi hid hs =>
    have := grown (hs.grows routes)
    have hsame : (m.deliveries.set i { dl with pc := pc' }).countP
        (fun dl => dl.held && p dl.message.tag dl.message.body) =
          m.deliveries.countP fun dl => dl.held && p dl.message.tag dl.message.body :=
      Nat.add_right_cancel (Slots.countP_set hi _)
    simp only [copiesPc, hsame]
    omega
  | @settle _ i dl disposition hi hheld hresult =>
    rw [hd, settle_declared]
    have := Slots.countP_eraseIdx hi fun dl => dl.held && p dl.message.tag dl.message.body
    cases disposition with
    | nackToDlx => exact absurd hresult (result_ne_nackToDlx h (List.mem_of_getElem? hi))
    | ack =>
      have hacked : acked p (m.state d) (.settle i) =
          if p dl.message.tag dl.message.body then 1 else 0 := by
        simp [acked, Machine.deliveries_state hi, DeliveryPc.result_prog, hresult, hheld,
          List.countP_cons]
      simp only [hheld, Bool.true_and] at this
      simp only [copiesPc, hacked]
      omega
  | @settleLoose _ i dl disposition hi hheld =>
    have := Slots.countP_eraseIdx hi fun dl => dl.held && p dl.message.tag dl.message.body
    simp only [hheld, Bool.false_and] at this
    simp only [copiesPc]
    simp at this
    omega
  | @takeBack _ i dl hi hheld =>
    have := Slots.countP_set (a := { dl with held := false }) hi fun dl =>
      dl.held && p dl.message.tag dl.message.body
    simp only [hheld, Bool.true_and, Bool.false_and, Bool.false_eq_true, if_false] at this
    simp only [copiesPc, copies_requeue]
    omega
  | @giveBack _ i dl hi hheld =>
    have := Slots.countP_eraseIdx hi fun dl => dl.held && p dl.message.tag dl.message.body
    simp only [hheld, Bool.true_and] at this
    simp only [copiesPc, copies_requeue]
    omega
  | expire hexpire =>
    obtain ⟨msg, b₁, e, hdeliver, -, -, rfl⟩ := Broker.expireHead_eq_some.mp hexpire
    have hmoved : World.copies p { m.world with
        broker := b₁.deadLetter d.topology retryQueue msg } =
          World.copies p { m.world with broker := b₁ } + (if p msg.tag msg.body then 1 else 0) := by
      rw [Broker.deadLetter, routes.expired]
      exact copies_push (w := { m.world with broker := b₁ }) _
    have htaken : m.world.copies p =
        World.copies p { m.world with broker := b₁ } + (if p msg.tag msg.body then 1 else 0) :=
      copies_deliver (.inr rfl) hdeliver
    dsimp only at htaken
    simp only [copiesPc, hmoved]
    omega
  | crash =>
    have hback := copies_foldr_requeue (p := p)
      (w := { m.world with spawned := [], sleepers := [] })
      ((m.deliveries.filter DeliveryPc.held).map DeliveryPc.message)
    simp only [List.countP_map, List.countP_filter, Function.comp_def, Bool.and_comm] at hback
    simp only [copiesPc, Machine.crash, hback, List.countP_nil]
    exact Nat.le_add_right ..
  | _ => exact Nat.le_add_right ..

end Rejected

/-- While no dispatch of the consumer is refused, no task is lost. -/
theorem service_retained (codec : TaskCodec Bytes) (mq : Bool) (s : ServiceState Bytes)
    (h : (serviceSystem (.declared codec mq)).Reachable (Unrefused (.declared codec mq)) s) :
    Retained (.declared codec mq) s := by
  obtain ⟨m, rfl, hnormal, hinv⟩ := Machine.invariant (I := Rejected.Inv (.declared codec mq))
    (fun w _ _ _ _ dl hdl => absurd hdl List.not_mem_nil)
    (fun _ _ _ hI hok hs => Rejected.inv_step hI hok hs) h
  intro l t hstep
  obtain ⟨m', hs, rfl, -⟩ := Machine.step_sim hnormal hstep
  constructor
  · intro p
    rw [Rejected.copies_state, Rejected.copies_state]
    exact Rejected.copiesPc_step rfl hinv hs p
  · rintro i dl rfl hdl - hresult
    obtain ⟨dl', hi, rfl⟩ := Option.map_eq_some_iff.mp ((List.getElem?_map ..).symm.trans hdl)
    rw [DeliveryPc.result_prog] at hresult
    exact absurd hresult (Rejected.result_ne_nackToDlx hinv (List.mem_of_getElem? hi))

/-- Conversely, whatever the consumer rejects is gone. -/
theorem settle_nackToDlx_discards {codec : TaskCodec Bytes} {mq : Bool} {s t : ServiceState Bytes}
    {i : Nat} {dl : Delivery Bytes} (hdl : s.deliveries[i]? = some dl) (hheld : dl.held)
    (hresult : dl.prog.result = some .nackToDlx)
    (hstep : (serviceSystem (.declared codec mq)).step s (.settle i) = some t)
    (p : Nat → Bytes → Bool) (hp : p dl.message.tag dl.message.body) :
    copies p t + acked p s (.settle i) < copies p s := by
  have hacked : acked p s (.settle i) = 0 := by simp [acked, hdl, hresult]
  have hfewer := Slots.countP_eraseIdx hdl fun dl =>
    dl.held && p dl.message.tag dl.message.body
  simp only [hheld, hp, Bool.and_self, if_true] at hfewer
  have ht : t = { s with deliveries := s.deliveries.eraseIdx i } := by
    simp only [serviceSystem, hdl, Option.bind_some, hresult, Option.map_some, hheld, if_true,
      Option.some.injEq] at hstep
    rw [← hstep, show Deployment.topology (.declared codec mq) = declaredTopology from rfl,
      settle_declared]
  rw [ht, hacked]
  simp only [copies]
  omega

/-- A notification is sent and its task acknowledged. -/
theorem service_retained_sent :
    ∃ s, (serviceSystem (.declared .plain true)).Reachable (Unrefused (.declared .plain true)) s ∧
      copies (fun _ _ => true) s = 1 ∧ acked (fun _ _ => true) s (.settle 0) = 1 ∧
      Retained (.declared .plain true) s := by
  let smooth (s : ServiceState NotificationTask) : ServiceLabel → Bool
    | .process _ o => !o.failed && s.world.table.rows.map Notification.id = [⟨1⟩] &&
        s.deliveries.all fun dl => dl.message.body.notificationId = ⟨1⟩
    | _ => true
  have unrefused : ∀ s l, smooth s l = true → Unrefused (.declared .plain true) s l := by
    intro s l hl
    cases l with
    | process i o =>
      simp only [smooth, Bool.and_eq_true, Bool.not_eq_true', decide_eq_true_eq,
        List.all_eq_true] at hl
      obtain ⟨⟨ho, hrows⟩, hbody⟩ := hl
      rintro dl id hdl hid
      obtain rfl : id = ⟨1⟩ := (Option.some.inj hid).symm.trans
        (hbody dl (List.mem_of_getElem? hdl))
      obtain ⟨n, hn, hnid⟩ := List.mem_map.mp (hrows ▸ List.mem_singleton_self _ :
        (⟨1⟩ : Uuid) ∈ s.world.table.rows.map Notification.id)
      refine ⟨fun _ => ho, fun _ => ?_, fun _ hfailed => ?_⟩
      · rw [← hnid, mem_rows_iff.mp hn]
        nofun
      · rw [ho] at hfailed
        cases hfailed
    | _ => trivial
  obtain ⟨s, hrun, hone, hack⟩ : ∃ s, (serviceSystem (.declared .plain true)).runWhen smooth
      (.start true)
      [.sweep .ok, .sweep (.rows []), .request .sample, .call 0 (.fresh ⟨1⟩), .call 0 .ok,
        .call 0 .ok, .call 0 .ok, .call 0 .ok, .call 0 .ok, .call 0 .ok, .deliver,
        .process 0 .ok, .process 0 .ok, .process 0 (.text "hello"), .process 0 (.text "ref"),
        .process 0 .ok] = some s ∧
      copies (fun _ _ => true) s = 1 ∧ acked (fun _ _ => true) s (.settle 0) = 1 :=
    ⟨_, rfl, rfl, rfl⟩
  have reach := (ServiceState.reachable_start (.declared .plain true) _).runWhen unrefused hrun
  exact ⟨s, reach, hone, hack, service_retained .plain true s reach⟩

/-- The row cannot be loaded: the task is rejected, and the broker discards it. -/
theorem service_discards : ∃ s, (serviceSystem (.declared .plain true)).Reachable
    System.always s ∧ ¬ Retained (.declared .plain true) s := by
  obtain ⟨s, hrun, t, ht, hs, hacked, hcopies⟩ :
      ∃ s, (serviceSystem (.declared .plain true)).run (.start true)
        [.sweep .ok, .sweep (.rows []), .request .sample, .call 0 (.fresh ⟨1⟩), .call 0 .ok,
          .call 0 .ok, .call 0 .ok, .call 0 .ok, .call 0 .ok, .call 0 .ok, .deliver,
          .process 0 (.fail (.database "connection reset"))] = some s ∧
        ∃ t, (serviceSystem (.declared .plain true)).step s (.settle 0) = some t ∧
          copies (fun _ _ => true) s = 1 ∧ acked (fun _ _ => true) s (.settle 0) = 0 ∧
          copies (fun _ _ => true) t = 0 :=
    ⟨_, rfl, _, rfl, rfl, rfl, rfl⟩
  refine ⟨s, System.Reachable.run (ServiceState.reachable_start _ _) hrun, fun h => ?_⟩
  have := (h (.settle 0) t ht).1 fun _ _ => true
  omega

end NotiService
