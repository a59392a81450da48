import NotiService.Backoff
import Mathlib.Algebra.Order.BigOperators.Group.List
import Mathlib.Algebra.Order.Group.Nat

/-! The burden of a notification: a bound on the steps that may still be taken for it, at
the broker, in the tasks and in the calls that are under way. A dispatch whose send fails
leaves a retry behind, and a publish that reports an error after its effect leaves two; each
of them starts with fewer retries left. So every step for a notification takes something off
its burden, and no other step adds to it. -/

namespace NotiService
open Foundation Orchestrator Amqp RabbitMQ Consumer Service NotificationTable

variable {Bytes : Type}

def Notification.retriesLeft (n : Notification) : Nat := (maxRetries - n.retryCount).toNat

/-- The burden of a failed send with so many retries left. -/
def retryBurden : Nat → Nat
  | 0 => 0
  | left + 1 => 2 * (retryBurden left + 6) + 7

def loadBurden (left : Nat) : Nat := retryBurden left + 6

theorem retryBurden_le {left left' : Nat} (h : left' ≤ left) :
    retryBurden left' ≤ retryBurden left := by
  induction h with
  | refl => exact Nat.le_refl _
  | step _ ih =>
    rw [retryBurden]
    omega

theorem retryBurden_pos {left : Nat} (h : 0 < left) :
    retryBurden left = 2 * loadBurden (left - 1) + 7 := by
  obtain ⟨left, rfl⟩ := Nat.exists_eq_succ_of_ne_zero (Nat.ne_of_gt h)
  rfl

theorem loadBurden_le {left left' : Nat} (h : left' ≤ left) : loadBurden left' ≤ loadBurden left :=
  Nat.add_le_add_right (retryBurden_le h) 6

def World.retriesLeft (w : World Bytes) (id : Uuid) : Nat :=
  (w.table.getById id).elim 0 Notification.retriesLeft

theorem World.RetriesGrow.retriesLeft {w w' : World Bytes} (h : w.RetriesGrow w') {id : Uuid}
    (hrow : w.table.getById id ≠ none) : w'.retriesLeft id ≤ w.retriesLeft id := by
  obtain ⟨n, hn⟩ := Option.ne_none_iff_exists'.mp hrow
  obtain ⟨n', hn', hle⟩ := h id n hn
  rw [World.retriesLeft, World.retriesLeft, hn, hn']
  simp only [Option.elim_some, Notification.retriesLeft]
  omega

/-- Where the row was read, the retries it had left then count. Once a retry is recorded,
those it has left now do. -/
def DispatchPc.burden (left : Nat) : DispatchPc → Nat
  | .load => loadBurden left
  | .mark n => retryBurden n.retriesLeft + 5
  | .render n => retryBurden n.retriesLeft + 4
  | .encode n _ => retryBurden n.retriesLeft + 3
  | .send n _ => retryBurden n.retriesLeft + 2
  | .giveUp _ | .succeed _ => 1
  | .clock n _ => 2 * loadBurden (n.retriesLeft - 1) + 8
  | .bump n _ _ => 2 * loadBurden (n.retriesLeft - 1) + 7
  | .repend _ _ => 2 * loadBurden left + 6
  | .schedule _ => 2 * loadBurden left + 5
  | .fallback _ => loadBurden left + 2
  | .done _ => 0

def TriggerPc.burden (left : Nat) : TriggerPc → Nat
  | .enter => 2 * loadBurden left + 6
  | .publish => 2 * loadBurden left + 5
  | .spawn => loadBurden left + 2
  | .finished => 0

def QueuePc.burden (left : Nat) : QueuePc → Nat
  | .ident | .done _ => 0
  | .clock _ => 2 * loadBurden left + 11
  | .clock₂ _ _ => 2 * loadBurden left + 10
  | .clock₃ _ _ _ => 2 * loadBurden left + 9
  | .create _ => 2 * loadBurden left + 8
  | .cache _ _ => 2 * loadBurden left + 7
  | .trigger _ pc => pc.burden left

section Monotone

variable {left left' : Nat} (h : left' ≤ left)
include h

theorem DispatchPc.burden_le (pc : DispatchPc) : pc.burden left' ≤ pc.burden left := by
  have hload := loadBurden_le h
  cases pc <;> simp only [DispatchPc.burden] <;> omega

theorem QueuePc.burden_le (pc : QueuePc) : pc.burden left' ≤ pc.burden left := by
  have hload := loadBurden_le h
  cases pc with
  | trigger id pc => cases pc <;> simp only [QueuePc.burden, TriggerPc.burden] <;> omega
  | _ =>
    simp only [QueuePc.burden]
    omega

end Monotone

def World.burden (d : Deployment Bytes) (left : Nat) (w : World Bytes) (id : Uuid) : Nat :=
  (w.broker.ready dispatchQueue).countP (d.taskId · = some id) * (loadBurden left + 1) +
    (w.broker.ready retryQueue).countP (d.taskId · = some id) * (loadBurden left + 2) +
    (w.spawned.countP (· = id) + w.sleepers.countP (·.1 = id)) * (loadBurden left + 1)

def DeliveryPc.burden (d : Deployment Bytes) (left : Nat) (id : Uuid) (dl : DeliveryPc Bytes) :
    Nat :=
  if d.taskId dl.message = some id then dl.pc.burden left else 0

def taskBurden (left : Nat) (id : Uuid) (t : Uuid × DispatchPc) : Nat :=
  if t.1 = id then t.2.burden left else 0

def callBurden (left : Nat) (id : Uuid) (c : Request × QueuePc) : Nat :=
  if c.2.id = some id then c.2.burden left else 0

theorem callBurden_own {left : Nat} {id : Uuid} {r : Request} {pc : QueuePc}
    (h : pc.id = some id) : callBurden left id (r, pc) = pc.burden left := if_pos h

theorem callBurden_other {left : Nat} {id : Uuid} {r : Request} {pc : QueuePc}
    (h : pc.id ≠ some id) : callBurden left id (r, pc) = 0 := if_neg h

namespace Machine

def burdenAt (d : Deployment Bytes) (left : Nat) (m : Machine Bytes) (id : Uuid) : Nat :=
  m.world.burden d left id + (m.deliveries.map (DeliveryPc.burden d left id)).sum +
    (m.tasks.map (taskBurden left id)).sum + (m.calls.map (callBurden left id)).sum

def burden (d : Deployment Bytes) (m : Machine Bytes) (id : Uuid) : Nat :=
  m.burdenAt d (m.world.retriesLeft id) id

end Machine

section Monotone

variable {left left' : Nat} (h : left' ≤ left) (d : Deployment Bytes) (id : Uuid)
include h

theorem World.burden_le (w : World Bytes) : w.burden d left' id ≤ w.burden d left id := by
  have hload := loadBurden_le h
  exact Nat.add_le_add (Nat.add_le_add (Nat.mul_le_mul_left _ (by omega))
    (Nat.mul_le_mul_left _ (by omega))) (Nat.mul_le_mul_left _ (by omega))

theorem Machine.burdenAt_le (m : Machine Bytes) : m.burdenAt d left' id ≤ m.burdenAt d left id := by
  have hpc : ∀ (p : Prop) [Decidable p] (a b : Nat), a ≤ b →
      (if p then a else 0) ≤ if p then b else 0 := by
    intro p _ a b hab
    split <;> omega
  exact Nat.add_le_add (Nat.add_le_add (Nat.add_le_add (World.burden_le h d id _)
    (List.sum_le_sum fun dl _ => hpc _ _ _ (dl.pc.burden_le h)))
    (List.sum_le_sum fun t _ => hpc _ _ _ (t.2.burden_le h)))
    (List.sum_le_sum fun c _ => hpc _ _ _ (c.2.burden_le h))

end Monotone

section Steps

variable {d : Deployment Bytes} (routes : Routes d.topology) {left : Nat} {w w' : World Bytes}
  {id k : Uuid} {o : Outcome}

theorem World.burden_congr (hbroker : w'.broker.ready = w.broker.ready)
    (hspawned : w'.spawned = w.spawned) (hsleepers : w'.sleepers = w.sleepers) :
    w'.burden d left id = w.burden d left id := by
  unfold World.burden
  rw [hbroker, hspawned, hsleepers]

include routes in
theorem burden_publish (left : Nat) (id : Uuid) {task : NotificationTask} {delayMins : Int}
    {broker : Broker Bytes}
    (h : publishTask d.topology d.codec w.now task delayMins w.broker = .ok broker) :
    World.burden d left { w with broker } id ≤
      w.burden d left id + if task.notificationId = id then loadBurden left + 2 else 0 := by
  obtain ⟨payload, hbody, ⟨-, hready⟩ | ⟨-, hready⟩⟩ := publishTask_eq_ok routes h <;>
    by_cases hid : task.notificationId = id <;>
    simp [World.burden, hready, Broker.push, List.countP_append, Deployment.taskId, hbody, hid,
      dispatchQueue, retryQueue, Nat.add_mul] <;>
    omega

theorem burden_failed {e : NotiError} {w₁ : World Bytes} (h : Failed e w w₁ o w') {c : Nat}
    (hle : w₁.burden d left id ≤ w.burden d left id + c) :
    w'.burden d left id ≤ w.burden d left id + c := by
  cases h with
  | before => exact Nat.le_add_right ..
  | after => exact hle

theorem burden_spawned : World.burden d left { w with spawned := w.spawned ++ [k] } id =
    w.burden d left id + if k = id then loadBurden left + 1 else 0 := by
  simp only [World.burden, List.countP_append, List.countP_singleton, decide_eq_true_eq]
  split <;> simp only [Nat.add_mul] <;> omega

theorem burden_sleepers {t : Int} :
    World.burden d left { w with sleepers := w.sleepers ++ [(k, t)] } id =
      w.burden d left id + if k = id then loadBurden left + 1 else 0 := by
  simp only [World.burden, List.countP_append, List.countP_singleton, decide_eq_true_eq]
  split <;> simp only [Nat.add_mul] <;> omega

section Trigger

variable {pc pc' : TriggerPc}

include routes

theorem TriggerStep.burden_lt (h : TriggerStep d id o w pc w' pc') :
    w'.burden d left id + pc'.burden left < w.burden d left id + pc.burden left := by
  cases h with
  | enter =>
    have same : World.burden d left { w with triggered := w.triggered ++ [id] } id =
        w.burden d left id := World.burden_congr rfl rfl rfl
    cases hmq : d.mq <;> simp [TriggerPc.afterEnter, TriggerPc.burden, same]
    omega
  | publish hp =>
    have := burden_publish routes left id hp
    simp only [TriggerPc.burden, if_true] at this ⊢
    omega
  | publishFail hp hf =>
    have := burden_failed hf (burden_publish routes left id hp)
    simp only [TriggerPc.burden, if_true] at this ⊢
    omega
  | publishUnencoded =>
    simp only [TriggerPc.burden]
    omega
  | spawn =>
    simp only [TriggerPc.burden, burden_spawned, if_true]
    omega

theorem TriggerStep.burden_le (h : TriggerStep d id o w pc w' pc') (hk : id ≠ k) :
    w'.burden d left k ≤ w.burden d left k := by
  cases h with
  | publish hp => simpa [hk] using burden_publish routes left k hp
  | publishFail hp hf =>
    simpa [hk] using burden_failed hf (burden_publish routes left k hp)
  | spawn => rw [burden_spawned, if_neg hk, Nat.add_zero]
  | _ => exact Nat.le_refl _

end Trigger

section Dispatch

variable {pc pc' : DispatchPc}

/-- The row as it was read, until a retry is recorded. -/
def DispatchPc.read : DispatchPc → Option Notification
  | .mark n | .render n | .encode n _ | .send n _ | .clock n _ | .bump n _ _ => some n
  | _ => none

def DispatchPc.Behind (w : World Bytes) (id : Uuid) (pc : DispatchPc) : Prop :=
  ∀ n, pc.read = some n → ∃ row, w.table.getById id = some row ∧ n.retryCount ≤ row.retryCount

theorem DispatchPc.Behind.step (h : pc.Behind w id) (hgrow : w.RetriesGrow w') :
    pc.Behind w' id := by
  intro n hn
  obtain ⟨row, hrow, hle⟩ := h n hn
  obtain ⟨row', hrow', hle'⟩ := hgrow id row hrow
  exact ⟨row', hrow', Int.le_trans hle hle'⟩

theorem DispatchStep.behind (hs : DispatchStep d id o w pc w' pc') (h : pc.Behind w id) :
    pc'.Behind w' id := by
  have read : ∀ n, pc'.read = some n → pc.read = some n ∨ w.table.getById id = some n := by
    intro n hn
    cases hs with
    | load hrow => exact .inr (Option.some.inj hn ▸ hrow)
    | @render _ n₀ content =>
      revert hn
      exact DispatchPc.afterRender_ok n₀ content (fun _ h => .inl h) fun _ h => .inl h
    | repend => cases hmq : d.mq <;> simp [DispatchPc.retryVia, hmq, DispatchPc.read] at hn
    | mark | encode | sendFail | clock => exact .inl hn
    | _ => cases hn
  have before : pc'.Behind w id := fun n hn =>
    (read n hn).elim (h n) fun hrow => ⟨n, hrow, Int.le_refl _⟩
  exact before.step hs.retriesGrow

theorem retriesLeft_incrementRetry {n row : Notification} {t : Int}
    (hrow : w.table.getById id = some row) (hle : n.retryCount ≤ row.retryCount) :
    (w.incrementRetry id t).retriesLeft id ≤ n.retriesLeft - 1 := by
  simp only [World.retriesLeft, World.getById_incrementRetry, if_true, hrow, Option.map_some,
    Option.elim_some, Notification.retriesLeft, withRetry]
  omega

include routes

theorem DispatchStep.burden_lt (h : DispatchStep d id o w pc w' pc') (hread : pc.Behind w id)
    (hleft : left = w'.retriesLeft id) :
    w'.burden d left id + pc'.burden left < w.burden d left id + pc.burden left := by
  have ends : ∀ {e w₁ r}, Failed e w w₁ o w' → w₁.broker = w.broker → w₁.spawned = w.spawned →
      w₁.sleepers = w.sleepers → 0 < pc.burden left →
      w'.burden d left id + (DispatchPc.done r).burden left <
        w.burden d left id + pc.burden left := by
    intro e w₁ r hf hbroker hspawned hsleepers hpos
    have hle : w'.burden d left id ≤ w.burden d left id + 0 :=
      burden_failed hf (Nat.le_of_eq (World.burden_congr (by rw [hbroker]) hspawned hsleepers))
    change w'.burden d left id + 0 < _
    omega
  cases h with
  | @load _ n hn =>
    obtain rfl : left = n.retriesLeft := by
      simpa only [World.retriesLeft, hn, Option.elim_some] using hleft
    simp only [DispatchPc.burden, loadBurden]
    omega
  | loadTerminal | loadMissing => simp only [DispatchPc.burden, loadBurden]; omega
  | loadFail hf => exact ends hf rfl rfl rfl (Nat.succ_pos _)
  | markFail hf | giveUpFail hf | succeedFail hf | bumpFail hf | rependFail hf =>
    exact ends hf rfl rfl rfl (Nat.succ_pos _)
  | @render _ n content =>
    refine DispatchPc.afterRender_ok n content (fun _ => ?_) fun _ => ?_ <;>
      simp only [DispatchPc.burden] <;> omega
  | @sendFail _ n _ _ hmax =>
    have hpos : 0 < n.retriesLeft := Int.lt_toNat.mpr (Int.sub_pos.mpr hmax)
    have := retryBurden_pos hpos
    simp only [DispatchPc.burden, this]
    omega
  | @bump _ n e now =>
    obtain ⟨row, hrow, hle⟩ := hread n rfl
    have := loadBurden_le (hleft ▸ retriesLeft_incrementRetry hrow hle)
    simp only [DispatchPc.burden, World.burden, World.incrementRetry]
    omega
  | repend =>
    cases hmq : d.mq with
    | false =>
      simp [DispatchPc.retryVia, DispatchPc.burden, World.burden, World.updateStatus]
      omega
    | true => simp [DispatchPc.retryVia, DispatchPc.burden, World.burden, World.updateStatus]
  | schedule hp =>
    have := burden_publish routes left id hp
    simp only [DispatchPc.burden, if_true] at this ⊢
    omega
  | scheduleFail hp hf =>
    have := burden_failed hf (burden_publish routes left id hp)
    simp only [DispatchPc.burden, if_true] at this ⊢
    omega
  | fallback =>
    simp only [DispatchPc.burden, burden_sleepers, if_true]
    omega
  | _ =>
    simp only [DispatchPc.burden, World.burden, World.updateStatus]
    omega

theorem DispatchStep.burden_le (h : DispatchStep d id o w pc w' pc') (hk : id ≠ k) :
    w'.burden d left k ≤ w.burden d left k := by
  cases h with
  | schedule hp => simpa [hk] using burden_publish routes left k hp
  | scheduleFail hp hf =>
    simpa [hk] using burden_failed hf (burden_publish routes left k hp)
  | fallback => rw [burden_sleepers, if_neg hk, Nat.add_zero]
  | loadFail hf | markFail hf | giveUpFail hf | succeedFail hf | bumpFail hf | rependFail hf =>
    exact burden_failed (c := 0) hf (Nat.le_refl _)
  | _ => exact Nat.le_refl _

end Dispatch

section Queue

variable {r : Request} {pc pc' : QueuePc}

include routes

theorem QueueStep.burden_lt (h : QueueStep d r o w pc w' pc') (hid : pc.id = some id) :
    w'.burden d left id + callBurden left id (r, pc') <
      w.burden d left id + callBurden left id (r, pc) := by
  rw [callBurden_own hid]
  have own : ∀ pc' : QueuePc, callBurden left id (r, pc') ≤ pc'.burden left := by
    intro pc'
    rw [callBurden]
    split
    · exact Nat.le_refl _
    · exact Nat.zero_le _
  refine Nat.lt_of_le_of_lt (Nat.add_le_add_left (own pc') _) ?_
  cases h with
  | @create _ n row =>
    have : (QueuePc.afterCreate n (.ok row)).burden left ≤ 2 * loadBurden left + 7 := by
      by_cases hid : row.id = n.id
      · cases hkey : n.idempotencyKey <;>
          simp [QueuePc.afterCreate, hid, hkey, QueuePc.burden, TriggerPc.burden]
      · simp [QueuePc.afterCreate_other hid, QueuePc.burden]
    simp only [QueuePc.burden, World.burden] at this ⊢
    omega
  | @createFail _ _ n row table e _ hc hf =>
    have : w'.burden d left id ≤ w.burden d left id + 0 := burden_failed hf (Nat.le_refl _)
    simp only [QueuePc.burden]
    omega
  | @trigger _ _ id' pc _ pc' ht =>
    obtain rfl : id' = id := by
      cases pc with
      | finished => cases hid
      | _ => exact Option.some.inj hid
    exact ht.burden_lt routes
  | ident => cases hid
  | _ =>
    simp only [QueuePc.burden, TriggerPc.burden]
    omega

theorem QueueStep.burden_le (h : QueueStep d r o w pc w' pc') (hid : pc.id ≠ some id)
    (hrow : w.table.getById id ≠ none) :
    w'.burden d left id + callBurden left id (r, pc') ≤
      w.burden d left id + callBurden left id (r, pc) := by
  have hrow' : w'.table.getById id ≠ none := by
    obtain ⟨n, hn⟩ := Option.ne_none_iff_exists'.mp hrow
    obtain ⟨n', hn', -⟩ := (h.noRetry id).kept n hn
    simp [hn']
  have hid' : pc'.id ≠ some id := fun hid' =>
    (Backoff.QueueStep.id h hid').elim hid hrow'
  rw [callBurden_other hid, callBurden_other hid']
  cases h with
  | createFail _ hf => exact burden_failed (c := 0) hf (Nat.le_refl _)
  | @trigger _ _ id' pc _ pc' ht =>
    have hne : id' ≠ id := by
      rintro rfl
      cases pc with
      | finished => cases ht
      | _ => exact hid rfl
    exact ht.burden_le routes hne
  | _ => exact Nat.le_refl _

end Queue

section Broker

variable {broker : Broker Bytes}

theorem burden_deliver (d : Deployment Bytes) (left : Nat) (id : Uuid) {msg : Message Bytes}
    (held : Bool) (h : w.broker.deliver dispatchQueue = some (msg, broker)) :
    World.burden d left { w with broker } id + DeliveryPc.burden d left id ⟨msg, held, .load⟩ +
      (if d.taskId msg = some id then 1 else 0) = w.burden d left id := by
  obtain ⟨rest, hready, rfl⟩ := Broker.deliver_eq_some.mp h
  simp only [World.burden, hready, Function.update_self, List.countP_cons, decide_eq_true_eq,
    DeliveryPc.burden, DispatchPc.burden,
    Function.update_of_ne (show retryQueue ≠ dispatchQueue by decide)]
  split <;> simp only [Nat.add_mul] <;> omega

include routes in
theorem burden_expire (left : Nat) (id : Uuid) {now : Int}
    (h : w.broker.expireHead d.topology retryQueue now = some broker) :
    ∃ msg, (w.broker.ready retryQueue).head? = some msg ∧
      World.burden d left { w with broker } id + (if d.taskId msg = some id then 1 else 0) =
        w.burden d left id := by
  obtain ⟨msg, b₁, e, hdeliver, -, -, rfl⟩ := Broker.expireHead_eq_some.mp h
  obtain ⟨rest, hready, rfl⟩ := Broker.deliver_eq_some.mp hdeliver
  refine ⟨msg, by rw [hready]; rfl, ?_⟩
  have hid : ∀ key t, d.taskId { msg with routingKey := key, expiry := t } = d.taskId msg :=
    fun _ _ => rfl
  simp only [World.burden, hready, Broker.deadLetter, routes.expired, Broker.pushAll,
    List.foldl_cons, List.foldl_nil, Broker.push, Function.update_self, List.countP_append,
    List.countP_cons, List.countP_nil, decide_eq_true_eq, hid,
    Function.update_of_ne (show dispatchQueue ≠ retryQueue by decide),
    Function.update_of_ne (show retryQueue ≠ dispatchQueue by decide)]
  split <;> simp only [Nat.add_mul] <;> omega

end Broker

theorem burden_start (d : Deployment Bytes) (left : Nat) (id : Uuid) {i : Nat}
    (h : w.spawned[i]? = some k) :
    World.burden d left { w with spawned := w.spawned.eraseIdx i } id +
      taskBurden left id (k, .load) + (if k = id then 1 else 0) = w.burden d left id := by
  have := Slots.countP_eraseIdx h (decide <| · = id)
  simp only [World.burden, taskBurden, DispatchPc.burden, ← this, decide_eq_true_eq]
  split <;> simp only [Nat.add_mul] <;> omega

theorem burden_wake (d : Deployment Bytes) (left : Nat) (id : Uuid) {i : Nat} {wakeAt : Int}
    (h : w.sleepers[i]? = some (k, wakeAt)) :
    World.burden d left { w with sleepers := w.sleepers.eraseIdx i } id +
      taskBurden left id (k, .load) + (if k = id then 1 else 0) = w.burden d left id := by
  have := Slots.countP_eraseIdx h fun sleeper => decide (sleeper.1 = id)
  simp only [World.burden, taskBurden, DispatchPc.burden, ← this, decide_eq_true_eq]
  split <;> simp only [Nat.add_mul] <;> omega

end Steps

theorem RecoverStep.awaits {d : Deployment Bytes} {o : Outcome} {w w' : World Bytes}
    {pc pc' : RecoverPc} (h : RecoverStep d o w pc w' pc') : pc.kind ≠ none := by
  cases h with
  | @trigger _ _ _ pc _ _ _ _ ht | @triggered _ _ _ pc _ _ _ ht =>
    cases pc with
    | finished => exact absurd rfl ht.ne_finished
    | _ => simp [RecoverPc.kind, TriggerPc.kind]
  | _ => simp [RecoverPc.kind]

/-- The steps that bring one of the programs of `id` forward. -/
def WorksOn (d : Deployment Bytes) (s : ServiceState Bytes) (id : Uuid) : ServiceLabel → Prop
  | .call i _ => ∃ c, s.calls[i]? = some c ∧ c.id = some id
  | .process i _ => ∃ dl, s.deliveries[i]? = some dl ∧ d.taskId dl.message = some id
  | .start i => s.world.spawned[i]? = some id
  | .wake i => ∃ wakeAt, s.world.sleepers[i]? = some (id, wakeAt)
  | .task i _ => ∃ t, s.tasks[i]? = some t ∧ t.id = id
  | _ => False

/-- So does the broker when it lets go of a task for `id`. -/
def Advances (d : Deployment Bytes) (s : ServiceState Bytes) (id : Uuid) : ServiceLabel → Prop
  | .deliver => ∃ msg, (s.world.broker.ready dispatchQueue).head? = some msg ∧
      d.taskId msg = some id
  | .expire => ∃ msg, (s.world.broker.ready retryQueue).head? = some msg ∧ d.taskId msg = some id
  | l => WorksOn d s id l

theorem WorksOn.advances {d : Deployment Bytes} {s : ServiceState Bytes} {id : Uuid}
    {l : ServiceLabel} (h : WorksOn d s id l) : Advances d s id l := by
  cases l with
  | deliver | expire => exact h.elim
  | _ => exact h

/-- The process and its connection to the broker live on. -/
def Undropped : ServiceLabel → Prop
  | .crash | .takeBack _ _ => False
  | _ => True

namespace Machine

variable {d : Deployment Bytes} {m m' : Machine Bytes} {l : ServiceLabel} {id : Uuid} {left : Nat}

structure Behind (d : Deployment Bytes) (m : Machine Bytes) : Prop where
  deliveries : ∀ dl ∈ m.deliveries, ∀ id, d.taskId dl.message = some id → dl.pc.Behind m.world id
  tasks : ∀ t ∈ m.tasks, t.2.Behind m.world t.1

theorem Step.burdenAt (hd : d.topology = declaredTopology) (hs : Step d l m m')
    (hl : Undropped l) (hsweep : m.sweep.kind = none) (hbehind : m.Behind d)
    (hrow : m.world.table.getById id ≠ none) (hleft : left = m'.world.retriesLeft id) :
    m'.burdenAt d left id ≤ m.burdenAt d left id ∧
      (Advances d (m.state d) id l → m'.burdenAt d left id < m.burdenAt d left id) := by
  have routes : Routes d.topology := hd ▸ routes_declaredTopology
  cases hs with
  | tick => exact ⟨Nat.le_refl _, False.elim⟩
  | @request _ r =>
    have : callBurden left id (r, .ident) = 0 := callBurden_other nofun
    refine ⟨?_, False.elim⟩
    simp only [Machine.burdenAt, List.map_append, List.sum_append, List.map_cons, List.map_nil,
      List.sum_cons, List.sum_nil, this]
    omega
  | @call _ i o r pc w pc' hi hs =>
    simp only [Machine.burdenAt]
    have hset := Slots.sum_map_set (a := (r, pc')) hi (callBurden left id)
    by_cases hid : pc.id = some id
    · have : w.burden d left id + callBurden left id (r, pc') < _ := hs.burden_lt routes hid
      exact ⟨by omega, fun _ => by omega⟩
    · have : w.burden d left id + callBurden left id (r, pc') ≤ _ := hs.burden_le routes hid hrow
      refine ⟨by omega, ?_⟩
      rintro ⟨c, hc, hcid⟩
      rw [calls_state hi] at hc
      cases hc
      exact absurd hcid hid
  | @deliver _ msg broker hdeliver =>
    have := burden_deliver d left id true hdeliver
    simp only [Machine.burdenAt, List.map_append, List.sum_append, List.map_cons, List.map_nil,
      List.sum_cons, List.sum_nil]
    refine ⟨by omega, ?_⟩
    rintro ⟨msg', hmsg', hid⟩
    obtain ⟨rest, hready, -⟩ := Broker.deliver_eq_some.mp hdeliver
    obtain rfl : msg = msg' := by simpa [state, hready] using hmsg'
    rw [if_pos hid] at this
    omega
  | @process _ i o dl k w pc' hi hk hs =>
    simp only [Machine.burdenAt]
    have hset := Slots.sum_map_set (a := { dl with pc := pc' }) hi (DeliveryPc.burden d left id)
    have hread := hbehind.deliveries dl (List.mem_of_getElem? hi) k hk
    by_cases hid : k = id
    · obtain rfl := hid
      have := hs.burden_lt routes hread hleft
      simp only [DeliveryPc.burden, hk, if_true] at hset
      exact ⟨by omega, fun _ => by omega⟩
    · have : w.burden d left id ≤ _ := hs.burden_le routes hid
      have hne : d.taskId dl.message ≠ some id := by simpa [hk] using hid
      simp only [DeliveryPc.burden, hne, if_false] at hset
      refine ⟨by omega, ?_⟩
      rintro ⟨c, hc, hcid⟩
      rw [deliveries_state hi] at hc
      cases hc
      exact absurd hcid hne
  | @settle _ i dl disposition hi =>
    simp only [Machine.burdenAt]
    have hset := Slots.sum_map_eraseIdx hi (DeliveryPc.burden d left id)
    rw [hd, settle_declared]
    exact ⟨by omega, False.elim⟩
  | @settleLoose _ i dl disposition hi =>
    simp only [Machine.burdenAt]
    have hset := Slots.sum_map_eraseIdx hi (DeliveryPc.burden d left id)
    exact ⟨by omega, False.elim⟩
  | takeBack | giveBack | crash => exact hl.elim
  | expire hexpire =>
    simp only [Machine.burdenAt]
    obtain ⟨msg, hmsg, this⟩ := burden_expire routes left id hexpire
    refine ⟨by omega, ?_⟩
    rintro ⟨msg', hmsg', hid⟩
    obtain rfl : msg = msg' := Option.some.inj (hmsg.symm.trans hmsg')
    rw [if_pos hid] at this
    omega
  | @start _ i k hi =>
    have := burden_start d left id hi
    simp only [Machine.burdenAt, List.map_append, List.sum_append, List.map_cons, List.map_nil,
      List.sum_cons, List.sum_nil]
    refine ⟨by omega, fun hk => ?_⟩
    obtain rfl : k = id := Option.some.inj (hi.symm.trans hk)
    simp only [if_true] at this ⊢
    omega
  | @wake _ i k wakeAt hi hwake =>
    have := burden_wake d left id hi
    simp only [Machine.burdenAt, List.map_append, List.sum_append, List.map_cons, List.map_nil,
      List.sum_cons, List.sum_nil]
    refine ⟨by omega, ?_⟩
    rintro ⟨t, hk⟩
    obtain rfl : k = id := congrArg Prod.fst (Option.some.inj (hi.symm.trans hk))
    simp only [if_true] at this ⊢
    omega
  | @task _ i o k pc w pc' hi hs =>
    simp only [Machine.burdenAt]
    have hset := Slots.sum_map_set (a := (k, pc')) hi (taskBurden left id)
    have hread := hbehind.tasks _ (List.mem_of_getElem? hi)
    by_cases hid : k = id
    · obtain rfl := hid
      have := hs.burden_lt routes hread hleft
      simp only [taskBurden, if_true] at hset
      exact ⟨by omega, fun _ => by omega⟩
    · have : w.burden d left id ≤ _ := hs.burden_le routes hid
      simp only [taskBurden, hid, if_false] at hset
      refine ⟨by omega, ?_⟩
      rintro ⟨c, hc, hcid⟩
      rw [tasks_state hi] at hc
      cases hc
      exact absurd hcid hid
  | sweep hs => exact absurd hsweep hs.awaits

theorem Step.retriesGrow (hs : Step d l m m') : m.world.RetriesGrow m'.world := by
  have same : ∀ {w : World Bytes}, w.table = m.world.table → m.world.RetriesGrow w :=
    fun htable => .of_noRetry fun _ => .of_table htable
  cases hs with
  | call _ hs => exact .of_noRetry hs.noRetry
  | process _ _ hs => exact hs.retriesGrow
  | task _ hs => exact hs.retriesGrow
  | sweep hs => exact .of_noRetry hs.noRetry
  | @settle _ _ _ disposition => exact same (by cases disposition <;> rfl)
  | crash => exact same (Backoff.foldr_requeue_eq _ _).1
  | _ => exact same rfl

theorem Step.burden (hd : d.topology = declaredTopology) (hs : Step d l m m')
    (hl : Undropped l) (hsweep : m.sweep.kind = none) (hbehind : m.Behind d)
    (hrow : m.world.table.getById id ≠ none) :
    m'.burden d id ≤ m.burden d id ∧
      (Advances d (m.state d) id l → m'.burden d id < m.burden d id) := by
  obtain ⟨hle, hlt⟩ := hs.burdenAt hd hl hsweep hbehind hrow rfl
  have hleft := Machine.burdenAt_le (hs.retriesGrow.retriesLeft hrow) d id m
  exact ⟨Nat.le_trans hle hleft, fun h => Nat.lt_of_lt_of_le (hlt h) hleft⟩

theorem Step.behind (hs : Step d l m m') (h : m.Behind d) : m'.Behind d := by
  have hgrow := hs.retriesGrow
  have olds : ∀ dl ∈ m.deliveries, ∀ id, d.taskId dl.message = some id →
      dl.pc.Behind m'.world id := fun dl hdl id hid => (h.deliveries dl hdl id hid).step hgrow
  have oldt : ∀ t ∈ m.tasks, t.2.Behind m'.world t.1 := fun t ht => (h.tasks t ht).step hgrow
  have fresh : ∀ {w : World Bytes} {id}, DispatchPc.load.Behind w id := by
    intro w id n hn
    cases hn
  cases hs with
  | deliver =>
    refine ⟨fun dl hdl id hid => ?_, oldt⟩
    rcases List.mem_append.mp hdl with hdl | hdl
    · exact olds dl hdl id hid
    · rw [List.mem_singleton.mp hdl]
      exact fresh
  | @process _ i o dl k w pc' hi hk hs =>
    refine ⟨Slots.forall_mem_set (fun id hid => ?_) olds, oldt⟩
    obtain rfl := Option.some.inj (hk.symm.trans hid)
    exact hs.behind (h.deliveries dl (List.mem_of_getElem? hi) k hk)
  | settle | settleLoose | giveBack => exact ⟨Slots.forall_mem_eraseIdx olds, oldt⟩
  | @takeBack _ i dl hi hheld =>
    exact ⟨Slots.forall_mem_set (olds dl (List.mem_of_getElem? hi)) olds, oldt⟩
  | start | wake =>
    refine ⟨olds, fun t ht => ?_⟩
    rcases List.mem_append.mp ht with ht | ht
    · exact oldt t ht
    · rw [List.mem_singleton.mp ht]
      exact fresh
  | @task _ i o id pc w pc' hi hs =>
    exact ⟨olds, Slots.forall_mem_set (hs.behind (h.tasks _ (List.mem_of_getElem? hi))) oldt⟩
  | crash => exact ⟨by simp [Machine.crash], by simp [Machine.crash]⟩
  | _ => exact ⟨olds, oldt⟩

end Machine

end NotiService
