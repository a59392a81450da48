import NotiService.Carriers
import NotiService.RetryDelay
import NotiService.RowHistory

/-! One call of a program that dispatches a notification. Its calls may fail before or after
their effect, it may stop for good between any two of them, time passes, and the rest of the
service may work on the same world meanwhile. -/

namespace NotiService
open Foundation Orchestrator Amqp RabbitMQ Consumer NotificationTable

variable {Bytes α : Type}

/-- `refused` is the row when `provider.send` failed, and that time. -/
structure CallState (Bytes α : Type) where
  world : World Bytes
  prog : Program Op α
  refused : Option (Notification × Int)

inductive CallLabel (Bytes : Type) where
  | tick (ms : Nat)
  | work (o : Outcome)
  | interfere (world : World Bytes)

def refusal (w : World Bytes) (id : Uuid) (awaited : Option OpKind) (o : Outcome)
    (refused : Option (Notification × Int)) : Option (Notification × Int) :=
  if awaited = some .send ∧ o.failed then (w.table.getById id).map fun n => (n, w.now) else refused

def callSystem (d : Deployment Bytes) (id : Uuid) (p : Program Op α) :
    System (CallState Bytes α) (CallLabel Bytes) where
  init s := s.prog = p ∧ s.refused = none
  step s
    | .tick ms => some { s with world := s.world.tick ms }
    | .work o => (Program.step (exec d o) s.prog s.world).map fun (prog, world) =>
      { world, prog, refused := refusal s.world id (awaits s.prog) o s.refused }
    | .interfere world => some { s with world }

/-- Nothing else touches the world, and what fails has had no effect. -/
def Alone (_ : CallState Bytes α) : CallLabel Bytes → Prop
  | .tick _ => True
  | .work o => ∀ e, o ≠ .failAfter e
  | .interfere _ => False

/-- While the call runs, no other dispatch works on the row. -/
def Unshared (id : Uuid) (s : CallState Bytes α) : CallLabel Bytes → Prop
  | .interfere world => s.world.Aside world id ∧ s.prog.result = none
  | _ => True

structure Notification.Unmoved (n n' : Notification) : Prop where
  status : n'.status = n.status
  retryCount : n'.retryCount = n.retryCount
  nextRetryAt : n'.nextRetryAt = n.nextRetryAt

structure Notification.Counted (n n' : Notification) (t : Int) : Prop where
  retryCount : n'.retryCount = n.retryCount + 1
  nextRetryAt : n'.nextRetryAt = t + delayMs (n.retryCount + 1)

theorem Notification.Unmoved.refl (n : Notification) : n.Unmoved n := ⟨rfl, rfl, rfl⟩

section Retry

variable {d : Deployment Bytes} {id : Uuid} {w w' : World Bytes} {o : Outcome} {pc pc' : DispatchPc}
  {refused : Option (Notification × Int)}

def Refused (w : World Bytes) (refused : Option (Notification × Int)) (row : Notification)
    (t₀ : Int) :
    Prop := refused = some (row, t₀) ∧ t₀ ≤ w.now

/-- The row as a dispatch that nothing disturbs has left it at `pc`. -/
def DispatchPc.Recording (w : World Bytes) (id : Uuid) (refused : Option (Notification × Int)) :
    DispatchPc → Prop
  | .load | .succeed _ => refused = none
  | .mark n => refused = none ∧ w.table.getById id = some n
  | .render n | .encode n _ | .send n _ => refused = none ∧ ∃ row, w.table.getById id = some row ∧
    row.status = .processing ∧ row.retryCount = n.retryCount
  | .clock n _ => ∃ row t₀, Refused w refused row t₀ ∧ w.table.getById id = some row ∧
    row.retryCount = n.retryCount
  | .bump n _ t => ∃ row t₀, Refused w refused row t₀ ∧ w.table.getById id = some row ∧
    row.retryCount = n.retryCount ∧ t₀ ≤ t ∧ t ≤ w.now
  | .repend _ _ => ∃ row t₀ row' t, Refused w refused row t₀ ∧ w.table.getById id = some row' ∧
    row'.status = row.status ∧ row.Counted row' t ∧ t₀ ≤ t ∧ t ≤ w.now
  | .schedule _ | .fallback _ | .done (.ok ()) => ∀ row t₀, refused = some (row, t₀) →
    ∃ row' t, w.table.getById id = some row' ∧ row'.status = .pending ∧ row.Counted row' t ∧
      t₀ ≤ t ∧ t ≤ w.now
  | .giveUp _ => ∀ row t₀, refused = some (row, t₀) → maxRetries ≤ row.retryCount
  | .done (.error _) => ∀ row t₀, refused = some (row, t₀) → row.retryCount < maxRetries →
    ∃ row', w.table.getById id = some row' ∧ (row.Unmoved row' ∨
      row'.status = row.status ∧ ∃ t, row.Counted row' t ∧ t₀ ≤ t ∧ t ≤ w.now)

theorem DispatchPc.Recording.tick (h : pc.Recording w id refused) (ms : Nat) :
    pc.Recording (w.tick ms) id refused := by
  have hnow : w.now ≤ (w.tick ms).now := Int.le_add_of_nonneg_right (Int.natCast_nonneg ms)
  have later : ∀ {t : Int}, t ≤ w.now → t ≤ (w.tick ms).now := fun ht => Int.le_trans ht hnow
  have hdone : (∀ row t₀, refused = some (row, t₀) → ∃ row' t, w.table.getById id = some row' ∧
      row'.status = .pending ∧ row.Counted row' t ∧ t₀ ≤ t ∧ t ≤ w.now) →
      ∀ row t₀, refused = some (row, t₀) → ∃ row' t, (w.tick ms).table.getById id = some row' ∧
        row'.status = .pending ∧ row.Counted row' t ∧ t₀ ≤ t ∧ t ≤ (w.tick ms).now := by
    intro h row t₀ hrefused
    obtain ⟨row', t, hrow', hpending, hcounted, ht₀, ht⟩ := h row t₀ hrefused
    exact ⟨row', t, hrow', hpending, hcounted, ht₀, later ht⟩
  cases pc with
  | load | mark | render | encode | send | succeed | giveUp => exact h
  | clock =>
    obtain ⟨row, t₀, ⟨hrefused, ht₀⟩, hrow⟩ := h
    exact ⟨row, t₀, ⟨hrefused, later ht₀⟩, hrow⟩
  | bump =>
    obtain ⟨row, t₀, ⟨hrefused, ht₀⟩, hrow, hcount, ht, hnow⟩ := h
    exact ⟨row, t₀, ⟨hrefused, later ht₀⟩, hrow, hcount, ht, later hnow⟩
  | repend =>
    obtain ⟨row, t₀, row', t, ⟨hrefused, ht₀⟩, hrow', hstatus, hcounted, ht, hnow⟩ := h
    exact ⟨row, t₀, row', t, ⟨hrefused, later ht₀⟩, hrow', hstatus, hcounted, ht, later hnow⟩
  | schedule | fallback => exact hdone h
  | done r =>
    cases r with
    | ok => exact hdone h
    | error =>
      intro row t₀ hrefused hlt
      obtain ⟨row', hrow', hsame | ⟨hstatus, t, hcounted, ht₀, ht⟩⟩ := h row t₀ hrefused hlt
      · exact ⟨row', hrow', .inl hsame⟩
      · exact ⟨row', hrow', .inr ⟨hstatus, t, hcounted, ht₀, later ht⟩⟩

theorem Failed.world_eq {e : NotiError} {w₁ : World Bytes} (h : Failed e w w₁ o w')
    (hok : ∀ e, o ≠ .failAfter e) : w' = w := by
  cases h with
  | before => rfl
  | after => exact absurd rfl (hok e)

theorem DispatchStep.recording (hs : DispatchStep d id o w pc w' pc')
    (h : pc.Recording w id refused)
    (hok : ∀ e, o ≠ .failAfter e) :
    pc'.Recording w' id (refusal w id pc.kind o refused) := by
  have never : refused = none → ∀ row t₀, refused ≠ some (row, t₀) := by
    rintro rfl row t₀
    exact nofun
  have exhausted : (∀ row t₀, refused = some (row, t₀) → maxRetries ≤ row.retryCount) →
      ∀ e, (DispatchPc.done (.error e)).Recording w' id refused :=
    fun h e row t₀ hrefused hlt => absurd (h row t₀ hrefused) (Int.not_le.mpr hlt)
  cases hs with
  | load hn => exact ⟨h, hn⟩
  | loadTerminal => exact fun row t₀ hsome => absurd hsome (never h row t₀)
  | loadMissing | loadFail | succeedFail =>
    exact fun row t₀ hsome => absurd hsome (never h row t₀)
  | @mark _ n =>
    obtain ⟨hnone, hrow⟩ := h
    refine ⟨hnone, withStatus w.now .processing none none n, ?_, rfl, rfl⟩
    simp only [World.getById_updateStatus, if_true, hrow, Option.map_some]
  | markFail | encodeFail => exact fun row t₀ hsome => absurd hsome (never h.1 row t₀)
  | @render _ n content => exact DispatchPc.afterRender_ok n content (fun _ => h) fun _ => h
  | renderFail => exact fun row t₀ hsome => absurd hsome (never h.1 row t₀)
  | giveUp | giveUpFail => exact exhausted h _
  | encode => exact h
  | send => exact h.1
  | sendFail =>
    obtain ⟨-, row, hrow, -, hcount⟩ := h
    refine ⟨row, w.now, ⟨?_, Int.le_refl _⟩, hrow, hcount⟩
    simp [refusal, DispatchPc.kind, Outcome.failed, hrow]
  | sendExhausted hmax =>
    obtain ⟨-, row, hrow, -, hcount⟩ := h
    intro row' t₀ hsome
    simp only [refusal, DispatchPc.kind, Outcome.failed, hrow, and_self, if_true, Option.map_some,
      Option.some.injEq, Prod.mk.injEq] at hsome
    rw [← hsome.1, hcount]
    exact hmax
  | succeed => exact fun row t₀ hsome => absurd hsome (never h row t₀)
  | clock =>
    obtain ⟨row, t₀, ⟨hrefused, ht₀⟩, hrow, hcount⟩ := h
    exact ⟨row, t₀, ⟨hrefused, ht₀⟩, hrow, hcount, ht₀, Int.le_refl _⟩
  | @bump _ n _ t =>
    obtain ⟨row, t₀, hrefused, hrow, hcount, ht₀, ht⟩ := h
    refine ⟨row, t₀, withRetry w.now (t + delayMs (n.retryCount + 1)) row, t, hrefused, ?_, rfl,
      ⟨rfl, ?_⟩, ht₀, ht⟩
    · simp only [World.incrementRetry, getById_incrementRetry, if_true, hrow, Option.map_some]
    · rw [hcount]
      rfl
  | bumpFail hf =>
    obtain ⟨row, t₀, ⟨hrefused, -⟩, hrow, -⟩ := h
    obtain rfl := hf.world_eq hok
    intro row' t₀' hsome _
    cases hrefused.symm.trans hsome
    exact ⟨row, hrow, .inl (.refl row)⟩
  | @repend _ n e =>
    obtain ⟨row, t₀, row', t, ⟨hrefused, -⟩, hrow', -, hcounted, ht₀, ht⟩ := h
    have hdone : ∀ row t₀, refused = some (row, t₀) → ∃ row' t,
        (w.updateStatus id .pending (some e.toString) none).table.getById id = some row' ∧
          row'.status = .pending ∧ row.Counted row' t ∧ t₀ ≤ t ∧ t ≤ w.now := by
      intro row₁ t₁ hsome
      cases hrefused.symm.trans hsome
      refine ⟨withStatus w.now .pending (some e.toString) none row', t, ?_, rfl,
        ⟨hcounted.retryCount, hcounted.nextRetryAt⟩, ht₀, ht⟩
      simp only [World.updateStatus, getById_updateStatus, if_true, hrow', Option.map_some]
    unfold DispatchPc.retryVia
    split <;> exact hdone
  | rependFail hf =>
    obtain ⟨row, t₀, row', t, ⟨hrefused, -⟩, hrow', hstatus, hcounted, ht₀, ht⟩ := h
    obtain rfl := hf.world_eq hok
    intro row₁ t₁ hsome _
    cases hrefused.symm.trans hsome
    exact ⟨row', hrow', .inr ⟨hstatus, t, hcounted, ht₀, ht⟩⟩
  | scheduleFail _ hf =>
    obtain rfl := hf.world_eq hok
    exact h
  | schedule | scheduleUnencoded | fallback => exact h

theorem DispatchStep.refusal_processing (hs : DispatchStep d id o w pc w' pc')
    (h : pc.Recording w id refused) (hrefused : ∀ n t₀, refused = some (n, t₀) →
    n.status = .processing) :
    ∀ n t₀, refusal w id pc.kind o refused = some (n, t₀) → n.status = .processing := by
  have sent : ∀ n c, pc = .send n c → ∀ row t₀, refusal w id pc.kind o refused = some (row, t₀) →
      row.status = .processing := by
    rintro n c rfl row t₀ hrow
    obtain ⟨-, row', hrow', hstatus, -⟩ := h
    unfold refusal at hrow
    split at hrow
    · rw [hrow', Option.map_some, Option.some.injEq, Prod.mk.injEq] at hrow
      rw [← hrow.1, hstatus]
    · exact hrefused row t₀ hrow
  cases hs with
  | send | sendFail | sendExhausted => exact sent _ _ rfl
  | _ => exact hrefused

theorem recording_reachable {s : CallState Bytes (Except NotiError Unit)}
    (h : (callSystem d id (dispatch d.mq id).run).Reachable Alone s) :
    ∃ pc : DispatchPc, s.prog = pc.prog d.mq id ∧ pc.Recording s.world id s.refused ∧
      ∀ n t₀, s.refused = some (n, t₀) → n.status = .processing := by
  refine h.invariant (P := fun s => ∃ pc : DispatchPc, s.prog = pc.prog d.mq id ∧
    pc.Recording s.world id s.refused ∧ ∀ n t₀, s.refused = some (n, t₀) →
      n.status = .processing) ?_ ?_
  · rintro s ⟨hprog, hnone⟩
    refine ⟨.load, hprog, hnone, fun n t₀ hsome => ?_⟩
    rw [hnone] at hsome
    cases hsome
  · rintro ⟨w, prog, refused⟩ l t ⟨pc, rfl, hpc, hprocessing⟩ hok hs
    cases l with
    | tick ms =>
      cases hs
      exact ⟨pc, rfl, hpc.tick ms, hprocessing⟩
    | work o =>
      obtain ⟨⟨p, w'⟩, hstep, rfl⟩ := Option.map_eq_some_iff.mp hs
      obtain ⟨pc', rfl, hcall⟩ := dispatchStep_of_step hstep
      refine ⟨pc', rfl, ?_⟩
      simp only [DispatchPc.awaits_prog]
      exact ⟨hcall.recording hpc hok, hcall.refusal_processing hpc hprocessing⟩
    | interfere => exact hok.elim

/-- After a send has failed with a retry left, the row of an undisturbed dispatch is as it was,
or the retry is on record and the row is still in `Processing`, or it is on record and the row
is `Pending`; and the last if the dispatch returns `Ok`. -/
theorem retry_transition (d : Deployment Bytes) (id : Uuid)
    (s : CallState Bytes (Except NotiError Unit))
    (h : (callSystem d id (dispatch d.mq id).run).Reachable Alone s) {n : Notification} {t₀ : Int}
    (hrefused : s.refused = some (n, t₀)) (hretry : n.retryCount < maxRetries) :
    n.status = .processing ∧ ∃ n', s.world.table.getById id = some n' ∧
      (n.Unmoved n' ∧ s.prog.result ≠ some (.ok ()) ∨
        ∃ t, t₀ ≤ t ∧ t ≤ s.world.now ∧ n.Counted n' t ∧
          (n'.status = .processing ∧ s.prog.result ≠ some (.ok ()) ∨ n'.status = .pending)) := by
  obtain ⟨pc, hprog, hpc, hprocessing⟩ := recording_reachable h
  have hstatus := hprocessing n t₀ hrefused
  refine ⟨hstatus, ?_⟩
  rw [hprog, DispatchPc.result_prog]
  have never : s.refused ≠ none := by
    rw [hrefused]
    exact nofun
  cases pc with
  | load | succeed => exact absurd hpc never
  | mark | render | encode | send => exact absurd hpc.1 never
  | giveUp => exact absurd (hpc n t₀ hrefused) (Int.not_le.mpr hretry)
  | clock | bump =>
    obtain ⟨row, t₁, ⟨hrow, -⟩, hn, -⟩ := hpc
    cases hrefused.symm.trans hrow
    exact ⟨n, hn, .inl ⟨.refl n, nofun⟩⟩
  | repend =>
    obtain ⟨row, t₁, n', t, ⟨hrow, -⟩, hn', hsame, hcounted, ht₀, ht⟩ := hpc
    cases hrefused.symm.trans hrow
    exact ⟨n', hn', .inr ⟨t, ht₀, ht, hcounted, .inl ⟨hsame.trans hstatus, nofun⟩⟩⟩
  | schedule | fallback =>
    obtain ⟨n', t, hn', hpending, hcounted, ht₀, ht⟩ := hpc n t₀ hrefused
    exact ⟨n', hn', .inr ⟨t, ht₀, ht, hcounted, .inr hpending⟩⟩
  | done r =>
    cases r with
    | ok =>
      obtain ⟨n', t, hn', hpending, hcounted, ht₀, ht⟩ := hpc n t₀ hrefused
      exact ⟨n', hn', .inr ⟨t, ht₀, ht, hcounted, .inr hpending⟩⟩
    | error =>
      obtain ⟨n', hn', hsame | ⟨hsame, t, hcounted, ht₀, ht⟩⟩ := hpc n t₀ hrefused hretry
      · exact ⟨n', hn', .inl ⟨hsame, nofun⟩⟩
      · exact ⟨n', hn', .inr ⟨t, ht₀, ht, hcounted, .inl ⟨hsame.trans hstatus, nofun⟩⟩⟩

end Retry

/-- Dispatches the row of `Request.stored`. The send fails, and so does the statement that should
make the row `Pending`. -/
def halfRecorded : List (CallLabel NotificationTask) :=
  [.work .ok, .work .ok, .work (.text "Welcome"), .work (.fail (.provider "SMTP timeout")), .tick 5,
    .work .ok, .work .ok, .work (.fail (.database "connection closed"))]

def aloneThrough (_ : CallState NotificationTask (Except NotiError Unit)) :
    CallLabel NotificationTask → Bool
  | .tick _ => true
  | .work (.failAfter _) | .interfere _ => false
  | .work _ => true

theorem alone_of_check (s : CallState NotificationTask (Except NotiError Unit))
    (l : CallLabel NotificationTask) (h : aloneThrough s l = true) : Alone s l := by
  cases l with
  | tick => trivial
  | work o =>
    rintro e rfl
    cases h
  | interfere => cases h

theorem halfRecorded_reachable : ∃ s : CallState NotificationTask (Except NotiError Unit),
    (callSystem (.plain true) ⟨1⟩ (dispatch true ⟨1⟩).run).Reachable Alone s ∧
      ∃ n n', s.refused = some (n, 0) ∧ s.world.table.getById ⟨1⟩ = some n' ∧ n.retryCount = 0 ∧
        n.status = .processing ∧ n'.status = .processing ∧ n'.retryCount = 1 := by
  obtain ⟨s, hrun, n, n', hs⟩ : ∃ s, (callSystem (.plain true) ⟨1⟩ (dispatch true ⟨1⟩).run).runWhen
      aloneThrough ⟨.boot 0 Request.stored, (dispatch true ⟨1⟩).run, none⟩ halfRecorded = some s ∧
      ∃ n n', s.refused = some (n, 0) ∧ s.world.table.getById ⟨1⟩ = some n' ∧ n.retryCount = 0 ∧
        n.status = .processing ∧ n'.status = .processing ∧ n'.retryCount = 1 :=
    ⟨_, rfl, _, _, rfl, rfl, rfl, rfl, rfl, rfl⟩
  have hstart : (callSystem (.plain true) ⟨1⟩ (dispatch true ⟨1⟩).run).init
      ⟨.boot 0 Request.stored, (dispatch true ⟨1⟩).run, none⟩ := ⟨rfl, rfl⟩
  exact ⟨s, (System.Reachable.start hstart).runWhen alone_of_check hrun, n, n', hs⟩

theorem retry_transition_halfRecorded : ∃ n n' : Notification, n.status = .processing ∧
    n'.status = .processing ∧ n.retryCount = 0 ∧ n'.retryCount = 1 ∧ ∃ t, n.Counted n' t := by
  obtain ⟨s, hs, n, n', hrefused, hn', hcount, hstatus, hstatus', hcount'⟩ := halfRecorded_reachable
  obtain ⟨-, row, hrow, ⟨hsame, -⟩ | ⟨t, -, -, hcounted, -⟩⟩ :=
    retry_transition (.plain true) ⟨1⟩ s hs
    hrefused (by rw [hcount]; decide)
  · cases hrow.symm.trans hn'
    have := hsame.retryCount
    omega
  · cases hrow.symm.trans hn'
    exact ⟨n, _, hstatus, hstatus', hcount, hcount', t, hcounted⟩

/-- The two statements of the retry are not one. -/
theorem retry_transition_split : ¬ ∀ s : CallState NotificationTask (Except NotiError Unit),
    (callSystem (.plain true) ⟨1⟩ (dispatch true ⟨1⟩).run).Reachable Alone s →
      ∀ n t₀, s.refused = some (n, t₀) → n.retryCount < maxRetries →
        ∃ n', s.world.table.getById ⟨1⟩ = some n' ∧
          (n.Unmoved n' ∨ n'.status = .pending ∧ ∃ t, n.Counted n' t) := by
  intro hatomic
  obtain ⟨s, hs, n, n', hrefused, hn', hcount, -, hstatus', hcount'⟩ := halfRecorded_reachable
  obtain ⟨row, hrow, hsame | ⟨hpending, -⟩⟩ := hatomic s hs n 0 hrefused (by rw [hcount]; decide)
  · cases hrow.symm.trans hn'
    have := hsame.retryCount
    omega
  · cases hrow.symm.trans hn'
    rw [hstatus'] at hpending
    cases hpending

/-- A retry of the notification waits at the broker, or in a task of the process. -/
def RetryScheduled (d : Deployment Bytes) (w : World Bytes) (id : Uuid) : Prop :=
  (∃ m ∈ w.broker.ready retryQueue, d.taskId m = some id) ∨ ∃ wakeAt, (id, wakeAt) ∈ w.sleepers

/-- Without a task for it at the dispatch queue, the row is not forgotten. -/
def Safe (d : Deployment Bytes) (w : World Bytes) (id : Uuid) : Prop :=
  ∃ n, w.table.getById id = some n ∧
    (n.status.live = false ∨ n.status = .pending ∧ RetryScheduled d w id)

section Ack

variable {d : Deployment Bytes} {id : Uuid} {w w' : World Bytes} {o : Outcome} {pc pc' : DispatchPc}

def DispatchPc.Kept (d : Deployment Bytes) (w : World Bytes) (id : Uuid) : DispatchPc → Prop
  | .load | .done (.error _) => True
  | .schedule ms | .fallback ms => 60000 ≤ ms ∧ ∃ n, w.table.getById id = some n ∧
      n.status = .pending
  | .done (.ok ()) => Safe d w id
  | _ => ∃ n, w.table.getById id = some n

theorem Notification.Touched.pending {now : Int} {n n' : Notification} (h : n.Touched now n')
    (hn : n.status = .pending) : n'.status = .pending := by
  cases h with
  | same | read => exact hn
  | reset => rfl

theorem DispatchPc.Kept.aside (h : pc.Kept d w id) (ha : w.Aside w' id) (hpc : pc.result = none) :
    pc.Kept d w' id := by
  have found : (∃ n, w.table.getById id = some n) → ∃ n, w'.table.getById id = some n := by
    rintro ⟨n, hn⟩
    obtain ⟨n', hn', -⟩ := ha.kept n hn
    exact ⟨n', hn'⟩
  cases pc with
  | load => trivial
  | done => cases hpc
  | schedule | fallback =>
    obtain ⟨hms, n, hn, hpending⟩ := h
    obtain ⟨n', hn', htouched⟩ := ha.kept n hn
    exact ⟨hms, n', hn', htouched.pending hpending⟩
  | _ => exact found h

theorem publishRetry_scheduled (routes : Routes d.topology) {ms : Nat} {broker : Broker Bytes}
    (hms : 60000 ≤ ms) (h : publishRetry d.topology d.codec w.now id ms w.broker = .ok broker) :
    ∃ m ∈ broker.ready retryQueue, d.taskId m = some id := by
  obtain ⟨payload, hbody, ⟨-, hready⟩ | ⟨hdelay, -⟩⟩ := publishTask_eq_ok routes h
  · refine ⟨_, hready ▸ Broker.mem_push.mpr (.inr ⟨rfl, rfl⟩), ?_⟩
    simp [Deployment.taskId, hbody]
  · omega

theorem DispatchStep.kept (routes : Routes d.topology) (hs : DispatchStep d id o w pc w' pc')
    (h : pc.Kept d w id) : pc'.Kept d w' id := by
  have written : ∀ status error ref, (∃ n, w.table.getById id = some n) →
      ∃ n, (w.updateStatus id status error ref).table.getById id = some n ∧ n.status = status := by
    rintro status error ref ⟨n, hn⟩
    exact ⟨withStatus w.now status error ref n, by simp [hn], rfl⟩
  cases hs with
  | load hn => exact ⟨_, hn⟩
  | loadTerminal hn hlive => exact ⟨_, hn, .inl hlive⟩
  | mark =>
    obtain ⟨n, hn, -⟩ := written .processing none none h
    exact ⟨n, hn⟩
  | @render _ n content => exact DispatchPc.afterRender_ok n content (fun _ => h) fun _ => h
  | renderFail | encode | send | sendFail | sendExhausted | clock => exact h
  | succeed =>
    obtain ⟨n, hn, hstatus⟩ := written .sent none _ h
    exact ⟨n, hn, .inl (by rw [hstatus]; rfl)⟩
  | @bump _ n _ t =>
    obtain ⟨row, hrow⟩ := h
    exact ⟨withRetry w.now (t + delayMs (n.retryCount + 1)) row, by simp [hrow]⟩
  | @repend _ n e =>
    obtain ⟨row, hrow, hpending⟩ := written .pending (some e.toString) none h
    unfold DispatchPc.retryVia
    split <;> exact ⟨le_delayMs _, row, hrow, hpending⟩
  | schedule hp =>
    obtain ⟨hms, n, hn, hpending⟩ := h
    exact ⟨n, hn, .inr ⟨hpending, .inl (publishRetry_scheduled routes hms hp)⟩⟩
  | scheduleFail _ hf => cases hf <;> exact h
  | scheduleUnencoded => exact h
  | @fallback _ _ ms =>
    obtain ⟨-, n, hn, hpending⟩ := h
    exact ⟨n, hn, .inr ⟨hpending, .inr ⟨w.now + ms, by simp⟩⟩⟩
  | _ => trivial

theorem DispatchPc.Kept.tick (h : pc.Kept d w id) (ms : Nat) : pc.Kept d (w.tick ms) id := by
  cases pc with
  | done r => cases r <;> exact h
  | _ => exact h

theorem kept_reachable {codec : TaskCodec Bytes} {mq : Bool} {data : Bytes}
    {task : NotificationTask}
    (hparse : codec.fromSlice data = .ok task) {s : CallState Bytes Disposition}
    (h : (callSystem (.declared codec mq) task.notificationId
      (processDispatchPayload codec mq data)).Reachable (Unshared task.notificationId) s) :
    ∃ pc : DispatchPc, s.prog = (pc.prog mq task.notificationId).map disposition ∧
      pc.Kept (.declared codec mq) s.world task.notificationId := by
  refine h.invariant (P := fun s => ∃ pc : DispatchPc,
    s.prog = (pc.prog mq task.notificationId).map disposition ∧
      pc.Kept (.declared codec mq) s.world task.notificationId) ?_ ?_
  · rintro s ⟨hprog, -⟩
    refine ⟨.load, hprog.trans ?_, trivial⟩
    rw [processDispatchPayload, hparse]
    rfl
  · rintro ⟨w, prog, refused⟩ l t ⟨pc, rfl, hpc⟩ hok hs
    cases l with
    | tick ms =>
      cases hs
      exact ⟨pc, rfl, hpc.tick ms⟩
    | work o =>
      obtain ⟨⟨p, w'⟩, hstep, rfl⟩ := Option.map_eq_some_iff.mp hs
      rw [Program.step_map] at hstep
      obtain ⟨⟨p', w₁⟩, hstep, heq⟩ := Option.map_eq_some_iff.mp hstep
      cases heq
      obtain ⟨pc', rfl, hcall⟩ := dispatchStep_of_step (d := .declared codec mq) hstep
      exact ⟨pc', rfl, hcall.kept routes_declaredTopology hpc⟩
    | interfere world =>
      cases hs
      obtain ⟨haside, hresult⟩ := hok
      refine ⟨pc, rfl, hpc.aside haside ?_⟩
      simpa [DispatchPc.result_prog] using hresult

/-- A delivery that is acknowledged, and whose payload is a task, leaves the row settled, or
`Pending` with a retry scheduled. -/
theorem ack_sound (codec : TaskCodec Bytes) (mq : Bool) {data : Bytes} {task : NotificationTask}
    (hparse : codec.fromSlice data = .ok task) (s : CallState Bytes Disposition)
    (h : (callSystem (.declared codec mq) task.notificationId
      (processDispatchPayload codec mq data)).Reachable (Unshared task.notificationId) s)
    (hack : s.prog.result = some .ack) : Safe (.declared codec mq) s.world task.notificationId := by
  obtain ⟨pc, hprog, hpc⟩ := kept_reachable hparse h
  rw [hprog, Program.result_map, DispatchPc.result_prog] at hack
  obtain ⟨r, hr, hdisposition⟩ := Option.map_eq_some_iff.mp hack
  obtain rfl := DispatchPc.eq_done hr
  cases r with
  | ok => exact hpc
  | error => cases hdisposition

/-- The send fails, and the retry is taken by the queue: the delivery is acknowledged. -/
theorem ack_sound_retry : ∃ s : CallState NotificationTask Disposition,
    s.prog.result = some .ack ∧ Safe (.plain true) s.world ⟨1⟩ ∧
      (s.world.table.getById ⟨1⟩).map Notification.status = some .pending := by
  let check : CallState NotificationTask Disposition → CallLabel NotificationTask → Bool
    | _, .interfere _ => false
    | _, _ => true
  have hcheck : ∀ s l, check s l = true → Unshared ⟨1⟩ s l := by
    intro s l hl
    cases l with
    | interfere => cases hl
    | _ => trivial
  obtain ⟨s, hrun, hack, hpending⟩ : ∃ s, (callSystem (.plain true) ⟨1⟩
      (processDispatchPayload .plain true ⟨⟨1⟩, 0⟩)).runWhen check
      ⟨.boot 0 Request.stored, processDispatchPayload .plain true ⟨⟨1⟩, 0⟩, none⟩
      [.work .ok, .work .ok, .work (.text "Welcome"), .work (.fail (.provider "SMTP timeout")),
        .work .ok, .work .ok, .work .ok, .work .ok] = some s ∧ s.prog.result = some .ack ∧
      (s.world.table.getById ⟨1⟩).map Notification.status = some .pending := ⟨_, rfl, rfl, rfl⟩
  have hstart : (callSystem (.plain true) ⟨1⟩ (processDispatchPayload .plain true ⟨⟨1⟩, 0⟩)).init
      ⟨.boot 0 Request.stored, processDispatchPayload .plain true ⟨⟨1⟩, 0⟩, none⟩ := ⟨rfl, rfl⟩
  exact ⟨s, hack, ack_sound .plain true rfl s
    ((System.Reachable.start hstart).runWhen hcheck hrun) hack,
    hpending⟩

end Ack

end NotiService
