import NotiService.Ledger
import NotiService.Overlap
import NotiService.RowSteps

/-! The rows over any run of the ledger, whatever fails: what a row's columns say together
and which of them never change. A dispatch writes its own row and only while the row is
live; every other operation resets a row that is stuck, marks one read, or adds one. -/

namespace NotiService
open Foundation Orchestrator NotificationTable Overlap

variable {Bytes : Type}

namespace Notification

structure Consistent (n : Notification) : Prop where
  sentAt : n.sentAt.isSome ↔ n.status = .sent
  sent : n.status = .sent → n.providerRef.isSome ∧ n.errorMessage = none
  failure : n.status = .permanentFailure → n.errorMessage.isSome
  unused : n.status ≠ .delivered ∧ n.status ≠ .failed

structure Evolves (n n' : Notification) : Prop where
  id : n'.id = n.id
  userId : n'.userId = n.userId
  channel : n'.channel = n.channel
  recipient : n'.recipient = n.recipient
  templateId : n'.templateId = n.templateId
  vars : n'.vars = n.vars
  idempotencyKey : n'.idempotencyKey = n.idempotencyKey
  createdAt : n'.createdAt = n.createdAt
  retryCount : n.retryCount ≤ n'.retryCount
  readAt : ∀ t, n.readAt = some t → n'.readAt = some t

theorem Evolves.refl (n : Notification) : n.Evolves n :=
  ⟨rfl, rfl, rfl, rfl, rfl, rfl, rfl, rfl, Int.le_refl _, fun _ h => h⟩

theorem Evolves.trans {n₁ n₂ n₃ : Notification} (h : n₁.Evolves n₂) (h' : n₂.Evolves n₃) :
    n₁.Evolves n₃ where
  id := h'.id.trans h.id
  userId := h'.userId.trans h.userId
  channel := h'.channel.trans h.channel
  recipient := h'.recipient.trans h.recipient
  templateId := h'.templateId.trans h.templateId
  vars := h'.vars.trans h.vars
  idempotencyKey := h'.idempotencyKey.trans h.idempotencyKey
  createdAt := h'.createdAt.trans h.createdAt
  retryCount := Int.le_trans h.retryCount h'.retryCount
  readAt t ht := h'.readAt t (h.readAt t ht)

theorem evolves_withStatus (now : Int) (status : NotificationStatus)
    (error providerRef : Option String) (n : Notification) :
    n.Evolves (withStatus now status error providerRef n) :=
  ⟨rfl, rfl, rfl, rfl, rfl, rfl, rfl, rfl, Int.le_refl _, fun _ h => h⟩

theorem evolves_withRetry (now nextRetryAt : Int) (n : Notification) :
    n.Evolves (withRetry now nextRetryAt n) :=
  ⟨rfl, rfl, rfl, rfl, rfl, rfl, rfl, rfl, Int.le_add_of_nonneg_right (by decide), fun _ h => h⟩

/-- What a row can become in a step that is not of its own dispatch. -/
inductive Touched (now : Int) (n : Notification) : Notification → Prop where
  | same : Touched now n n
  | reset : n.status = .processing → Touched now n (reset now n)
  | read : n.readAt = none → Touched now n (read now n)

theorem Touched.evolves {now : Int} {n n' : Notification} (h : Touched now n n') :
    n.Evolves n' := by
  cases h with
  | same => exact .refl n
  | reset => exact ⟨rfl, rfl, rfl, rfl, rfl, rfl, rfl, rfl, Int.le_refl _, fun _ h => h⟩
  | read hunread =>
    exact ⟨rfl, rfl, rfl, rfl, rfl, rfl, rfl, rfl, Int.le_refl _, fun t ht => by
      rw [hunread] at ht
      cases ht⟩

theorem Touched.live {now : Int} {n n' : Notification} (h : Touched now n n')
    (hlive : n.status.live) : n'.status.live := by
  cases h with
  | same | read => exact hlive
  | reset => rfl

theorem Touched.consistent {now : Int} {n n' : Notification} (h : Touched now n n')
    (hn : n.Consistent) : n'.Consistent := by
  cases h with
  | same => exact hn
  | read => exact ⟨hn.sentAt, hn.sent, hn.failure, hn.unused⟩
  | reset hstuck =>
    refine ⟨?_, nofun, nofun, by simp [NotificationTable.reset]⟩
    have := hn.sentAt
    simp_all [NotificationTable.reset]

theorem Consistent.withStatus {n : Notification} (hn : n.Consistent) (hlive : n.status.live)
    (now : Int) {status : NotificationStatus} {error providerRef : Option String}
    (hsent : status = .sent → providerRef.isSome ∧ error = none)
    (hfailure : status = .permanentFailure → error.isSome)
    (hunused : status ≠ .delivered ∧ status ≠ .failed) :
    (withStatus now status error providerRef n).Consistent := by
  have hunsent : n.sentAt = none := by
    have := hn.sentAt
    cases hstatus : n.status <;> simp_all [NotificationStatus.live]
  refine ⟨?_, hsent, hfailure, hunused⟩
  by_cases hs : status = .sent <;> simp [NotificationTable.withStatus, hs, hunsent]

end Notification

open Notification

theorem Request.consistent_notification (r : Request) (id : Uuid) (t t' t'' : Int) :
    (r.notification id t t' t'').Consistent :=
  ⟨by simp [Request.notification], nofun, nofun, by simp [Request.notification]⟩

/-- What a step that is not of its dispatch does to the row of `id`. -/
structure World.Aside (w w' : World Bytes) (id : Uuid) : Prop where
  kept : ∀ n, w.table.getById id = some n →
    ∃ n', w'.table.getById id = some n' ∧ Touched w.now n n'
  new : w.table.getById id = none → ∀ n', w'.table.getById id = some n' →
    ∃ (r : Request) (t t' t'' : Int), n' = r.notification id t t' t''

namespace World.Aside

variable {w w' : World Bytes} {id : Uuid} {o : Outcome}

theorem of_getById (h : w'.table.getById id = w.table.getById id) : w.Aside w' id :=
  ⟨fun n hn => ⟨n, h.trans hn, .same⟩, fun hnone n hn => by
    rw [h, hnone] at hn
    cases hn⟩

theorem of_table (h : w'.table = w.table) : w.Aside w' id := of_getById (by rw [h])

theorem of_failed {e : NotiError} {w₁ : World Bytes} (hf : Failed e w w₁ o w')
    (h : w.Aside w₁ id) : w.Aside w' id := by
  cases hf with
  | before => exact of_table rfl
  | after => exact h

theorem of_answer {w₁ : World Bytes} {r : Except NotiError Unit}
    (hr : w.answer () w₁ o = some (r, w')) (h : w.Aside w₁ id) : w.Aside w' id := by
  rcases World.answer_eq_some.mp hr with ⟨-, -, rfl⟩ | ⟨e, -, hf⟩
  · exact h
  · exact of_failed hf h

theorem of_map {f : Notification → Notification}
    (hget : w'.table.getById id = (w.table.getById id).map f) (hf : ∀ n, Touched w.now n (f n)) :
    w.Aside w' id := by
  refine ⟨fun n hn => ⟨f n, by rw [hget, hn]; rfl, hf n⟩, fun hnone n' hn' => ?_⟩
  rw [hget, hnone] at hn'
  cases hn'

theorem resetStuckProcessing (w : World Bytes) (secs : Int) (id : Uuid) :
    w.Aside (w.resetStuckProcessing secs) id := by
  refine of_map (getById_resetStuckProcessing ..) fun n => ?_
  split
  · next hstuck => exact .reset (by simpa using (of_decide_eq_true hstuck).1)
  · exact .same

theorem markAsRead (w : World Bytes) (k userId id : Uuid) : w.Aside (w.markAsRead k userId) id := by
  refine of_map (getById_markAsRead ..) fun n => ?_
  split
  · next hunread => exact .read (of_decide_eq_true hunread).2.2
  · exact .same

theorem markAllAsRead (w : World Bytes) (userId id : Uuid) :
    w.Aside (w.markAllAsRead userId) id := by
  refine of_map (getById_markAllAsRead ..) fun n => ?_
  split
  · next hunread => exact .read (of_decide_eq_true hunread).2
  · exact .same

theorem create {r : Request} {k : Uuid} {t t' t'' : Int} {row : Notification}
    {table : NotificationTable} (h : w.table.create (r.notification k t t' t'') = .ok (row, table))
    (id : Uuid) : w.Aside { w with table } id := by
  rcases create_cases w.table (r.notification k t t' t'') with
    ⟨_, existing, -, -, -, heq⟩ | ⟨-, hid, table', heq, -, hget⟩ | ⟨-, e, heq⟩
  · rw [heq] at h
    cases h
    exact of_table rfl
  · rw [heq] at h
    cases h
    by_cases hk : id = k
    · subst hk
      refine ⟨fun n hn => absurd (hid.symm.trans hn) (by simp), fun _ n' hn' => ?_⟩
      have hrow := (hget id).symm.trans hn'
      rw [show (r.notification id t t' t'').id = id from rfl, if_pos rfl] at hrow
      exact ⟨r, t, t', t'', (Option.some.inj hrow).symm⟩
    · exact of_getById ((hget id).trans (if_neg hk))
  · rw [heq] at h
    cases h

end World.Aside

section Steps

variable {d : Deployment Bytes} {id : Uuid} {o : Outcome} {w w' : World Bytes}

/-- A row that a call is about to create is the one its request asks for. -/
def QueuePc.Built (r : Request) (pc : QueuePc) : Prop :=
  ∀ n, pc = .create n → ∃ id t t' t'', n = r.notification id t t' t''

theorem QueuePc.built_ident (r : Request) : QueuePc.ident.Built r := by
  intro n hn
  cases hn

theorem QueueStep.built {r : Request} {pc pc' : QueuePc} (h : QueueStep d r o w pc w' pc') :
    pc'.Built r := by
  intro n hn
  cases h with
  | clock₃ => exact ⟨_, _, _, _, (QueuePc.create.inj hn).symm⟩
  | @create _ n₀ row =>
    by_cases hid : row.id = n₀.id
    · cases hkey : n₀.idempotencyKey <;> simp [QueuePc.afterCreate, hid, hkey] at hn
    · simp [QueuePc.afterCreate_other hid] at hn
  | _ => cases hn

theorem QueueStep.aside {r : Request} {pc pc' : QueuePc} (h : QueueStep d r o w pc w' pc')
    (hpc : pc.Built r) (id : Uuid) : w.Aside w' id := by
  cases h with
  | create hc =>
    obtain ⟨k, t, t', t'', rfl⟩ := hpc _ rfl
    exact .create hc id
  | createFail hc hf =>
    obtain ⟨k, t, t', t'', rfl⟩ := hpc _ rfl
    exact .of_failed hf (.create hc id)
  | trigger ht => exact .of_table ht.table_eq
  | _ => exact .of_table rfl

theorem RecoverStep.aside {pc pc' : RecoverPc} (h : RecoverStep d o w pc w' pc') (id : Uuid) :
    w.Aside w' id := by
  cases h with
  | reset => exact .resetStuckProcessing w _ id
  | resetFail hf => exact .of_failed hf (.resetStuckProcessing w _ id)
  | trigger ht => exact .of_table ht.table_eq
  | triggered ht => exact .of_table ht.table_eq
  | _ => exact .of_table rfl

/-- What the next call of a dispatch stores in its row, if it stores something. -/
def DispatchPc.write (now : Int) : DispatchPc → Option (Notification → Notification)
  | .mark _ => some (withStatus now .processing none none)
  | .giveUp e => some (withStatus now .permanentFailure (some e.toString) none)
  | .succeed ref => some (withStatus now .sent none (some ref))
  | .bump n _ t => some (withRetry now (t + delayMs (n.retryCount + 1)))
  | .repend _ e => some (withStatus now .pending (some e.toString) none)
  | _ => none

theorem DispatchStep.row {pc pc' : DispatchPc} (h : DispatchStep d id o w pc w' pc') :
    w'.table.getById id = w.table.getById id ∨
      ∃ f, pc.write w.now = some f ∧ w'.table.getById id = (w.table.getById id).map f := by
  have hstatus : ∀ status error ref, (w.updateStatus id status error ref).table.getById id =
      (w.table.getById id).map (withStatus w.now status error ref) := by simp
  have hretry : ∀ t, (w.incrementRetry id t).table.getById id =
      (w.table.getById id).map (withRetry w.now t) := by simp
  cases h with
  | mark | giveUp | succeed | repend => exact .inr ⟨_, rfl, hstatus ..⟩
  | bump => exact .inr ⟨_, rfl, hretry _⟩
  | markFail hf | giveUpFail hf | succeedFail hf | rependFail hf =>
    cases hf with
    | before => exact .inl rfl
    | after => exact .inr ⟨_, rfl, hstatus ..⟩
  | bumpFail hf =>
    cases hf with
    | before => exact .inl rfl
    | after => exact .inr ⟨_, rfl, hretry _⟩
  | loadFail hf | scheduleFail _ hf => cases hf <;> exact .inl rfl
  | _ => exact .inl rfl

theorem DispatchPc.write_atWork {pc : DispatchPc} {now : Int} {f : Notification → Notification}
    (h : pc.write now = some f) : pc.atWork := by
  cases pc <;> first | rfl | cases h

theorem DispatchPc.write_evolves {pc : DispatchPc} {now : Int} {f : Notification → Notification}
    (h : pc.write now = some f) (n : Notification) : n.Evolves (f n) := by
  cases pc with
  | mark | giveUp | succeed | repend => cases h; exact evolves_withStatus ..
  | bump => cases h; exact evolves_withRetry ..
  | _ => cases h

theorem DispatchPc.write_consistent {pc : DispatchPc} {now : Int}
    {f : Notification → Notification} (h : pc.write now = some f) {n : Notification}
    (hn : n.Consistent) (hlive : n.status.live) : (f n).Consistent := by
  cases pc with
  | mark | repend => cases h; exact hn.withStatus hlive now nofun nofun (by simp)
  | giveUp => cases h; exact hn.withStatus hlive now nofun (fun _ => rfl) (by simp)
  | succeed => cases h; exact hn.withStatus hlive now (fun _ => ⟨rfl, rfl⟩) nofun (by simp)
  | bump => cases h; exact ⟨hn.sentAt, hn.sent, hn.failure, hn.unused⟩
  | _ => cases h

theorem DispatchStep.live {pc pc' : DispatchPc} (h : DispatchStep d id o w pc w' pc')
    (hlive : pc.atWork → RowLive id w.table) (hpc' : pc'.atWork) : RowLive id w'.table := by
  cases h with
  | load hn hl => exact ⟨_, hn, hl⟩
  | mark => exact (hlive rfl).updateStatus rfl _ none none
  | bump => exact (hlive rfl).incrementRetry _ _
  | render | renderFail | encode | send | sendFail | sendExhausted | clock => exact hlive rfl
  | repend =>
    cases hmq : d.mq <;> rw [hmq] at hpc' <;> cases hpc'
  | _ => cases hpc'

end Steps

/-- Every row is consistent, and a row that a dispatch works on is live. -/
structure Ledger.Sound (m : Ledger Bytes) : Prop where
  built : ∀ c ∈ m.calls, c.2.Built c.1
  consistent : ∀ id n, m.world.table.getById id = some n → n.Consistent
  live : ∀ id pc, m.working id = some pc → pc.atWork → RowLive id m.world.table

namespace Ledger

variable {d : Deployment Bytes} {m m' : Ledger Bytes} {l : LedgerLabel}

def Grows (w w' : World Bytes) : Prop :=
  ∀ id n, w.table.getById id = some n → ∃ n', w'.table.getById id = some n' ∧ n.Evolves n'

theorem Grows.of_aside {w w' : World Bytes} (h : ∀ id, w.Aside w' id) : Grows w w' := by
  intro id n hn
  obtain ⟨n', hn', ht⟩ := (h id).kept n hn
  exact ⟨n', hn', ht.evolves⟩

theorem Sound.of_aside (h : m.Sound) (haside : ∀ id, m.world.Aside m'.world id)
    (hcalls : ∀ c ∈ m'.calls, c.2.Built c.1) (hworking : m'.working = m.working) :
    m'.Sound ∧ Grows m.world m'.world := by
  refine ⟨⟨hcalls, fun id n' hn' => ?_, fun id pc hpc hwork => ?_⟩, .of_aside haside⟩
  · cases hrow : m.world.table.getById id with
    | none =>
      obtain ⟨r, t, t', t'', rfl⟩ := (haside id).new hrow n' hn'
      exact r.consistent_notification ..
    | some n =>
      obtain ⟨_, hget, ht⟩ := (haside id).kept n hrow
      obtain rfl := Option.some.inj (hget.symm.trans hn')
      exact ht.consistent (h.consistent id n hrow)
  · rw [hworking] at hpc
    obtain ⟨n, hn, hlive⟩ := h.live id pc hpc hwork
    obtain ⟨n', hn', ht⟩ := (haside id).kept n hn
    exact ⟨n', hn', ht.live hlive⟩

theorem Sound.of_work {id : Uuid} {o : Outcome} {pc pc' : DispatchPc} {w : World Bytes}
    {trace : Uuid → List Event} (h : m.Sound) (hpc : m.working id = some pc)
    (hs : DispatchStep d id o m.world pc w pc') :
    Sound { m with world := w, working := Function.update m.working id pc'.unfinished, trace } where
  built := h.built
  consistent k n' hn' := by
    by_cases hk : k = id
    · subst hk
      rcases hs.row with heq | ⟨f, hf, heq⟩
      · exact h.consistent k n' (heq.symm.trans hn')
      · obtain ⟨n, hn, rfl⟩ := Option.map_eq_some_iff.mp (heq.symm.trans hn')
        obtain ⟨n₀, hn₀, hlive⟩ := h.live k pc hpc (DispatchPc.write_atWork hf)
        obtain rfl := Option.some.inj (hn₀.symm.trans hn)
        exact DispatchPc.write_consistent hf (h.consistent k n₀ hn) hlive
    · exact h.consistent k n' ((hs.frame hk).symm.trans hn')
  live k q hq hwork := by
    rcases working_cases hq with ⟨rfl, hnext⟩ | ⟨hk, hother⟩
    · obtain rfl := DispatchPc.of_unfinished hnext
      exact hs.live (h.live k pc hpc) hwork
    · obtain ⟨n, hn, hlive⟩ := h.live k q hother hwork
      exact ⟨n, (hs.frame hk).trans hn, hlive⟩

theorem Grows.of_work {id : Uuid} {o : Outcome} {pc pc' : DispatchPc} {w w' : World Bytes}
    (hs : DispatchStep d id o w pc w' pc') : Grows w w' := by
  intro k n hn
  by_cases hk : k = id
  · subst hk
    rcases hs.row with heq | ⟨f, hf, heq⟩
    · exact ⟨n, heq.trans hn, .refl n⟩
    · exact ⟨f n, by rw [heq, hn]; rfl, DispatchPc.write_evolves hf n⟩
  · exact ⟨n, (hs.frame hk).trans hn, .refl n⟩

theorem Step.sound (h : Step d l m m') (hm : m.Sound) :
    m'.Sound ∧ Grows m.world m'.world := by
  cases h with
  | tick | recover => exact hm.of_aside (fun _ => .of_table rfl) hm.built rfl
  | @request _ r =>
    refine hm.of_aside (fun _ => .of_table rfl) (fun c hc => ?_) rfl
    rcases List.mem_append.mp hc with hc | hc
    · exact hm.built c hc
    · obtain rfl := List.mem_singleton.mp hc
      exact QueuePc.built_ident r
  | call hi hs =>
    refine hm.of_aside (hs.aside (hm.built _ (List.mem_of_getElem? hi))) (fun c hc => ?_) rfl
    rcases List.mem_or_eq_of_mem_set hc with hc | rfl
    · exact hm.built c hc
    · exact hs.built
  | @dispatch _ id hidle =>
    refine ⟨⟨hm.built, hm.consistent, fun k pc hpc hwork => ?_⟩, .of_aside fun _ => .of_table rfl⟩
    rcases working_cases hpc with ⟨-, hload⟩ | ⟨-, hother⟩
    · cases hload
      cases hwork
    · exact hm.live k pc hother hwork
  | work hpc hs => exact ⟨hm.of_work hpc hs, .of_work hs⟩
  | sweep hi hs => exact hm.of_aside hs.aside hm.built rfl
  | markAsRead hr => exact hm.of_aside (fun _ => .of_answer hr (.markAsRead ..)) hm.built rfl
  | markAllAsRead hr =>
    exact hm.of_aside (fun _ => .of_answer hr (.markAllAsRead ..)) hm.built rfl

theorem sound_initial {w : World Bytes} (hw : w.table = .empty) :
    Sound ⟨w, [], fun _ => none, [], fun _ => []⟩ := by
  refine ⟨by simp, fun id n hn => ?_, fun id pc hpc => ?_⟩
  · rw [hw] at hn
    cases hn
  · cases hpc

theorem sound_reachable {s : LedgerState Bytes}
    (h : (ledgerSystem d).Reachable System.always s) :
    ∃ m : Ledger Bytes, s = m.state d ∧ (∀ pc ∈ m.sweeps, pc.Normal) ∧ m.Sound :=
  invariant (fun _ hw => sound_initial hw) (fun _ _ _ hm _ hs => (hs.sound hm).1) h

end Ledger

/-- Every row of every reachable table is consistent, and stays what it was. -/
theorem ledger_rows (d : Deployment Bytes) (s : LedgerState Bytes)
    (h : (ledgerSystem d).Reachable System.always s) :
    (∀ n ∈ s.world.table.rows, n.Consistent) ∧
      ∀ ls t, (ledgerSystem d).run s ls = some t →
        ∀ n ∈ s.world.table.rows, ∃ n' ∈ t.world.table.rows, n.Evolves n' := by
  constructor
  · obtain ⟨m, rfl, -, hm⟩ := Ledger.sound_reachable h
    exact fun n hn => hm.consistent n.id n (mem_rows_iff.mp hn)
  · intro ls t hrun n hn
    have grows : Ledger.Grows s.world t.world := by
      refine h.run_rel (R := fun s t => Ledger.Grows s.world t.world)
        (fun s id n hn => ⟨n, hn, .refl n⟩) ?_ ?_ hrun
      · intro s t u hst htu id n hn
        obtain ⟨n', hn', hev⟩ := hst id n hn
        obtain ⟨n'', hn'', hev'⟩ := htu id n' hn'
        exact ⟨n'', hn'', hev.trans hev'⟩
      · intro s l t hs hstep
        obtain ⟨m, rfl, hnormal, hm⟩ := Ledger.sound_reachable hs
        obtain ⟨m', hstep', rfl, -⟩ := Ledger.step_sim hnormal hstep
        exact (hstep'.sound hm).2
    obtain ⟨n', hn', hev⟩ := grows n.id n (mem_rows_iff.mp hn)
    exact ⟨n', mem_rows_iff.mpr (by rw [hev.id]; exact hn'), hev⟩

/-- A notification is queued and sent, with one provider failure and one failing write
on the way. -/
theorem ledger_rows_sent :
    ∃ s : LedgerState NotificationTask,
      (ledgerSystem (.plain true)).Reachable System.always s ∧ s.world.table.rows ≠ [] ∧
      (∀ n ∈ s.world.table.rows, n.Consistent) ∧
      ∀ ls t, (ledgerSystem (.plain true)).run s ls = some t →
        ∀ n ∈ s.world.table.rows, ∃ n' ∈ t.world.table.rows, n.Evolves n' := by
  obtain ⟨s, hrun, hrows⟩ : ∃ s, (ledgerSystem (.plain true)).run (.start 0)
      [.request Request.sample, .call 0 (.fresh ⟨1⟩), .call 0 .ok, .call 0 .ok, .call 0 .ok,
        .call 0 .ok, .dispatch ⟨1⟩, .work ⟨1⟩ .ok, .work ⟨1⟩ (.failAfter (.database "timeout")),
        .recover 0 10, .sweep 0 .ok, .dispatch ⟨1⟩, .work ⟨1⟩ .ok, .work ⟨1⟩ .ok,
        .work ⟨1⟩ (.text "hello"), .work ⟨1⟩ (.text "ref"), .work ⟨1⟩ .ok] = some s ∧
      s.world.table.rows ≠ [] := ⟨_, rfl, nofun⟩
  have hreach := (System.Reachable.start (s := LedgerState.start 0)
    (S := ledgerSystem (.plain true)) ⟨rfl, rfl, fun _ => rfl, rfl, fun _ => rfl⟩).run hrun
  exact ⟨s, hreach, hrows, ledger_rows (.plain true) s hreach⟩

end NotiService
