import NotiService.Steady
import NotiService.Views

/-! What a row says is what others have said. The service runs with a record of what the
template engine, the encoder and the providers have answered to the dispatches of each
notification, any number of which may overlap. A provider reference in a row comes from a
provider that has taken this notification, an error text from one that has refused it or from a
template that did not render. -/

namespace NotiService
open Foundation Orchestrator Service NotificationTable

variable {Bytes : Type}

/-- What a dispatch was answered; `queued` is the answer of `queue_notification` itself. -/
inductive Reply where
  | queued
  | rendered (templateId : String) (vars : Json) (result : Except NotiError String)
  | encoded (n : Notification) (text : String) (result : Except String String)
  | sent (channel : NotificationChannel) (recipient content : String)
      (result : Except NotiError String)

def Outcome.answer : Outcome → Option (Except NotiError String)
  | .text s => some (.ok s)
  | .fail e => some (.error e)
  | _ => none

def Op.reply (o : Outcome) : {β : Type} → Op β → Option Reply
  | _, .render templateId vars => o.answer.map (.rendered templateId vars)
  | _, .encodeView n text =>
    match o with
    | .text s => some (.encoded n text (.ok s))
    | .refuse e => some (.encoded n text (.error e))
    | _ => none
  | _, .send channel recipient content => o.answer.map (.sent channel recipient content)
  | _, _ => none

def replyTo {α : Type} (o : Outcome) (p : Program Op α) : Option Reply :=
  (p.peek (Op.reply o)).join

/-- What a step shows of the notification it is about. -/
def ServiceState.replies (d : Deployment Bytes) (s : ServiceState Bytes) (l : ServiceLabel)
    (t : ServiceState Bytes) : List (Uuid × Reply) :=
  match l with
  | .call i _ => (t.calls[i]?.bind fun c =>
      match c.prog.result with
      | some (.ok id) => some (id, .queued)
      | _ => none).toList
  | .process i o => (s.deliveries[i]?.bind fun dl => (d.taskId dl.message).bind fun id =>
      (replyTo o dl.prog).map fun reply => (id, reply)).toList
  | .task i o => (s.tasks[i]?.bind fun t =>
      (replyTo o t.prog).map fun reply => (t.id, reply)).toList
  | _ => []

theorem replyTo_map {α β : Type} (o : Outcome) (f : α → β) (p : Program Op α) :
    replyTo o (p.map f) = replyTo o p := by
  rw [replyTo, replyTo, Program.peek_map]

theorem replyTo_ne_queued {α : Type} (o : Outcome) (p : Program Op α) :
    replyTo o p ≠ some .queued := by
  cases p with
  | done => simp [replyTo, Program.peek]
  | call op rest =>
    cases op with
    | encodeView => cases o <;> simp [replyTo, Program.peek, Op.reply]
    | _ => simp [replyTo, Program.peek, Op.reply]

theorem ServiceState.mem_replies_queued {d : Deployment Bytes} {s t : ServiceState Bytes}
    {l : ServiceLabel} {id : Uuid} (h : (id, .queued) ∈ s.replies d l t) :
    ∃ c ∈ t.calls, c.prog.result = some (.ok id) := by
  have dispatched : ∀ {k : Uuid} {α : Type} {o : Outcome} {p : Program Op α},
      (replyTo o p).map (fun reply => (k, reply)) ≠ some (id, .queued) := by
    intro k α o p h
    obtain ⟨reply, hreply, heq⟩ := Option.map_eq_some_iff.mp h
    cases heq
    exact replyTo_ne_queued o p hreply
  cases l with
  | call i o =>
    obtain ⟨c, hc, h⟩ := Option.bind_eq_some_iff.mp (Option.mem_toList.mp h)
    refine ⟨c, List.mem_of_getElem? hc, ?_⟩
    split at h
    · next hresult =>
      cases h
      exact hresult
    · cases h
  | process i o =>
    obtain ⟨dl, -, h⟩ := Option.bind_eq_some_iff.mp (Option.mem_toList.mp h)
    obtain ⟨k, -, h⟩ := Option.bind_eq_some_iff.mp h
    exact absurd h dispatched
  | task i o =>
    obtain ⟨t, -, h⟩ := Option.bind_eq_some_iff.mp (Option.mem_toList.mp h)
    exact absurd h dispatched
  | _ => cases h

def repliesSystem (d : Deployment Bytes) :
    System (ServiceState Bytes × List (Uuid × Reply)) ServiceLabel :=
  (serviceSystem d).observed (ServiceState.replies d)

section Backing

variable {log log' : List (Uuid × Reply)} {n n' : Notification} {content ref : String}
  {e : NotiError}

/-- The content is the row's template, rendered; for a WebSocket the encoded view of that, with
the row as it was. -/
def Composed (log : List (Uuid × Reply)) (n : Notification) (content : String) : Prop :=
  ∃ text, (n.id, .rendered n.templateId n.vars (.ok text)) ∈ log ∧
    if n.channel = .webSocket then
      ∃ n₀ : Notification, n₀.Evolves n ∧ (n.id, .encoded n₀ text (.ok content)) ∈ log
    else content = text

/-- The provider of the row's channel took such a content for the row's recipient. -/
def AcceptedAs (log : List (Uuid × Reply)) (n : Notification) (ref : String) : Prop :=
  ∃ content, Composed log n content ∧
    (n.id, .sent n.channel n.recipient content (.ok ref)) ∈ log

/-- The template did not render, or the provider refused the content. -/
def RefusedAs (log : List (Uuid × Reply)) (n : Notification) (e : NotiError) : Prop :=
  (n.id, .rendered n.templateId n.vars (.error e)) ∈ log ∨
    ∃ content, Composed log n content ∧
      (n.id, .sent n.channel n.recipient content (.error e)) ∈ log

theorem Composed.mono (hlog : log ⊆ log') (h : Composed log n content) :
    Composed log' n content := by
  obtain ⟨text, hrendered, hcontent⟩ := h
  refine ⟨text, hlog hrendered, ?_⟩
  split
  · next hws =>
    obtain ⟨n₀, hev, hencoded⟩ := (if_pos hws).mp hcontent
    exact ⟨n₀, hev, hlog hencoded⟩
  · next hws => exact (if_neg hws).mp hcontent

theorem AcceptedAs.mono (hlog : log ⊆ log') (h : AcceptedAs log n ref) :
    AcceptedAs log' n ref := by
  obtain ⟨content, hcomposed, hsent⟩ := h
  exact ⟨content, hcomposed.mono hlog, hlog hsent⟩

theorem RefusedAs.mono (hlog : log ⊆ log') (h : RefusedAs log n e) : RefusedAs log' n e := by
  rcases h with hrendered | ⟨content, hcomposed, hsent⟩
  · exact .inl (hlog hrendered)
  · exact .inr ⟨content, hcomposed.mono hlog, hlog hsent⟩

theorem Composed.evolves (hev : n.Evolves n') (h : Composed log n content) :
    Composed log n' content := by
  obtain ⟨text, hrendered, hcontent⟩ := h
  refine ⟨text, by rw [hev.id, hev.templateId, hev.vars]; exact hrendered, ?_⟩
  rw [hev.channel]
  split
  · next hws =>
    obtain ⟨n₀, hev₀, hencoded⟩ := (if_pos hws).mp hcontent
    exact ⟨n₀, hev₀.trans hev, hev.id ▸ hencoded⟩
  · next hws => exact (if_neg hws).mp hcontent

theorem AcceptedAs.evolves (hev : n.Evolves n') (h : AcceptedAs log n ref) :
    AcceptedAs log n' ref := by
  obtain ⟨content, hcomposed, hsent⟩ := h
  refine ⟨content, hcomposed.evolves hev, ?_⟩
  rw [hev.id, hev.channel, hev.recipient]
  exact hsent

theorem RefusedAs.evolves (hev : n.Evolves n') (h : RefusedAs log n e) : RefusedAs log n' e := by
  rcases h with hrendered | ⟨content, hcomposed, hsent⟩
  · refine .inl ?_
    rw [hev.id, hev.templateId, hev.vars]
    exact hrendered
  · refine .inr ⟨content, hcomposed.evolves hev, ?_⟩
    rw [hev.id, hev.channel, hev.recipient]
    exact hsent

namespace Notification

/-- The columns of a row by what has been answered to its dispatches. -/
structure Truthful (log : List (Uuid × Reply)) (n : Notification) : Prop where
  accepted : ∀ ref, n.providerRef = some ref → AcceptedAs log n ref
  sentAt : n.sentAt.isSome → ∃ ref, AcceptedAs log n ref
  refused : ∀ text, n.errorMessage = some text → ∃ e : NotiError, e.toString = text ∧
    RefusedAs log n e
  sent : n.status = .sent → n.providerRef.isSome ∧ n.sentAt.isSome ∧ n.errorMessage = none
  failure : n.status = .permanentFailure → n.errorMessage.isSome

theorem Truthful.mono (hlog : log ⊆ log') (h : n.Truthful log) : n.Truthful log' where
  accepted ref href := (h.accepted ref href).mono hlog
  sentAt hsentAt := (h.sentAt hsentAt).imp fun _ h => h.mono hlog
  refused text htext := (h.refused text htext).imp fun _ h => ⟨h.1, h.2.mono hlog⟩
  sent := h.sent
  failure := h.failure

theorem Truthful.of_evolves (h : n.Truthful log) (hev : n.Evolves n')
    (hproviderRef : n'.providerRef = n.providerRef) (hsentAt : n'.sentAt = n.sentAt)
    (herrorMessage : n'.errorMessage = n.errorMessage)
    (hstatus : n'.status = n.status ∨ n'.status = .pending) : n'.Truthful log where
  accepted ref href := (h.accepted ref (hproviderRef ▸ href)).evolves hev
  sentAt hs := (h.sentAt (hsentAt ▸ hs)).imp fun _ h => h.evolves hev
  refused text htext :=
    (h.refused text (herrorMessage ▸ htext)).imp fun _ h => ⟨h.1, h.2.evolves hev⟩
  sent hs := by
    rw [hproviderRef, hsentAt, herrorMessage]
    rcases hstatus with hsame | hpending
    · exact h.sent (hsame ▸ hs)
    · cases hpending.symm.trans hs
  failure hs := by
    rw [herrorMessage]
    rcases hstatus with hsame | hpending
    · exact h.failure (hsame ▸ hs)
    · cases hpending.symm.trans hs

theorem Truthful.withStatus (h : n.Truthful log) (now : Int) {status : NotificationStatus}
    {error providerRef : Option String}
    (haccepted : ∀ ref, providerRef = some ref → AcceptedAs log n ref)
    (hrefused : ∀ text, error = some text → ∃ e : NotiError, e.toString = text ∧
      RefusedAs log n e)
    (hsent : status = .sent → providerRef.isSome ∧ error = none)
    (hfailure : status = .permanentFailure → error.isSome) :
    (withStatus now status error providerRef n).Truthful log := by
  have hev := evolves_withStatus now status error providerRef n
  refine ⟨fun ref href => (haccepted ref href).evolves hev, fun hs => ?_, fun text htext => ?_,
    fun hs => ?_, hfailure⟩
  · by_cases hstatus : status = .sent
    · obtain ⟨ref, href⟩ := Option.isSome_iff_exists.mp (hsent hstatus).1
      exact ⟨ref, (haccepted ref href).evolves hev⟩
    · have hs : n.sentAt.isSome := by simpa [NotificationTable.withStatus, hstatus] using hs
      exact (h.sentAt hs).imp fun _ h => h.evolves hev
  · exact (hrefused text htext).imp fun _ h => ⟨h.1, h.2.evolves hev⟩
  · have hstatus : status = .sent := hs
    refine ⟨(hsent hstatus).1, ?_, (hsent hstatus).2⟩
    simp [NotificationTable.withStatus, hstatus]

theorem Touched.truthful {now : Int} (ht : Touched now n n') (h : n.Truthful log) :
    n'.Truthful log := by
  have hev := ht.evolves
  cases ht with
  | same => exact h
  | reset => exact h.of_evolves hev rfl rfl rfl (.inr rfl)
  | read => exact h.of_evolves hev rfl rfl rfl (.inl rfl)

end Notification

theorem Request.truthful_notification (r : Request) (id : Uuid) (t t' t'' : Int) :
    (r.notification id t t' t'').Truthful log :=
  ⟨nofun, nofun, nofun, nofun, nofun⟩

end Backing

section Dispatch

variable {d : Deployment Bytes} {log log' : List (Uuid × Reply)} {id : Uuid} {o : Outcome}
  {w w' : World Bytes}

/-- What a dispatch holds has been answered, for its row as it was. -/
def DispatchPc.Backed (log : List (Uuid × Reply)) (w : World Bytes) (id : Uuid) :
    DispatchPc → Prop
  | .mark n | .render n => w.Was id n
  | .encode n text => w.Was id n ∧ (n.id, .rendered n.templateId n.vars (.ok text)) ∈ log ∧
      n.channel = .webSocket
  | .send n content => w.Was id n ∧ Composed log n content
  | .succeed ref => ∃ n, w.Was id n ∧ AcceptedAs log n ref
  | .giveUp e | .clock _ e | .bump _ e _ | .repend _ e => ∃ n, w.Was id n ∧ RefusedAs log n e
  | _ => True

theorem DispatchPc.Backed.mono {pc : DispatchPc} (hlog : log ⊆ log')
    (hgrows : Ledger.Grows w w') (h : pc.Backed log w id) : pc.Backed log' w' id := by
  cases pc with
  | mark | render => exact World.Was.grows h hgrows
  | encode => exact ⟨h.1.grows hgrows, hlog h.2.1, h.2.2⟩
  | send => exact ⟨h.1.grows hgrows, h.2.mono hlog⟩
  | succeed => exact h.imp fun _ h => ⟨h.1.grows hgrows, h.2.mono hlog⟩
  | giveUp | clock | bump | repend =>
    exact h.imp fun _ h => ⟨h.1.grows hgrows, h.2.mono hlog⟩
  | _ => trivial

def DispatchPc.reply (o : Outcome) : DispatchPc → Option Reply
  | .render n => o.answer.map (.rendered n.templateId n.vars)
  | .encode n text =>
    match o with
    | .text s => some (.encoded n text (.ok s))
    | .refuse e => some (.encoded n text (.error e))
    | _ => none
  | .send n content => o.answer.map (.sent n.channel n.recipient content)
  | _ => none

theorem DispatchPc.reply_prog (mq : Bool) (id : Uuid) (o : Outcome) (pc : DispatchPc) :
    replyTo o (pc.prog mq id) = pc.reply o := by
  cases pc <;> rfl

def DispatchPc.replies (id : Uuid) (o : Outcome) (pc : DispatchPc) : List (Uuid × Reply) :=
  ((pc.reply o).map fun reply => (id, reply)).toList

theorem World.Was.id_eq {n : Notification} (h : w.Was id n) : n.id = id := by
  obtain ⟨n', hn', hev⟩ := h
  exact hev.id.symm.trans (id_of_getById hn')

theorem DispatchStep.backed {pc pc' : DispatchPc} (hs : DispatchStep d id o w pc w' pc')
    (h : pc.Backed log w id) : pc'.Backed (log ++ pc.replies id o) w' id := by
  have hgrows := Ledger.Grows.of_work hs
  have hlog : log ⊆ log ++ pc.replies id o := List.subset_append_left ..
  have hnew : ∀ {n : Notification} (reply : Reply), w.Was id n →
      pc.replies id o = [(id, reply)] → (n.id, reply) ∈ log ++ pc.replies id o := by
    intro n reply hwas heq
    simp [heq, hwas.id_eq]
  cases hs with
  | load hn => exact ⟨_, hn, .refl _⟩
  | mark => exact World.Was.grows h hgrows
  | @render _ n content =>
    have hrendered := hnew (.rendered n.templateId n.vars (.ok content)) h rfl
    refine DispatchPc.afterRender_ok n content (fun hws => ⟨h, hrendered, hws⟩) fun hws => ?_
    exact ⟨h, content, hrendered, by rw [if_neg hws]⟩
  | @renderFail _ n e =>
    exact ⟨n, h, .inl (hnew (.rendered n.templateId n.vars (.error e)) h rfl)⟩
  | @encode _ n text json =>
    obtain ⟨hwas, hrendered, hws⟩ := h
    refine ⟨hwas, text, hlog hrendered, ?_⟩
    rw [if_pos hws]
    exact ⟨n, .refl n, hnew (.encoded n text (.ok json)) hwas rfl⟩
  | @send _ n content ref =>
    obtain ⟨hwas, hcomposed⟩ := h
    exact ⟨n, hwas, content, hcomposed.mono hlog,
      hnew (.sent n.channel n.recipient content (.ok ref)) hwas rfl⟩
  | @sendFail _ n content e | @sendExhausted _ n content e =>
    obtain ⟨hwas, hcomposed⟩ := h
    exact ⟨n, hwas, .inr ⟨content, hcomposed.mono hlog,
      hnew (.sent n.channel n.recipient content (.error e)) hwas rfl⟩⟩
  | clock | bump => exact h.imp fun _ h => ⟨h.1.grows hgrows, h.2.mono hlog⟩
  | repend =>
    unfold DispatchPc.retryVia
    split <;> trivial
  | _ => trivial

theorem DispatchStep.truthful {pc pc' : DispatchPc} (hs : DispatchStep d id o w pc w' pc')
    (hpc : pc.Backed log w id) (h : ∀ n, w.table.getById id = some n → n.Truthful log)
    {n' : Notification} (hn' : w'.table.getById id = some n') : n'.Truthful log := by
  rcases hs.row with heq | ⟨f, hf, heq⟩
  · exact h n' (heq.symm.trans hn')
  obtain ⟨n, hn, rfl⟩ := Option.map_eq_some_iff.mp (heq.symm.trans hn')
  have hrow := h n hn
  have was : ∀ {n₀}, w.Was id n₀ → n₀.Evolves n := by
    rintro n₀ ⟨n₁, hn₁, hev⟩
    exact Option.some.inj (hn₁.symm.trans hn) ▸ hev
  have refusal : ∀ {e : NotiError}, (∃ n₀, w.Was id n₀ ∧ RefusedAs log n₀ e) →
      ∀ text, some e.toString = some text → ∃ e : NotiError, e.toString = text ∧
        RefusedAs log n e := by
    rintro e ⟨n₀, hwas, hrefused⟩ text htext
    exact ⟨e, Option.some.inj htext, hrefused.evolves (was hwas)⟩
  cases pc with
  | mark => cases hf; exact hrow.withStatus _ nofun nofun nofun nofun
  | giveUp e =>
    cases hf
    exact hrow.withStatus _ nofun (refusal hpc) nofun fun _ => rfl
  | repend _ e => cases hf; exact hrow.withStatus _ nofun (refusal hpc) nofun nofun
  | succeed ref =>
    cases hf
    obtain ⟨n₀, hwas, haccepted⟩ := hpc
    refine hrow.withStatus _ (fun ref' href => ?_) nofun (fun _ => ⟨rfl, rfl⟩) nofun
    exact Option.some.inj href ▸ haccepted.evolves (was hwas)
  | bump =>
    cases hf
    exact hrow.of_evolves (Notification.evolves_withRetry ..) rfl rfl rfl (.inl rfl)
  | _ => cases hf

def QueuePc.saved : QueuePc → Option Uuid
  | .cache id _ | .trigger id _ | .done (.ok id) => some id
  | _ => none

theorem QueuePc.saved_of_result {mq : Bool} {r : Request} {pc : QueuePc}
    (h : (pc.prog mq r).result = some (.ok id)) : pc.saved = some id := by
  cases pc with
  | trigger _ pc =>
    cases pc with
    | finished => cases h; rfl
    | _ => cases h
  | done => cases h; rfl
  | _ => cases h

theorem QueueStep.saved {r : Request} {pc pc' : QueuePc} (hs : QueueStep d r o w pc w' pc')
    (h : ∀ k, pc.saved = some k → ∃ n, w.table.getById k = some n)
    (hsaved : pc'.saved = some id) : ∃ n, w'.table.getById id = some n := by
  cases hs with
  | @create _ n row table hc =>
    have hid : row.id = id := by
      by_cases hsame : row.id = n.id
      · cases hkey : n.idempotencyKey <;>
          simpa [QueuePc.afterCreate, hsame, hkey, QueuePc.saved] using hsaved
      · simpa [QueuePc.afterCreate_other hsame, QueuePc.saved] using hsaved
    refine ⟨row, ?_⟩
    rcases create_cases w.table n with ⟨_, _, -, hmem, -, hc'⟩ | ⟨-, -, t, hc', -, hget⟩ |
      ⟨-, e, hc'⟩
    · cases hc.symm.trans hc'
      exact hid ▸ mem_rows_iff.mp hmem
    · cases hc.symm.trans hc'
      exact (hget id).trans (if_pos hid.symm)
    · cases hc.symm.trans hc'
  | cache => exact h _ hsaved
  | trigger ht => exact ht.table_eq ▸ h _ hsaved
  | _ => cases hsaved

theorem World.Aside.truthful (haside : w.Aside w' id)
    (h : ∀ n, w.table.getById id = some n → n.Truthful log) {n' : Notification}
    (hn' : w'.table.getById id = some n') : n'.Truthful log := by
  cases hn : w.table.getById id with
  | none =>
    obtain ⟨r, t, t', t'', rfl⟩ := haside.new hn n' hn'
    exact r.truthful_notification ..
  | some n =>
    obtain ⟨n'', hn'', ht⟩ := haside.kept n hn
    obtain rfl := Option.some.inj (hn''.symm.trans hn')
    exact ht.truthful (h n hn)

end Dispatch

namespace Machine

variable {d : Deployment Bytes} {log : List (Uuid × Reply)} {m m' : Machine Bytes}
  {l : ServiceLabel}

theorem replies_process {i : Nat} {o : Outcome} {dl : DeliveryPc Bytes} {id : Uuid}
    {t : ServiceState Bytes} (hi : m.deliveries[i]? = some dl)
    (hid : d.taskId dl.message = some id) :
    (m.state d).replies d (.process i o) t = dl.pc.replies id o := by
  simp [ServiceState.replies, deliveries_state hi, hid, DeliveryPc.prog, replyTo_map,
    DispatchPc.reply_prog, DispatchPc.replies]

theorem replies_task {i : Nat} {o : Outcome} {t : Uuid × DispatchPc} {s : ServiceState Bytes}
    (hi : m.tasks[i]? = some t) : (m.state d).replies d (.task i o) s = t.2.replies t.1 o := by
  simp [ServiceState.replies, tasks_state hi, DispatchPc.reply_prog, DispatchPc.replies]

structure Backed (d : Deployment Bytes) (log : List (Uuid × Reply)) (m : Machine Bytes) : Prop where
  built : ∀ c ∈ m.calls, c.2.Built c.1
  used : StatusesUsed m.world.table
  saved : ∀ c ∈ m.calls, ∀ id, c.2.saved = some id → ∃ n, m.world.table.getById id = some n
  rows : ∀ id n, m.world.table.getById id = some n → n.Truthful log
  deliveries : ∀ dl ∈ m.deliveries, ∀ id, d.taskId dl.message = some id →
    dl.pc.Backed log m.world id
  tasks : ∀ t ∈ m.tasks, t.2.Backed log m.world t.1
  queued : ∀ id, (id, .queued) ∈ log → ∃ n, m.world.table.getById id = some n

theorem Step.grows (hs : Step d l m m') (hbuilt : ∀ c ∈ m.calls, c.2.Built c.1) :
    Ledger.Grows m.world m'.world := by
  cases hs with
  | call hi hs => exact .of_aside (hs.aside (hbuilt _ (List.mem_of_getElem? hi)))
  | process _ _ hs | task _ hs => exact .of_work hs
  | sweep hs => exact .of_aside hs.aside
  | @settle _ _ _ disposition =>
    cases disposition <;> exact .of_aside fun _ => .of_table rfl
  | crash => exact .of_aside fun _ => .of_table (Backoff.foldr_requeue_eq _ _).1
  | _ => exact .of_aside fun _ => .of_table rfl

theorem Step.saved (hs : Step d l m m') (h : m.Backed d log) :
    ∀ c ∈ m'.calls, ∀ id, c.2.saved = some id → ∃ n, m'.world.table.getById id = some n := by
  have olds : ∀ c ∈ m.calls, ∀ id, c.2.saved = some id →
      ∃ n, m'.world.table.getById id = some n := by
    intro c hc id hid
    obtain ⟨n, hn⟩ := h.saved c hc id hid
    obtain ⟨n', hn', -⟩ := hs.grows h.built id n hn
    exact ⟨n', hn'⟩
  cases hs with
  | request =>
    intro c hc id hid
    rcases List.mem_append.mp hc with hc | hc
    · exact olds c hc id hid
    · rw [List.mem_singleton.mp hc] at hid
      cases hid
  | call hi hs =>
    have hcall := h.saved _ (List.mem_of_getElem? hi)
    exact Slots.forall_mem_set (fun _ hid => hs.saved hcall hid) olds
  | crash => simp [Machine.crash]
  | _ => exact olds

theorem Step.truthful (hs : Step d l m m') (h : m.Backed d log) :
    ∀ id n, m'.world.table.getById id = some n → n.Truthful log := by
  have work : ∀ {k : Uuid} {o : Outcome} {pc pc' : DispatchPc} {w : World Bytes},
      DispatchStep d k o m.world pc w pc' → pc.Backed log m.world k →
      ∀ id n, w.table.getById id = some n → n.Truthful log := by
    intro k o pc pc' w hs hpc id n hn
    by_cases hid : id = k
    · subst hid
      exact hs.truthful hpc (h.rows id) hn
    · exact h.rows id n ((hs.frame hid).symm.trans hn)
  cases hs with
  | call hi hs =>
    have haside := hs.aside (h.built _ (List.mem_of_getElem? hi))
    exact fun id n => (haside id).truthful (h.rows id)
  | process hi hk hs => exact work hs (h.deliveries _ (List.mem_of_getElem? hi) _ hk)
  | task hi hs => exact work hs (h.tasks _ (List.mem_of_getElem? hi))
  | sweep hs => exact fun id n => (hs.aside id).truthful (h.rows id)
  | @settle _ _ _ disposition => cases disposition <;> exact h.rows
  | crash => exact (Backoff.foldr_requeue_eq _ _).1.symm ▸ h.rows
  | _ => exact h.rows

theorem Step.backed (hs : Step d l m m') (h : m.Backed d log) :
    m'.Backed d (log ++ (m.state d).replies d l (m'.state d)) := by
  have hlog : log ⊆ log ++ (m.state d).replies d l (m'.state d) := List.subset_append_left ..
  have hgrows := hs.grows h.built
  have hsaved := hs.saved h
  have olds : ∀ dl ∈ m.deliveries, ∀ id, d.taskId dl.message = some id →
      dl.pc.Backed (log ++ (m.state d).replies d l (m'.state d)) m'.world id :=
    fun dl hdl id hid => (h.deliveries dl hdl id hid).mono hlog hgrows
  have oldt : ∀ t ∈ m.tasks,
      t.2.Backed (log ++ (m.state d).replies d l (m'.state d)) m'.world t.1 :=
    fun t ht => (h.tasks t ht).mono hlog hgrows
  obtain ⟨hdeliveries, htasks⟩ : (∀ dl ∈ m'.deliveries, ∀ id, d.taskId dl.message = some id →
      dl.pc.Backed (log ++ (m.state d).replies d l (m'.state d)) m'.world id) ∧
      ∀ t ∈ m'.tasks,
        t.2.Backed (log ++ (m.state d).replies d l (m'.state d)) m'.world t.1 := by
    cases hs with
    | deliver =>
      refine ⟨fun dl hdl id hid => ?_, oldt⟩
      rcases List.mem_append.mp hdl with hdl | hdl
      · exact olds dl hdl id hid
      · rw [List.mem_singleton.mp hdl]
        trivial
    | @process _ i o dl k w pc' hi hk hs =>
      refine ⟨Slots.forall_mem_set (fun id hid => ?_) olds, oldt⟩
      obtain rfl := Option.some.inj (hk.symm.trans hid)
      rw [replies_process hi hk]
      exact hs.backed (h.deliveries dl (List.mem_of_getElem? hi) k hk)
    | settle | settleLoose | giveBack => exact ⟨Slots.forall_mem_eraseIdx olds, oldt⟩
    | @takeBack _ i dl hi hheld =>
      exact ⟨Slots.forall_mem_set (olds dl (List.mem_of_getElem? hi)) olds, oldt⟩
    | start | wake =>
      refine ⟨olds, fun t ht => ?_⟩
      rcases List.mem_append.mp ht with ht | ht
      · exact oldt t ht
      · rw [List.mem_singleton.mp ht]
        trivial
    | @task _ i o id pc w pc' hi hs =>
      refine ⟨olds, Slots.forall_mem_set ?_ oldt⟩
      rw [replies_task hi]
      exact hs.backed (h.tasks _ (List.mem_of_getElem? hi))
    | crash => exact ⟨by simp [Machine.crash], by simp [Machine.crash]⟩
    | _ => exact ⟨olds, oldt⟩
  refine ⟨hs.built h.built, hs.used h.built h.used, hsaved, fun id n hn =>
    (hs.truthful h id n hn).mono hlog, hdeliveries, htasks, fun id hid => ?_⟩
  rcases List.mem_append.mp hid with hid | hid
  · obtain ⟨n, hn⟩ := h.queued id hid
    obtain ⟨n', hn', -⟩ := hgrows id n hn
    exact ⟨n', hn'⟩
  · obtain ⟨c, hc, hresult⟩ := ServiceState.mem_replies_queued hid
    obtain ⟨c', hc', rfl⟩ := List.mem_map.mp hc
    exact hsaved c' hc' id (QueuePc.saved_of_result hresult)

theorem backed_reachable {s : ServiceState Bytes}
    (h : (repliesSystem d).Reachable System.always (s, log)) :
    ∃ m : Machine Bytes, s = m.state d ∧ m.sweep.Normal ∧ m.Backed d log := by
  refine h.invariant (P := fun s => ∃ m : Machine Bytes,
    s.1 = m.state d ∧ m.sweep.Normal ∧ m.Backed d s.2) ?_ ?_
  · rintro ⟨⟨w, calls, deliveries, tasks, sweep⟩, log⟩
      ⟨⟨htable, hbroker, hspawned, hsleepers, rfl, rfl, rfl, rfl⟩, rfl⟩
    refine ⟨initial w, rfl, trivial, ?_⟩
    have hempty : ∀ id, w.table.getById id = none := fun id => by rw [htable]; rfl
    exact ⟨by simp [initial], by simp [StatusesUsed, initial, hempty], by simp [initial],
      by simp [initial, hempty], by simp [initial], by simp [initial], by simp⟩
  · rintro ⟨_, log⟩ l ⟨t, log'⟩ ⟨m, rfl, hnormal, hm⟩ - hs
    obtain ⟨hstep, hlog⟩ := System.observed_step hs
    obtain ⟨m', hstep', heq, hnormal'⟩ := step_sim hnormal hstep
    refine ⟨m', heq, hnormal', ?_⟩
    rw [hlog, heq]
    exact hstep'.backed hm

end Machine

end NotiService
