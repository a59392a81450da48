import NotiService.Events
import NotiService.QueueSteps

/-! What the rows show that an event creates. A run of `dispatch` creates a row for each
notification the event queues, in order, up to where it stops. -/

namespace NotiService
open Foundation Orchestrator

/-- The arguments a row was requested with. -/
def Notification.request (n : Notification) : Request :=
  ⟨n.userId, n.channel, n.recipient, n.templateId, n.vars, n.idempotencyKey⟩

def Op.row {κ : Type} (view : Notification → Option κ) {β : Type} (op : Op β) : Option κ :=
  op.creates.bind view

abbrev Op.request {β : Type} (op : Op β) : Option Request :=
  op.row fun n => some n.request

def Op.bumps {β : Type} : Op β → Option String
  | .incrementWithTtl key _ => some key
  | _ => none

namespace Events

section Silent

variable {κ : Type} {view : {β : Type} → Op β → Option κ} (mq : Bool)
  (hview : ∀ {β : Type} (op : Op β), op.creates = none → op.bumps = none → view op = none)
include hview

theorem silent_trigger {α : Type} (id : Uuid) {rest : Program Op (Except NotiError α)}
    (h : Program.Silent view rest) : Program.Silent view (TriggerPc.enter.prog mq id rest) := by
  rw [TriggerPc.prog_enter]
  refine Program.silent_call (hview _ rfl rfl) fun _ => ?_
  cases mq with
  | false => exact Program.silent_call (hview _ rfl rfl) fun _ => h
  | true =>
    refine Program.silent_call (hview _ rfl rfl) fun r => ?_
    cases r with
    | ok _ => exact h
    | error _ => exact Program.silent_call (hview _ rfl rfl) fun _ => h

theorem silent_afterCreate (request : Request) (n : Notification)
    (r : Except NotiError Notification) :
    Program.Silent view ((QueuePc.afterCreate n r).prog mq request) := by
  have htrigger : ∀ id, Program.Silent view ((QueuePc.trigger id .enter).prog mq request) :=
    fun id => silent_trigger mq hview id (Program.silent_done _)
  unfold QueuePc.afterCreate
  split
  · exact Program.silent_done _
  · split
    · split
      · exact Program.silent_call (hview _ rfl rfl) fun _ => htrigger _
      · exact htrigger _
    · exact Program.silent_done _

end Silent

theorem row_eq_none {κ β : Type} (view : Notification → Option κ) (op : Op β)
    (h : op.creates = none) (_ : op.bumps = none) : op.row view = none := by
  rw [Op.row, h]
  rfl

theorem request_request (ctx : MsgCtx) (q : Queued) (id : Uuid) (t t' t'' : Int) :
    some ((q.request ctx).notification id t t' t'').request = some (q.request ctx) := rfl

theorem silent_queueAll (mq : Bool) (ctx : MsgCtx) (qs : List Queued) :
    Program.Silent Op.bumps (queueAll mq ctx qs).run := by
  have hrequest : ∀ request : Request, Program.Silent Op.bumps (request.prog mq) := by
    intro request
    refine Program.silent_call rfl fun id => Program.silent_call rfl fun t =>
      Program.silent_call rfl fun t' => Program.silent_call rfl fun t'' => ?_
    change Program.Silent Op.bumps
      ((QueuePc.create (request.notification id t t' t'')).prog mq request)
    rw [QueuePc.prog_create]
    exact Program.silent_call rfl fun r => silent_afterCreate mq (fun _ _ h => h) request _ r
  induction qs with
  | nil => exact Program.silent_done _
  | cons q qs ih =>
    have hq : Program.Silent Op.bumps (queue mq ctx q).run := by
      rw [queue_run]
      exact Program.silent_bind (hrequest _) fun _ => Program.silent_done _
    refine Program.silent_bind hq fun r => ?_
    cases r with
    | ok _ => exact ih
    | error _ => exact Program.silent_done _

section Rows

variable {κ : Type} {view : Notification → Option κ} (mq : Bool) (ctx : MsgCtx)

theorem shows_request (request : Request) {k : κ}
    (h : ∀ id t t' t'', view (request.notification id t t' t'') = some k) :
    Program.Shows (Op.row view) (request.prog mq) k := by
  refine Program.shows_skip rfl fun id => Program.shows_skip rfl fun t =>
    Program.shows_skip rfl fun t' => Program.shows_skip rfl fun t'' => ?_
  change Program.Shows (Op.row view)
    ((QueuePc.create (request.notification id t t' t'')).prog mq request) k
  rw [QueuePc.prog_create]
  exact Program.shows_call (h id t t' t'') fun r =>
    silent_afterCreate mq (row_eq_none view) request _ r

theorem path_trigger {α : Type} (id : Uuid) {rest : Program Op (Except NotiError α)}
    {ks : List κ} {r : Option (Except NotiError α)} (h : Program.Path (Op.row view) rest ks r) :
    Program.Path (Op.row view) (TriggerPc.enter.prog mq id rest) ks r := by
  rw [TriggerPc.prog_enter]
  refine .call () ?_
  cases mq with
  | false => exact .call () h
  | true => exact .call (.ok ()) h

theorem path_request (request : Request) {key : String} (hkey : request.idempotencyKey = some key)
    {k : κ} (h : ∀ id t t' t'', view (request.notification id t t' t'') = some k) (id : Uuid) :
    Program.Path (Op.row view) (request.prog mq) [k] (some (.ok id)) := by
  refine .call id (.call 0 (.call 0 (.call 0 ?_)))
  change Program.Path (Op.row view) ((QueuePc.create (request.notification id 0 0 0)).prog mq
    request)
    _ _
  rw [QueuePc.prog_create]
  refine .shown (h id 0 0 0) (.ok (request.notification id 0 0 0)) ?_
  rw [QueuePc.afterCreate_same rfl hkey]
  exact .call (.ok ()) (path_trigger mq id (.done _))

variable {ctx}
variable {shown : Queued → κ}
  (h : ∀ q id t t' t'', view ((q.request ctx).notification id t t' t'') = some (shown q))
include h

theorem queueAll_rows {qs : List Queued} {ks : List κ} {r : Option (Except NotiError Unit)}
    (hpath : Program.Path (Op.row view) (queueAll mq ctx qs).run ks r) : ks <+: qs.map shown := by
  induction qs generalizing ks with
  | nil =>
    obtain ⟨rfl, -⟩ := Program.path_done hpath
    exact List.prefix_refl _
  | cons q qs ih =>
    have hq : Program.Shows (Op.row view) (queue mq ctx q).run (shown q) := by
      rw [queue_run]
      exact Program.shows_map _ (shows_request mq _ (h q))
    rw [List.map_cons]
    rcases Program.path_bind hpath with ⟨hstop, rfl⟩ | ⟨ks₁, ks₂, a, h₁, h₂, rfl⟩
    · rcases hq _ _ hstop with rfl | ⟨rfl, -⟩
      · exact List.prefix_append _ _
      · exact List.nil_prefix
    · obtain rfl := (hq _ _ h₁).resolve_right fun hnil => nomatch hnil.2
      cases a with
      | error e =>
        obtain ⟨rfl, -⟩ := Program.path_done h₂
        exact List.prefix_append _ _
      | ok _ => exact List.cons_prefix_cons.mpr ⟨rfl, ih h₂⟩

theorem queueAll_rows_ok {qs : List Queued} {ks : List κ}
    (hpath : Program.Path (Op.row view) (queueAll mq ctx qs).run ks (some (.ok ()))) :
    ks = qs.map shown := by
  induction qs generalizing ks with
  | nil => exact (Program.path_done hpath).1
  | cons q qs ih =>
    have hq : Program.Shows (Op.row view) (queue mq ctx q).run (shown q) := by
      rw [queue_run]
      exact Program.shows_map _ (shows_request mq _ (h q))
    rcases Program.path_bind hpath with ⟨-, hstop⟩ | ⟨ks₁, ks₂, a, h₁, h₂, rfl⟩
    · cases hstop
    · obtain rfl := (hq _ _ h₁).resolve_right fun hnil => nomatch hnil.2
      cases a with
      | error e => exact nomatch (Program.path_done h₂).2 _ rfl
      | ok _ => exact congrArg _ (ih h₂)

theorem queueAll_allRows (qs : List Queued) :
    Program.Path (Op.row view) (queueAll mq ctx qs).run (qs.map shown) (some (.ok ())) := by
  induction qs with
  | nil => exact .done _
  | cons q qs ih =>
    have hq : Program.Path (Op.row view) (queue mq ctx q).run [shown q] (some (.ok ())) := by
      rw [queue_run]
      exact (path_request mq (q.request ctx) rfl (h q) ⟨0⟩).bind (.done _)
    exact hq.bind ih

theorem alertIfNew_rows {key : String} {alert : List Queued} {ks : List κ}
    {r : Option (Except NotiError Unit)}
    (hpath : Program.Path (Op.row view) (alertIfNew mq ctx key alert).run ks r) :
    ks <+: alert.map shown := by
  rw [alertIfNew_run] at hpath
  rcases Program.path_call hpath with ⟨rfl, -⟩ | ⟨answer, ks', hrest, rfl⟩
  · exact List.nil_prefix
  · rcases afterBump_cases mq ctx alert answer with heq | ⟨seen, -, rfl, heq⟩ <;>
      rw [heq] at hrest
    · obtain ⟨rfl, -⟩ := Program.path_done hrest
      exact List.nil_prefix
    · exact queueAll_rows mq h hrest

theorem alertIfNew_allRows (key : String) (alert : List Queued) :
    Program.Path (Op.row view) (alertIfNew mq ctx key alert).run (alert.map shown)
      (some (.ok ())) := by
  rw [alertIfNew_run]
  refine .call (.ok 1) ?_
  rw [afterBump_first (Nat.le_refl 1)]
  exact queueAll_allRows mq h alert

variable {env : EventEnv} {eventType : String} {data : Json}

theorem dispatch_rows {ks : List κ} {r : Option (Except NotiError Unit)}
    (hpath : Program.Path (Op.row view) (dispatch mq env ctx eventType data).run ks r) :
    ks <+: (queued env eventType data).map shown := by
  rw [dispatch_eq] at hpath
  split at hpath
  · exact queueAll_rows mq h hpath
  · exact alertIfNew_rows mq h hpath

theorem dispatch_allRows : Program.Path (Op.row view) (dispatch mq env ctx eventType data).run
    ((queued env eventType data).map shown) (some (.ok ())) := by
  rw [dispatch_eq]
  split
  · exact queueAll_allRows mq h _
  · exact alertIfNew_allRows mq h _ _

end Rows

end Events

end NotiService
