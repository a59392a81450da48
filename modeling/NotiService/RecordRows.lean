import NotiService.EventKeys
import NotiService.Redelivery
import NotiService.Foundation.Rely

/-! What the handler of a Kafka record makes of the table while the rest of the service works
on it. It only adds rows that the record asks for, and when it has returned `Ok` there is a row
for each of them, whatever the others have done in between, as long as they take no row away. -/

namespace NotiService
open Foundation Orchestrator NotificationTable

variable {Bytes : Type}

/-- No row goes or says something else, and a row that comes has been asked for. -/
structure World.Collects (asked : Request → Prop) (w w' : World Bytes) : Prop where
  keeps : w.contents ⊆ w'.contents
  new : ∀ r ∈ w'.contents, r ∈ w.contents ∨ asked r

def World.Holds (w : World Bytes) (key : Option String) : Prop :=
  key ∈ w.contents.map Request.idempotencyKey

namespace World.Collects

variable {asked asked' : Request → Prop} {w w' : World Bytes} {key : Option String}

theorem of_contents (h : w'.contents = w.contents) : w.Collects asked w' :=
  ⟨h ▸ List.Subset.refl _, fun _ hr => .inl (h ▸ hr)⟩

theorem mono (h : w.Collects asked w') (hasked : ∀ r, asked r → asked' r) : w.Collects asked' w' :=
  ⟨h.keeps, fun r hr => (h.new r hr).imp_right (hasked r)⟩

theorem holds (h : w.Collects asked w') (hw : w.Holds key) : w'.Holds key :=
  List.map_subset _ h.keeps hw

theorem of_failed {e : NotiError} {w₁ : World Bytes} {o : Outcome} (hf : Failed e w w₁ o w')
    (h : w.Collects asked w₁) : w.Collects asked w' := by
  cases hf with
  | before => exact .of_contents rfl
  | after => exact h

end World.Collects

theorem World.contents_updateWhere (w : World Bytes) (p : Notification → Bool)
    (f : Notification → Notification) (hid : ∀ n, (f n).id = n.id)
    (hkey : ∀ n, (f n).idempotencyKey = n.idempotencyKey) (hf : ∀ n, (f n).request = n.request) :
    World.contents { w with table := w.table.updateWhere p f hid hkey } = w.contents := by
  have hsame : ∀ n, (if p n then f n else n).request = n.request := by
    intro n
    split
    · exact hf n
    · rfl
  simp only [World.contents, NotificationTable.rows, updateWhere, KeyedTable.updateWhere,
    List.map_map]
  exact List.map_congr_left fun n _ => hsame n

theorem World.collects_create {w : World Bytes} {n row : Notification} {table : NotificationTable}
    (h : w.table.create n = .ok (row, table)) :
    w.Collects (· = n.request) { w with table } ∧
      World.Holds { w with table } n.request.idempotencyKey := by
  rcases create_cases w.table n with ⟨key, m, hkey, hm, hmkey, hc⟩ | ⟨-, -, t, hc, hrows, -⟩ |
    ⟨-, e, hc⟩
  · cases h.symm.trans hc
    refine ⟨.of_contents rfl, List.mem_map.mpr ⟨row.request, List.mem_map_of_mem hm, ?_⟩⟩
    exact hmkey.trans hkey.symm
  · cases h.symm.trans hc
    have hcontents : World.contents { w with table } = w.contents ++ [n.request] := by
      simp only [World.contents, hrows, List.map_append, List.map_cons, List.map_nil]
      rfl
    refine ⟨⟨?_, ?_⟩, ?_⟩
    · rw [hcontents]
      exact List.subset_append_left ..
    · rw [hcontents]
      exact fun r hr => (List.mem_append.mp hr).imp_right List.mem_singleton.mp
    · simp [World.Holds, hcontents]
  · cases h.symm.trans hc

theorem exec_collects {d : Deployment Bytes} {o : Outcome} {β : Type} {op : Op β}
    {w w' : World Bytes} {answer : β} (h : exec d o op w = some (answer, w')) :
    w.Collects (fun r => ∃ n, op.creates = some n ∧ n.request = r) w' := by
  have answered : ∀ {α : Type} {value : α} {w₁ : World Bytes} {r : Except NotiError α},
      w.answer value w₁ o = some (r, w') →
      w.Collects (fun r => ∃ n, op.creates = some n ∧ n.request = r) w₁ →
      w.Collects (fun r => ∃ n, op.creates = some n ∧ n.request = r) w' := by
    intro α value w₁ r ha hw₁
    rcases World.answer_eq_some.mp ha with ⟨-, -, rfl⟩ | ⟨e, -, hf⟩
    · exact hw₁
    · exact .of_failed hf hw₁
  cases op with
  | create n =>
    simp only [exec] at h
    split at h
    · next row table hc =>
      exact answered h ((World.collects_create hc).1.mono fun r hr => ⟨n, rfl, hr.symm⟩)
    · cases h
      exact .of_contents rfl
  | updateStatus | incrementRetry | resetStuckProcessing =>
    exact answered h (.of_contents (World.contents_updateWhere _ _ _ _ _ fun _ => rfl))
  | getById | setValue | incrementWithTtl => exact answered h (.of_contents rfl)
  | newV4 =>
    simp only [exec] at h
    split at h
    · split at h
      · cases h
        exact .of_contents rfl
      · cases h
    · cases h
  | getPendingForRetry limit =>
    simp only [exec] at h
    split at h
    · obtain ⟨due, -, heq⟩ := Option.map_eq_some_iff.mp h
      cases heq
      exact .of_contents rfl
    · cases h
      exact .of_contents rfl
    · cases h
  | render | send =>
    obtain ⟨rfl, -⟩ := World.reply_eq_some.mp h
    exact .of_contents rfl
  | encodeView =>
    simp only [exec] at h
    split at h <;> cases h <;> exact .of_contents rfl
  | publishDispatch | publishRetry =>
    simp only [exec] at h
    split at h
    · exact answered h (.of_contents rfl)
    · cases h
      exact .of_contents rfl
  | _ =>
    cases h
    exact .of_contents rfl

theorem step_collects {d : Deployment Bytes} {o : Outcome} {α : Type} {p p' : Program Op α}
    {w w' : World Bytes} (h : Program.step (exec d o) p w = some (p', w')) :
    w.Collects (fun r => ∃ n, creates p = some n ∧ n.request = r) w' := by
  cases p with
  | done value => cases h
  | call op rest =>
    obtain ⟨answer, hexec, -⟩ := (Program.step_call_eq_some _ _ _ _ _ _).mp h
    exact exec_collects hexec

section Contract

variable {d : Deployment Bytes} {others asked : Request → Prop} {w w' : World Bytes}

def QueuePc.Asks (r : Request) (w : World Bytes) : QueuePc → Prop
  | .create n => n.request = r
  | .cache _ _ | .trigger _ _ | .done (.ok _) => w.Holds r.idempotencyKey
  | _ => True

theorem QueuePc.Asks.mono {r : Request} {pc : QueuePc} (h : pc.Asks r w)
    (hw : w.Collects asked w') : pc.Asks r w' := by
  cases pc with
  | create | ident | clock | clock₂ | clock₃ => exact h
  | cache | trigger => exact hw.holds h
  | done res =>
    cases res with
    | ok id => exact hw.holds h
    | error e => trivial

theorem QueuePc.Asks.afterCreate {r : Request} {n row : Notification}
    (h : w.Holds r.idempotencyKey) : (QueuePc.afterCreate n (.ok row)).Asks r w := by
  by_cases hid : row.id = n.id
  · cases hkey : n.idempotencyKey <;> rw [QueuePc.afterCreate, if_pos hid, hkey] <;> exact h
  · rw [QueuePc.afterCreate_other hid]
    exact h

theorem QueueStep.asks {r : Request} {o : Outcome} {pc pc' : QueuePc}
    (hs : QueueStep d r o w pc w' pc') (h : pc.Asks r w) :
    w.Collects (· = r) w' ∧ pc'.Asks r w' := by
  cases hs with
  | ident | clock | clock₂ => exact ⟨.of_contents rfl, trivial⟩
  | clock₃ => exact ⟨.of_contents rfl, rfl⟩
  | @create _ n row table hc =>
    obtain rfl : n.request = r := h
    obtain ⟨hcollects, hholds⟩ := World.collects_create hc
    exact ⟨hcollects, .afterCreate hholds⟩
  | @createFail _ _ n _ _ _ _ hc hf =>
    obtain rfl : n.request = r := h
    exact ⟨.of_failed hf (World.collects_create hc).1, trivial⟩
  | createRefused => exact ⟨.of_contents rfl, trivial⟩
  | cache => exact ⟨.of_contents rfl, h⟩
  | trigger ht =>
    have hsame : w.Collects (· = r) w' := .of_contents (congrArg (List.map _ ∘ rows) ht.table_eq)
    exact ⟨hsame, hsame.holds h⟩

theorem request_meets {r : Request} (hr : asked r) :
    (r.prog d.mq).Meets (exec d) (World.Collects others) (World.Collects asked)
      (fun res w => ∀ id, res = .ok id → w.Holds r.idempotencyKey) w := by
  have start : QueuePc.ident.Asks r w := trivial
  refine Program.meets_points (QueuePc.prog d.mq r) (fun w pc => pc.Asks r w)
    (fun _ _ _ h hw => h.mono hw) ?_ ?_ start
  · intro o w w' pc p h hs
    obtain ⟨pc', rfl, hstep⟩ := queueStep_of_step hs
    obtain ⟨hcollects, hpc'⟩ := hstep.asks h
    exact ⟨hcollects.mono fun _ heq => heq ▸ hr, pc', rfl, hpc'⟩
  · rintro w pc res h hdone id rfl
    rcases QueuePc.of_isDone _ _ (by rw [hdone]; rfl) with ⟨res', rfl⟩ | ⟨id', rfl⟩
    · obtain rfl := Program.done.inj hdone
      exact h
    · exact h

theorem queue_meets {ctx : MsgCtx} {q : Queued} (hq : asked (q.request ctx)) :
    (Events.queue d.mq ctx q).run.Meets (exec d) (World.Collects others) (World.Collects asked)
      (fun res w => res = .ok () → w.Holds (some (ctx.idem q.label))) w := by
  rw [Events.queue_run]
  refine Program.Meets.map ((request_meets hq).mono fun res w h => ?_) ?_
  · cases res with
    | ok id => exact fun _ => h id rfl
    | error e =>
      intro h
      cases h
  · exact fun res w w' h hw hres => hw.holds (h hres)

theorem queueAll_meets {ctx : MsgCtx} {qs : List Queued}
    (hqs : ∀ q ∈ qs, asked (q.request ctx)) :
    (Events.queueAll d.mq ctx qs).run.Meets (exec d) (World.Collects others)
      (World.Collects asked)
      (fun res w => res = .ok () → ∀ q ∈ qs, w.Holds (some (ctx.idem q.label))) w := by
  induction qs generalizing w with
  | nil => exact fun _ _ _ => by simp
  | cons q qs ih =>
    refine Program.Meets.bind ((queue_meets (hqs q (List.mem_cons_self ..))).mono ?_)
    intro res w hq
    cases res with
    | error e =>
      intro _ _ h
      cases h
    | ok _ =>
      have hrest := ih (fun q' hq' => hqs q' (List.mem_cons_of_mem q hq')) (w := w)
      refine (hrest.keeps (fun _ _ h hw => hw.holds h) (fun _ _ h hw => hw.holds h)
        (hq rfl)).mono fun res v h hres => ?_
      rintro q' hq'
      rcases List.mem_cons.mp hq' with rfl | hq'
      · exact h.2
      · exact h.1 hres q' hq'

theorem alertIfNew_meets {ctx : MsgCtx} {key : String} {alert : List Queued}
    (halert : ∀ q ∈ alert, asked (q.request ctx)) :
    (Events.alertIfNew d.mq ctx key alert).run.Meets (exec d) (World.Collects others)
      (World.Collects asked) (fun _ _ => True) w := by
  rw [Events.alertIfNew_run]
  intro v _ o answer u hexec
  refine ⟨(exec_collects hexec).mono fun r hr => ?_, ?_⟩
  · obtain ⟨n, hn, -⟩ := hr
    cases hn
  · rcases Events.afterBump_cases d.mq ctx alert answer with hdone | ⟨-, -, -, hall⟩
    · rw [hdone]
      exact fun _ _ => trivial
    · rw [hall]
      exact (queueAll_meets halert).mono fun _ _ _ => trivial

def OwnedRecord.Stored (env : EventEnv) (rec : OwnedRecord) (w : World Bytes) : Prop :=
  ∀ q ∈ rec.queued env, w.Holds (some ((rec.ctx env).idem q.label))

variable {env : EventEnv} {rec : OwnedRecord}

theorem OwnedRecord.Stored.mono (h : rec.Stored env w) (hw : w.Collects asked w') :
    rec.Stored env w' :=
  fun q hq => hw.holds (h q hq)

/-- What the handler of a record promises: it adds only what the record asks for, and if the
record asks no counter and the handler returns `Ok`, all of that is there. -/
def OwnedRecord.Promise (env : EventEnv) (rec : OwnedRecord) (res : Except RecordError Unit)
    (w : World Bytes) : Prop := res = .ok () → rec.counter env = none → rec.Stored env w

theorem handling_meets : (rec.handling d.mq env).run.Meets (exec d) (World.Collects others)
    (World.Collects (· ∈ rec.requests env))
    (fun res w => res = .ok () → rec.counter env = none → rec.Stored env w) w := by
  have hasked : ∀ q ∈ rec.queued env, q.request (rec.ctx env) ∈ rec.requests env :=
    fun q hq => List.mem_map_of_mem hq
  unfold OwnedRecord.handling
  cases hcounter : rec.counter env with
  | none => exact (queueAll_meets hasked).mono fun _ _ h hres _ => h hres
  | some key => exact (alertIfNew_meets hasked).mono fun _ _ _ _ h => by cases h

theorem handleRecord_meets : (Consumer.handleRecord d.mq env rec).Meets (exec d)
    (World.Collects others) (World.Collects (· ∈ rec.requests env)) (rec.Promise env) w := by
  rcases Consumer.handleRecord_cases d.mq env rec with ⟨res, hdone, hnone⟩ | hmap
  · rw [hdone]
    intro v _ _ _
    simp [OwnedRecord.Stored, OwnedRecord.queued, hnone]
  · rw [hmap]
    refine Program.Meets.map (handling_meets.mono fun res w h hres => h ?_) ?_
    · cases res with
      | ok _ => rfl
      | error e => cases hres
    · exact fun res w w' h hw hres hcounter => (h hres hcounter).mono hw

end Contract

end NotiService
