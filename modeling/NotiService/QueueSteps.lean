import NotiService.World

/-! The steps of `trigger_dispatch`, `queue_notification` and `recover_pending`, each
with its points, what is left of the program there, and everything a call can do. -/

namespace NotiService
open Foundation Orchestrator

variable {Bytes α : Type}

inductive TriggerPc where
  | enter | publish | spawn | finished
deriving DecidableEq

namespace TriggerPc

variable (mq : Bool) (id : Uuid) (rest : Program Op (Except NotiError α))

/-- What is left of `trigger_dispatch(id)` and then `rest`. -/
def prog : TriggerPc → Program Op (Except NotiError α)
  | .enter => (do triggerDispatch mq id; ExceptT.mk rest : Orchestrator α).run
  | .publish => .call (.publishDispatch id) fun
      | .ok () => rest
      | .error _ => .call (.spawnDispatch id) fun _ => rest
  | .spawn => .call (.spawnDispatch id) fun _ => rest
  | .finished => rest

def afterEnter : TriggerPc := if mq then .publish else .spawn

def afterPublish : Except NotiError Unit → TriggerPc
  | .ok () => .finished
  | .error _ => .spawn

def kind : TriggerPc → Option OpKind
  | .enter => some .enterTriggerDispatch
  | .publish => some .publishDispatch
  | .spawn => some .spawnDispatch
  | .finished => none

theorem prog_enter : prog mq id rest .enter =
    .call (.enterTriggerDispatch id) fun _ => prog mq id rest (afterEnter mq) := by
  refine Program.call_congr fun _ => ?_
  cases mq with
  | false => rfl
  | true => exact Program.call_congr fun r => by cases r <;> rfl

theorem prog_publish : prog mq id rest .publish =
    .call (.publishDispatch id) fun r => prog mq id rest (afterPublish r) :=
  Program.call_congr fun r => by cases r <;> rfl

end TriggerPc

inductive TriggerStep (d : Deployment Bytes) (id : Uuid) :
    Outcome → World Bytes → TriggerPc → World Bytes → TriggerPc → Prop where
  | enter {o w} : TriggerStep d id o w .enter { w with triggered := w.triggered ++ [id] }
      (.afterEnter d.mq)
  | publish {w broker} :
      RabbitMQ.publishDispatch d.topology d.codec w.now id w.broker = .ok broker →
      TriggerStep d id .ok w .publish { w with broker } .finished
  | publishFail {o w broker e w'} :
      RabbitMQ.publishDispatch d.topology d.codec w.now id w.broker = .ok broker →
      Failed e w { w with broker } o w' → TriggerStep d id o w .publish w' .spawn
  | publishUnencoded {o w e} :
      RabbitMQ.publishDispatch d.topology d.codec w.now id w.broker = .error e →
      TriggerStep d id o w .publish w .spawn
  | spawn {o w} : TriggerStep d id o w .spawn { w with spawned := w.spawned ++ [id] } .finished

theorem TriggerStep.triggered {d : Deployment Bytes} {id : Uuid} {o : Outcome} {w w' : World Bytes}
    {pc pc' : TriggerPc} (h : TriggerStep d id o w pc w' pc') :
    w'.triggered = w.triggered ++ (if pc = .enter then [id] else []) ∧ pc' ≠ .enter := by
  cases h with
  | enter => cases hmq : d.mq <;> simp [TriggerPc.afterEnter]
  | publishFail _ hf => cases hf <;> simp
  | _ => simp

theorem TriggerStep.of_finished {d : Deployment Bytes} {id : Uuid} {o : Outcome}
    {w w' : World Bytes} {pc : TriggerPc} (h : TriggerStep d id o w pc w' .finished) :
    pc = .publish ∨ pc = .spawn := by
  generalize hpc' : TriggerPc.finished = pc' at h
  cases h with
  | enter => cases hmq : d.mq <;> simp [TriggerPc.afterEnter, hmq] at hpc'
  | publish => exact .inl rfl
  | spawn => exact .inr rfl
  | _ => cases hpc'

theorem TriggerStep.ne_finished {d : Deployment Bytes} {id : Uuid} {o : Outcome}
    {w w' : World Bytes}
    {pc pc' : TriggerPc} (h : TriggerStep d id o w pc w' pc') : pc ≠ .finished := by
  rintro rfl
  cases h

theorem TriggerStep.table_eq {d : Deployment Bytes} {id : Uuid} {o : Outcome} {w w' : World Bytes}
    {pc pc' : TriggerPc} (h : TriggerStep d id o w pc w' pc') : w'.table = w.table := by
  cases h with
  | publishFail _ hf => cases hf <;> rfl
  | _ => rfl

theorem TriggerStep.issued_eq {d : Deployment Bytes} {id : Uuid} {o : Outcome} {w w' : World Bytes}
    {pc pc' : TriggerPc} (h : TriggerStep d id o w pc w' pc') : w'.issued = w.issued := by
  cases h with
  | publishFail _ hf => cases hf <;> rfl
  | _ => rfl

theorem triggerStep_of_step {d : Deployment Bytes} {id : Uuid} {o : Outcome} {w w' : World Bytes}
    {pc : TriggerPc} {rest p : Program Op (Except NotiError α)} (hpc : pc ≠ .finished)
    (h : Program.step (exec d o) (pc.prog d.mq id rest) w = some (p, w')) :
    ∃ pc', p = pc'.prog d.mq id rest ∧ TriggerStep d id o w pc w' pc' := by
  cases pc with
  | enter =>
    rw [TriggerPc.prog_enter, Program.step_call_eq_some] at h
    obtain ⟨r, hr, rfl⟩ := h
    cases hr
    exact ⟨_, rfl, .enter⟩
  | publish =>
    rw [TriggerPc.prog_publish, Program.step_call_eq_some] at h
    obtain ⟨r, hr, rfl⟩ := h
    refine ⟨_, rfl, ?_⟩
    simp only [exec] at hr
    split at hr
    · next broker hp =>
      rcases World.answer_eq_some.mp hr with ⟨rfl, rfl, rfl⟩ | ⟨e, rfl, hf⟩
      · exact .publish hp
      · exact .publishFail hp hf
    · next e hp =>
      cases hr
      exact .publishUnencoded hp
  | spawn =>
    obtain ⟨r, hr, rfl⟩ := (Program.step_call_eq_some _ _ _ _ _ _).mp h
    cases hr
    exact ⟨.finished, rfl, .spawn⟩
  | finished => exact absurd rfl hpc

inductive QueuePc where
  | ident
  | clock (id : Uuid)
  | clock₂ (id : Uuid) (t : Int)
  | clock₃ (id : Uuid) (t t' : Int)
  | create (n : Notification)
  | cache (id : Uuid) (key : String)
  | trigger (id : Uuid) (pc : TriggerPc)
  | done (r : Except NotiError Uuid)

namespace QueuePc

variable (mq : Bool) (request : Request)

def prog : QueuePc → Program Op (Except NotiError Uuid)
  | .ident => request.prog mq
  | .clock id => (do
      persistAndTrigger mq (request.notification id (← attempt .now) (← attempt .now)
        (← attempt .now)) : Orchestrator Uuid).run
  | .clock₂ id t => (do
      persistAndTrigger mq (request.notification id t (← attempt .now) (← attempt .now)) :
        Orchestrator Uuid).run
  | .clock₃ id t t' => (do
      persistAndTrigger mq (request.notification id t t' (← attempt .now)) :
        Orchestrator Uuid).run
  | .create n => (persistAndTrigger mq n).run
  | .cache id key => .call (.setValue ("idempotency:" ++ key) (.str id.toString) 3600) fun _ =>
      TriggerPc.enter.prog mq id (.done (.ok id))
  | .trigger id pc => pc.prog mq id (.done (.ok id))
  | .done r => .done r

def afterCreate (n : Notification) : Except NotiError Notification → QueuePc
  | .error e => .done (.error e)
  | .ok saved =>
    if saved.id = n.id then
      match n.idempotencyKey with
      | some key => .cache saved.id key
      | none => .trigger saved.id .enter
    else .done (.ok saved.id)

theorem afterCreate_same {n saved : Notification} {key : String} (hid : saved.id = n.id)
    (hkey : n.idempotencyKey = some key) : afterCreate n (.ok saved) = .cache saved.id key := by
  simp [afterCreate, hid, hkey]

theorem afterCreate_other {n saved : Notification} (hid : saved.id ≠ n.id) :
    afterCreate n (.ok saved) = .done (.ok saved.id) := by
  simp [afterCreate, hid]

theorem prog_ident : prog mq request .ident =
    .call .newV4 fun id => prog mq request (.clock id) := rfl

theorem prog_clock (id : Uuid) : prog mq request (.clock id) =
    .call .now fun t => prog mq request (.clock₂ id t) := rfl

theorem prog_clock₂ (id : Uuid) (t : Int) : prog mq request (.clock₂ id t) =
    .call .now fun t' => prog mq request (.clock₃ id t t') := rfl

theorem prog_clock₃ (id : Uuid) (t t' : Int) : prog mq request (.clock₃ id t t') =
    .call .now fun t'' => prog mq request (.create (request.notification id t t' t'')) := rfl

theorem prog_create (n : Notification) : prog mq request (.create n) =
    .call (.create n) fun r => prog mq request (afterCreate n r) := by
  refine Program.call_congr fun r => ?_
  cases r with
  | error e => rfl
  | ok saved =>
    by_cases h : saved.id = n.id
    · rw [afterCreate, if_pos h]
      refine (congrArg ExceptT.run (if_neg (not_not.mpr h))).trans ?_
      cases n.idempotencyKey <;> rfl
    · rw [afterCreate, if_neg h]
      exact congrArg ExceptT.run (if_pos h)

def kind : QueuePc → Option OpKind
  | .ident => some .newV4
  | .clock _ | .clock₂ _ _ | .clock₃ _ _ _ => some .now
  | .create _ => some .create
  | .cache _ _ => some .setValue
  | .trigger _ pc => pc.kind
  | .done _ => none

theorem awaits_prog (pc : QueuePc) : awaits (pc.prog mq request) = pc.kind := by
  cases pc with
  | trigger id pc => cases pc <;> rfl
  | _ => rfl

theorem isDone_prog (pc : QueuePc) : (pc.prog mq request).isDone = pc.kind.isNone := by
  rw [← Program.isNone_peek Op.kind]
  exact congrArg Option.isNone (awaits_prog mq request pc)

theorem of_isDone {pc : QueuePc} (h : (pc.prog mq request).isDone = true) :
    (∃ r, pc = .done r) ∨ ∃ id, pc = .trigger id .finished := by
  rw [isDone_prog, Option.isNone_iff_eq_none] at h
  cases pc with
  | done r => exact .inl ⟨r, rfl⟩
  | trigger id pc =>
    cases pc with
    | finished => exact .inr ⟨id, rfl⟩
    | _ => cases h
  | _ => cases h

end QueuePc

inductive QueueStep (d : Deployment Bytes) (request : Request) :
    Outcome → World Bytes → QueuePc → World Bytes → QueuePc → Prop where
  | ident {w id} : id ∉ w.issued → w.table.getById id = none →
      QueueStep d request (.fresh id) w .ident { w with issued := id :: w.issued } (.clock id)
  | clock {o w id} : QueueStep d request o w (.clock id) w (.clock₂ id w.now)
  | clock₂ {o w id t} : QueueStep d request o w (.clock₂ id t) w (.clock₃ id t w.now)
  | clock₃ {o w id t t'} : QueueStep d request o w (.clock₃ id t t') w
      (.create (request.notification id t t' w.now))
  | create {w n row table} : w.table.create n = .ok (row, table) →
      QueueStep d request .ok w (.create n) { w with table } (.afterCreate n (.ok row))
  | createFail {o w n row table e w'} : w.table.create n = .ok (row, table) →
      Failed e w { w with table } o w' → QueueStep d request o w (.create n) w' (.done (.error e))
  | createRefused {o w n e} : w.table.create n = .error e →
      QueueStep d request o w (.create n) w (.done (.error e))
  | cache {o w id key} : QueueStep d request o w (.cache id key) w (.trigger id .enter)
  | trigger {o w id pc w' pc'} : TriggerStep d id o w pc w' pc' →
      QueueStep d request o w (.trigger id pc) w' (.trigger id pc')

theorem queueStep_of_step {d : Deployment Bytes} {request : Request} {o : Outcome}
    {w w' : World Bytes} {pc : QueuePc} {p : Program Op (Except NotiError Uuid)}
    (h : Program.step (exec d o) (pc.prog d.mq request) w = some (p, w')) :
    ∃ pc', p = pc'.prog d.mq request ∧ QueueStep d request o w pc w' pc' := by
  cases pc with
  | ident =>
    rw [QueuePc.prog_ident, Program.step_call_eq_some] at h
    obtain ⟨r, hr, rfl⟩ := h
    refine ⟨_, rfl, ?_⟩
    cases o with
    | fresh id =>
      simp only [exec] at hr
      split at hr
      · next hfresh =>
        cases hr
        exact .ident hfresh.1 hfresh.2
      · cases hr
    | _ => cases hr
  | clock id =>
    rw [QueuePc.prog_clock, Program.step_call_eq_some] at h
    obtain ⟨r, hr, rfl⟩ := h
    cases hr
    exact ⟨_, rfl, .clock⟩
  | clock₂ id t =>
    rw [QueuePc.prog_clock₂, Program.step_call_eq_some] at h
    obtain ⟨r, hr, rfl⟩ := h
    cases hr
    exact ⟨_, rfl, .clock₂⟩
  | clock₃ id t t' =>
    rw [QueuePc.prog_clock₃, Program.step_call_eq_some] at h
    obtain ⟨r, hr, rfl⟩ := h
    cases hr
    exact ⟨_, rfl, .clock₃⟩
  | create n =>
    rw [QueuePc.prog_create, Program.step_call_eq_some] at h
    obtain ⟨r, hr, rfl⟩ := h
    refine ⟨_, rfl, ?_⟩
    simp only [exec] at hr
    split at hr
    · next row table hc =>
      rcases World.answer_eq_some.mp hr with ⟨rfl, rfl, rfl⟩ | ⟨e, rfl, hf⟩
      · exact .create hc
      · exact .createFail hc hf
    · next e hc =>
      cases hr
      exact .createRefused hc
  | cache id key =>
    obtain ⟨r, hr, rfl⟩ := (Program.step_call_eq_some _ _ _ _ _ _).mp h
    refine ⟨.trigger id .enter, rfl, ?_⟩
    rcases World.answer_eq_some.mp hr with ⟨-, -, rfl⟩ | ⟨e, -, _ | _⟩ <;> exact .cache
  | trigger id pc =>
    by_cases hpc : pc = .finished
    · subst hpc
      cases h
    · obtain ⟨pc', rfl, hs⟩ := triggerStep_of_step hpc h
      exact ⟨.trigger id pc', rfl, .trigger hs⟩
  | done r => cases h

theorem TriggerStep.step {d : Deployment Bytes} {id : Uuid} {o : Outcome} {w w' : World Bytes}
    {pc pc' : TriggerPc} (h : TriggerStep d id o w pc w' pc')
    (rest : Program Op (Except NotiError α)) :
    Program.step (exec d o) (pc.prog d.mq id rest) w = some (pc'.prog d.mq id rest, w') := by
  cases h with
  | enter =>
    rw [TriggerPc.prog_enter, Program.step_call_eq_some]
    exact ⟨(), rfl, rfl⟩
  | publish hp =>
    rw [TriggerPc.prog_publish, Program.step_call_eq_some]
    exact ⟨.ok (), by simp [exec, hp, World.answer], rfl⟩
  | publishFail hp hf =>
    rw [TriggerPc.prog_publish, Program.step_call_eq_some]
    exact ⟨.error _, by cases hf <;> simp [exec, hp, World.answer] <;> rfl, rfl⟩
  | publishUnencoded hp =>
    rw [TriggerPc.prog_publish, Program.step_call_eq_some]
    exact ⟨.error _, by simp only [exec, hp]; rfl, rfl⟩
  | spawn => rfl

theorem QueuePc.ok_of_cache {d : Deployment Bytes} {mq : Bool} {request : Request} {o : Outcome}
    {w w' : World Bytes} {id : Uuid} {key : String} {p : Program Op (Except NotiError Uuid)}
    (h : Program.step (exec d o) ((QueuePc.cache id key).prog mq request) w = some (p, w'))
    (hok : o.failed = false) : o = .ok := by
  cases o with
  | ok => rfl
  | fail | failAfter | refuse => cases hok
  | text | fresh | rows => cases h

/-- `QueueStep` lists no step that the program cannot take. -/
theorem QueueStep.step {d : Deployment Bytes} {request : Request} {o : Outcome}
    {w w' : World Bytes} {pc pc' : QueuePc} (h : QueueStep d request o w pc w' pc')
    (hcache : ∀ id key, pc = .cache id key → o = .ok) :
    Program.step (exec d o) (pc.prog d.mq request) w = some (pc'.prog d.mq request, w') := by
  cases h with
  | ident hissued hnew =>
    rw [QueuePc.prog_ident, Program.step_call_eq_some]
    exact ⟨_, if_pos ⟨hissued, hnew⟩, rfl⟩
  | clock => rfl
  | clock₂ => rfl
  | clock₃ => rfl
  | create hc =>
    rw [QueuePc.prog_create, Program.step_call_eq_some]
    exact ⟨.ok _, by simp [exec, hc, World.answer], rfl⟩
  | createFail hc hf =>
    rw [QueuePc.prog_create, Program.step_call_eq_some]
    exact ⟨.error _, by cases hf <;> simp [exec, hc, World.answer], rfl⟩
  | createRefused hc =>
    rw [QueuePc.prog_create, Program.step_call_eq_some]
    exact ⟨.error _, by simp [exec, hc], rfl⟩
  | cache =>
    obtain rfl := hcache _ _ rfl
    rfl
  | trigger ht => exact ht.step _

inductive RecoverPc where
  | reset (stuckThresholdSecs batchLimit : Int)
  | select (batchLimit : Int)
  | trigger (id : Uuid) (pc : TriggerPc) (rest : List Notification) (count : Nat)
  | done (r : Except NotiError Nat)

namespace RecoverPc

variable (mq : Bool)

def triggerAll (due : List Notification) (count : Nat) : Program Op (Except NotiError Nat) :=
  (do due.forM fun n => triggerDispatch mq n.id
      return count : Orchestrator Nat).run

def prog : RecoverPc → Program Op (Except NotiError Nat)
  | .reset secs limit => (recoverPending mq secs limit).run
  | .select limit => (do
      let due : List Notification ← call (.getPendingForRetry limit)
      due.forM fun n => triggerDispatch mq n.id
      return due.length : Orchestrator Nat).run
  | .trigger id pc rest count => pc.prog mq id (triggerAll mq rest count)
  | .done r => .done r

def loop (count : Nat) : List Notification → RecoverPc
  | [] => .done (.ok count)
  | n :: rest => .trigger n.id .enter rest count

def afterSelect : Except NotiError (List Notification) → RecoverPc
  | .ok due => loop due.length due
  | .error e => .done (.error e)

def kind : RecoverPc → Option OpKind
  | .reset _ _ => some .resetStuckProcessing
  | .select _ => some .getPendingForRetry
  | .trigger _ pc _ _ => pc.kind
  | .done _ => none

theorem prog_loop (count : Nat) (due : List Notification) :
    prog mq (loop count due) = triggerAll mq due count := by
  cases due with
  | nil => rfl
  | cons n rest =>
    refine Program.call_congr fun _ => ?_
    cases mq with
    | false => rfl
    | true => exact Program.call_congr fun r => by cases r <;> rfl

theorem prog_reset (secs limit : Int) : prog mq (.reset secs limit) =
    .call (.resetStuckProcessing secs) fun r => prog mq (match r with
      | .ok _ => .select limit
      | .error e => .done (.error e)) :=
  Program.call_congr fun r => by cases r <;> rfl

theorem prog_select (limit : Int) : prog mq (.select limit) =
    .call (.getPendingForRetry limit) fun r => prog mq (afterSelect r) :=
  Program.call_congr fun r => by
    cases r with
    | error e => rfl
    | ok due => exact (prog_loop mq due.length due).symm

/-- Between two rows the loop stands at the next one, or is done. -/
def Normal : RecoverPc → Prop
  | .trigger _ .finished _ _ => False
  | _ => True

theorem normal_loop (count : Nat) (due : List Notification) : (loop count due).Normal := by
  cases due <;> trivial

theorem awaits_prog {pc : RecoverPc} (h : pc.Normal) : awaits (pc.prog mq) = pc.kind := by
  cases pc with
  | trigger id pc rest count =>
    cases pc with
    | finished => exact h.elim
    | _ => rfl
  | _ => rfl

theorem isDone_prog {pc : RecoverPc} (h : pc.Normal) :
    (pc.prog mq).isDone = pc.kind.isNone := by
  rw [← Program.isNone_peek Op.kind]
  exact congrArg Option.isNone (awaits_prog mq h)

end RecoverPc

inductive RecoverStep (d : Deployment Bytes) :
    Outcome → World Bytes → RecoverPc → World Bytes → RecoverPc → Prop where
  | reset {w secs limit} : RecoverStep d .ok w (.reset secs limit)
      (w.resetStuckProcessing secs) (.select limit)
  | resetFail {o w secs limit e w'} : Failed e w (w.resetStuckProcessing secs) o w' →
      RecoverStep d o w (.reset secs limit) w' (.done (.error e))
  | select {w limit ids due} : w.table.getPendingForRetry w.now limit ids = some due →
      RecoverStep d (.rows ids) w (.select limit) w (.loop due.length due)
  | selectFail {w limit e} : RecoverStep d (.fail e) w (.select limit) w (.done (.error e))
  | trigger {o w id pc rest count w' pc'} : TriggerStep d id o w pc w' pc' → pc' ≠ .finished →
      RecoverStep d o w (.trigger id pc rest count) w' (.trigger id pc' rest count)
  | triggered {o w id pc rest count w'} : TriggerStep d id o w pc w' .finished →
      RecoverStep d o w (.trigger id pc rest count) w' (.loop count rest)

theorem recoverStep_of_step {d : Deployment Bytes} {o : Outcome} {w w' : World Bytes}
    {pc : RecoverPc} {p : Program Op (Except NotiError Nat)} (hpc : pc.Normal)
    (h : Program.step (exec d o) (pc.prog d.mq) w = some (p, w')) :
    ∃ pc', p = pc'.prog d.mq ∧ RecoverStep d o w pc w' pc' := by
  cases pc with
  | reset secs limit =>
    rw [RecoverPc.prog_reset, Program.step_call_eq_some] at h
    obtain ⟨r, hr, rfl⟩ := h
    rcases World.answer_eq_some.mp hr with ⟨rfl, rfl, rfl⟩ | ⟨e, rfl, hf⟩
    · exact ⟨_, rfl, .reset⟩
    · exact ⟨_, rfl, .resetFail hf⟩
  | select limit =>
    rw [RecoverPc.prog_select, Program.step_call_eq_some] at h
    obtain ⟨r, hr, rfl⟩ := h
    refine ⟨_, rfl, ?_⟩
    cases o with
    | rows ids =>
      obtain ⟨due, hdue, heq⟩ := Option.map_eq_some_iff.mp hr
      cases heq
      exact .select hdue
    | fail e =>
      cases hr
      exact .selectFail
    | _ => cases hr
  | trigger id pc rest count =>
    have hne : pc ≠ .finished := by
      rintro rfl
      exact hpc
    obtain ⟨pc', rfl, hs⟩ := triggerStep_of_step hne h
    by_cases hfin : pc' = .finished
    · subst hfin
      exact ⟨.loop count rest, (RecoverPc.prog_loop d.mq count rest).symm, .triggered hs⟩
    · exact ⟨.trigger id pc' rest count, rfl, .trigger hs hfin⟩
  | done r => cases h

theorem RecoverStep.normal {d : Deployment Bytes} {o : Outcome} {w w' : World Bytes}
    {pc pc' : RecoverPc} (h : RecoverStep d o w pc w' pc') : pc'.Normal := by
  cases h with
  | @trigger _ _ _ _ _ _ _ pc' _ hne =>
    cases pc' with
    | finished => exact absurd rfl hne
    | _ => trivial
  | select | triggered => exact RecoverPc.normal_loop ..
  | _ => trivial

end NotiService
