import NotiService.Backoff
import NotiService.KafkaSession
import NotiService.RecordRows

/-! The server as one process: the Kafka consumer beside the API, the RabbitMQ consumer, the
tasks and the sweep, all on one database. A crash ends everything at once. -/

namespace NotiService
open Foundation Orchestrator Service NotificationTable

variable {Bytes : Type}

structure ServerState (Bytes : Type) where
  service : ServiceState Bytes
  kafka : KafkaState Bytes

inductive ServerLabel (Bytes : Type) where
  | service (l : ServiceLabel)
  | kafka (l : KafkaLabel Bytes)

def KafkaState.beside (s : KafkaState Bytes) (world : World Bytes) : ServiceLabel → KafkaState Bytes
  | .crash => { s with world, session := none }
  | _ => { s with world }

def serverSystem (d : Deployment Bytes) (env : EventEnv) :
    System (ServerState Bytes) (ServerLabel Bytes) where
  init s := (serviceSystem d).init s.service ∧ (kafkaSystem d env).init s.kafka ∧
    s.kafka.world = s.service.world
  step s
    | .service l => ((serviceSystem d).step s.service l).map fun service =>
        ⟨service, s.kafka.beside service.world l⟩
    -- the others are the other half of this system
    | .kafka (.interfere _) => none
    | .kafka l => ((kafkaSystem d env).step s.kafka l).map fun kafka =>
        ⟨{ s.service with world := kafka.world }, kafka⟩

section Service

variable {d : Deployment Bytes} {asked : Request → Prop} {α β : Type}

/-- Whatever else happens, the program adds only rows that have been asked for. -/
def OnlyAsks (d : Deployment Bytes) (asked : Request → Prop) (p : Program Op α) : Prop :=
  ∀ w, p.Meets (exec d) (fun _ _ => True) (World.Collects asked) (fun _ _ => True) w

theorem OnlyAsks.step {p p' : Program Op α} {o : Outcome} {w w' : World Bytes}
    (h : OnlyAsks d asked p) (hs : Program.step (exec d o) p w = some (p', w')) :
    w.Collects asked w' ∧ OnlyAsks d asked p' := by
  obtain ⟨hcollects, hp'⟩ := (h w).step hs
  exact ⟨hcollects, fun v => hp'.others (.single trivial)⟩

theorem onlyAsks_done (value : α) : OnlyAsks d asked (.done value) := fun _ _ _ => trivial

theorem OnlyAsks.map {p : Program Op α} (f : α → β) (h : OnlyAsks d asked p) :
    OnlyAsks d asked (p.map f) :=
  fun w => Program.Meets.map (h w) fun _ _ _ _ _ => trivial

theorem onlyAsks_points {π : Type} (prog : π → Program Op α) (here : π → Prop)
    (hcreates : ∀ pc n, here pc → creates (prog pc) = some n → asked n.request)
    (hstep : ∀ o w w' pc p, here pc → Program.step (exec d o) (prog pc) w = some (p, w') →
      ∃ pc', p = prog pc' ∧ here pc') {pc : π} (h : here pc) : OnlyAsks d asked (prog pc) := by
  refine fun w => Program.meets_points prog (fun _ => here) (fun _ _ _ h _ => h) ?_
    (fun _ _ _ _ _ => trivial) h
  intro o w w' pc p hpc hs
  refine ⟨(step_collects hs).mono fun r hr => ?_, hstep o w w' pc p hpc hs⟩
  obtain ⟨n, hn, rfl⟩ := hr
  exact hcreates pc n hpc hn

theorem onlyAsks_dispatch (id : Uuid) : OnlyAsks d asked (dispatch d.mq id).run := by
  have start : OnlyAsks d asked (DispatchPc.prog d.mq id .load) := by
    refine onlyAsks_points (DispatchPc.prog d.mq id) (fun _ => True) ?_ ?_ trivial
    · intro pc n _ hn
      cases pc <;> cases hn
    · intro o w w' pc p _ hs
      obtain ⟨pc', rfl, -⟩ := dispatchStep_of_step hs
      exact ⟨pc', rfl, trivial⟩
  exact start

theorem onlyAsks_bootSweep : OnlyAsks d asked (bootSweep d.mq).prog := by
  have start : OnlyAsks d asked
      (RecoverPc.prog d.mq (.reset stuckProcessingSecs recoveryBatch)) := by
    refine onlyAsks_points (RecoverPc.prog d.mq) RecoverPc.Normal ?_ ?_ trivial
    · intro pc n hpc hn
      cases pc with
      | trigger id pc rest count =>
        cases pc with
        | finished => exact hpc.elim
        | _ => cases hn
      | _ => cases hn
    · intro o w w' pc p hpc hs
      obtain ⟨pc', rfl, hstep⟩ := recoverStep_of_step hpc hs
      exact ⟨pc', rfl, hstep.normal⟩
  exact start

theorem QueueStep.creates {r : Request} {o : Outcome} {w w' : World Bytes} {pc pc' : QueuePc}
    (hs : QueueStep d r o w pc w' pc') {n : Notification}
    (hn : creates (pc'.prog d.mq r) = some n) : n.request = r := by
  cases hs with
  | clock₃ =>
    cases hn
    rfl
  | @create _ n row =>
    by_cases hid : row.id = n.id
    · cases hkey : n.idempotencyKey <;> rw [QueuePc.afterCreate, if_pos hid, hkey] at hn <;>
        cases hn
    · rw [QueuePc.afterCreate_other hid] at hn
      cases hn
  | @trigger _ _ _ _ _ pc' =>
    cases pc' <;> cases hn
  | _ => cases hn

theorem onlyAsks_request {r : Request} (hr : asked r) : OnlyAsks d asked (r.prog d.mq) := by
  have start : OnlyAsks d asked (QueuePc.prog d.mq r .ident) := by
    refine onlyAsks_points (QueuePc.prog d.mq r)
      (fun pc => ∀ n, creates (pc.prog d.mq r) = some n → n.request = r) ?_ ?_ ?_
    · exact fun pc n hpc hn => hpc n hn ▸ hr
    · intro o w w' pc p _ hs
      obtain ⟨pc', rfl, hstep⟩ := queueStep_of_step hs
      exact ⟨pc', rfl, fun n hn => hstep.creates hn⟩
    · rw [QueuePc.prog_ident]
      intro n hn
      cases hn
  exact start

theorem onlyAsks_processDispatchPayload (body : Bytes) :
    OnlyAsks d asked (Consumer.processDispatchPayload d.codec d.mq body) := by
  unfold Consumer.processDispatchPayload
  split
  · exact onlyAsks_done _
  · exact (onlyAsks_dispatch _).map _

structure ServiceState.Asks (d : Deployment Bytes) (asked : Request → Prop)
    (s : ServiceState Bytes) : Prop where
  calls : ∀ c ∈ s.calls, OnlyAsks d asked c.prog
  deliveries : ∀ dl ∈ s.deliveries, OnlyAsks d asked dl.prog
  tasks : ∀ t ∈ s.tasks, OnlyAsks d asked t.prog
  sweep : OnlyAsks d asked s.sweep.prog

theorem World.Collects.of_table {w w' : World Bytes} (h : w'.table = w.table) :
    w.Collects asked w' := .of_contents (congrArg (List.map _ ∘ rows) h)

theorem ServiceState.Asks.step {s t : ServiceState Bytes} {l : ServiceLabel}
    (h : s.Asks d asked) (hl : ∀ r, l = .request r → asked r)
    (hs : (serviceSystem d).step s l = some t) :
    s.world.Collects asked t.world ∧ t.Asks d asked := by
  cases l with
  | tick ms =>
    cases hs
    exact ⟨.of_table rfl, h.calls, h.deliveries, h.tasks, h.sweep⟩
  | request r =>
    cases hs
    refine ⟨.of_table rfl, ?_, h.deliveries, h.tasks, h.sweep⟩
    simpa [or_imp, forall_and] using ⟨h.calls, onlyAsks_request (hl r rfl)⟩
  | call i o =>
    obtain ⟨c, hc, hs⟩ := Option.bind_eq_some_iff.mp hs
    obtain ⟨⟨p, w⟩, hstep, rfl⟩ := Option.map_eq_some_iff.mp hs
    obtain ⟨hcollects, hp⟩ := (h.calls c (List.mem_of_getElem? hc)).step hstep
    refine ⟨hcollects, fun c' hc' => ?_, h.deliveries, h.tasks, h.sweep⟩
    rcases List.mem_or_eq_of_mem_set hc' with hc' | rfl
    · exact h.calls c' hc'
    · exact hp
  | deliver =>
    obtain ⟨⟨msg, broker⟩, -, rfl⟩ := Option.map_eq_some_iff.mp hs
    refine ⟨.of_table rfl, h.calls, ?_, h.tasks, h.sweep⟩
    simpa [or_imp, forall_and] using ⟨h.deliveries, onlyAsks_processDispatchPayload msg.body⟩
  | process i o =>
    obtain ⟨dl, hdl, hs⟩ := Option.bind_eq_some_iff.mp hs
    obtain ⟨⟨p, w⟩, hstep, rfl⟩ := Option.map_eq_some_iff.mp hs
    obtain ⟨hcollects, hp⟩ := (h.deliveries dl (List.mem_of_getElem? hdl)).step hstep
    refine ⟨hcollects, h.calls, fun dl' hdl' => ?_, h.tasks, h.sweep⟩
    rcases List.mem_or_eq_of_mem_set hdl' with hdl' | rfl
    · exact h.deliveries dl' hdl'
    · exact hp
  | settle i =>
    obtain ⟨dl, -, hs⟩ := Option.bind_eq_some_iff.mp hs
    obtain ⟨disposition, -, rfl⟩ := Option.map_eq_some_iff.mp hs
    refine ⟨.of_table ?_, h.calls,
      fun dl' hdl' => h.deliveries dl' (List.mem_of_mem_eraseIdx hdl'), h.tasks, h.sweep⟩
    cases dl.held <;> cases disposition <;> simp [settle]
  | takeBack i running =>
    obtain ⟨dl, hdl, hs⟩ := Option.bind_eq_some_iff.mp hs
    obtain ⟨-, hs⟩ := Option.ite_none_right_eq_some.mp hs
    cases hs
    refine ⟨.of_table rfl, h.calls, fun dl' hdl' => ?_, h.tasks, h.sweep⟩
    cases running with
    | true =>
      rcases List.mem_or_eq_of_mem_set hdl' with hdl' | rfl
      · exact h.deliveries dl' hdl'
      · exact h.deliveries dl (List.mem_of_getElem? hdl)
    | false => exact h.deliveries dl' (List.mem_of_mem_eraseIdx hdl')
  | expire =>
    obtain ⟨broker, -, rfl⟩ := Option.map_eq_some_iff.mp hs
    exact ⟨.of_table rfl, h.calls, h.deliveries, h.tasks, h.sweep⟩
  | start i =>
    obtain ⟨id, -, rfl⟩ := Option.map_eq_some_iff.mp hs
    refine ⟨.of_table rfl, h.calls, h.deliveries, ?_, h.sweep⟩
    simpa [or_imp, forall_and] using ⟨h.tasks, onlyAsks_dispatch id⟩
  | wake i =>
    obtain ⟨⟨id, wakeAt⟩, -, hs⟩ := Option.bind_eq_some_iff.mp hs
    obtain ⟨-, hs⟩ := Option.ite_none_right_eq_some.mp hs
    cases hs
    refine ⟨.of_table rfl, h.calls, h.deliveries, ?_, h.sweep⟩
    simpa [or_imp, forall_and] using ⟨h.tasks, onlyAsks_dispatch id⟩
  | task i o =>
    obtain ⟨task, ht, hs⟩ := Option.bind_eq_some_iff.mp hs
    obtain ⟨⟨p, w⟩, hstep, rfl⟩ := Option.map_eq_some_iff.mp hs
    obtain ⟨hcollects, hp⟩ := (h.tasks task (List.mem_of_getElem? ht)).step hstep
    refine ⟨hcollects, h.calls, h.deliveries, fun t' ht' => ?_, h.sweep⟩
    rcases List.mem_or_eq_of_mem_set ht' with ht' | rfl
    · exact h.tasks t' ht'
    · exact hp
  | sweep o =>
    obtain ⟨⟨p, w⟩, hstep, rfl⟩ := Option.map_eq_some_iff.mp hs
    obtain ⟨hcollects, hp⟩ := h.sweep.step hstep
    exact ⟨hcollects, h.calls, h.deliveries, h.tasks, hp⟩
  | crash =>
    cases hs
    refine ⟨.of_table (Backoff.foldr_requeue_eq _ _).1, ?_, ?_, ?_, onlyAsks_bootSweep⟩ <;>
      exact fun _ hmem => absurd hmem List.not_mem_nil

end Service

end NotiService
