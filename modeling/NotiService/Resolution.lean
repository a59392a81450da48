import NotiService.Steady
import NotiService.Foundation.LeadsTo
import Mathlib.Data.Prod.Lex

/-! Every notification is resolved. While the service is calm, time passes, and what can be
done for a notification is done at some time, each row comes to be `Sent` or to have failed
for good, and stays so: the sweep ends, every task in transit comes to be dispatched, and
each dispatch takes something off the burden of its row. -/

namespace NotiService
open Foundation Orchestrator Amqp RabbitMQ Consumer Service NotificationTable

variable {Bytes : Type} {d : Deployment Bytes}

/-- What can be done comes to be done: for each notification, at the broker, in the sweep. -/
structure Served (e : Execution (serviceSystem d)) : Prop where
  clock : ∀ t : Int, ∃ n, t ≤ (e.state n).world.now
  work : ∀ id, e.Fair fun s l => WorksOn d s id l
  deliver : e.Fair fun _ l => l = .deliver
  expire : e.Fair fun _ l => l = .expire
  sweep : e.Fair fun _ l => ∃ o, l = .sweep o

def TriggerPc.rank : TriggerPc → Nat
  | .enter => 3
  | .publish => 2
  | .spawn => 1
  | .finished => 0

def RecoverPc.rank : RecoverPc → ℕ ×ₗ ℕ
  | .reset _ _ => toLex (2, 0)
  | .select _ => toLex (1, 0)
  | .trigger _ pc rest _ => toLex (0, 4 * rest.length + pc.rank)
  | .done _ => toLex (0, 0)

theorem TriggerStep.rank_lt {id : Uuid} {o : Outcome} {w w' : World Bytes} {pc pc' : TriggerPc}
    (h : TriggerStep d id o w pc w' pc') : pc'.rank < pc.rank := by
  cases h with
  | enter => cases hmq : d.mq <;> simp [TriggerPc.afterEnter, TriggerPc.rank]
  | _ => simp [TriggerPc.rank]

theorem RecoverPc.rank_loop (count : Nat) (due : List Notification) :
    (RecoverPc.loop count due).rank = toLex (0, 4 * due.length - 1) := by
  cases due with
  | nil => rfl
  | cons n rest =>
    simp only [RecoverPc.loop, RecoverPc.rank, TriggerPc.rank, List.length_cons]
    congr 2

theorem RecoverStep.rank_lt {o : Outcome} {w w' : World Bytes} {pc pc' : RecoverPc}
    (h : RecoverStep d o w pc w' pc') : pc'.rank < pc.rank := by
  cases h with
  | reset | resetFail | selectFail =>
    exact Prod.Lex.toLex_lt_toLex.mpr (.inl (by decide))
  | select =>
    rw [RecoverPc.rank_loop]
    exact Prod.Lex.toLex_lt_toLex.mpr (.inl Nat.one_pos)
  | trigger ht =>
    have := ht.rank_lt
    exact Prod.Lex.toLex_lt_toLex.mpr (.inr ⟨rfl, Nat.add_lt_add_left this _⟩)
  | triggered ht =>
    have := ht.rank_lt
    rw [RecoverPc.rank_loop]
    refine Prod.Lex.toLex_lt_toLex.mpr (.inr ⟨rfl, ?_⟩)
    simp only [TriggerPc.rank] at this ⊢
    omega

/-- An execution of the service that is calm and served, and the machines it shows. -/
structure Shadow (e : Execution (serviceSystem d)) (M : Nat → Machine Bytes) : Prop where
  declared : d.topology = declaredTopology
  view : ∀ n, e.state n = (M n).state d
  steady : ∀ n, (M n).Steady d
  step : ∀ n, Machine.Step d (e.label n) (M n) (M (n + 1))
  kept : ∀ n, (M n).Kept d
  calm : ∀ n, Calm (e.state n) (e.label n)
  served : Served e

namespace Shadow

variable {e : Execution (serviceSystem d)} {M : Nat → Machine Bytes} (h : Shadow e M) {id : Uuid}
include h

theorem undropped (n : Nat) : Undropped (e.label n) := (h.calm n).undropped

theorem now_le {n m : Nat} (hle : n ≤ m) : (M n).world.now ≤ (M m).world.now := by
  induction m, hle using Nat.le_induction with
  | base => exact Int.le_refl _
  | succ m hm ih => exact Int.le_trans ih ((h.step m).now_le (h.undropped m))

theorem clock (t : Int) (n : Nat) : ∃ m, n ≤ m ∧ t ≤ (M m).world.now := by
  obtain ⟨k, hk⟩ := h.served.clock t
  rw [h.view] at hk
  exact ⟨max n k, Nat.le_max_left n k, Int.le_trans hk (h.now_le (Nat.le_max_right n k))⟩

theorem sweep_ends : ∃ n, ∀ m, n ≤ m → (M m).sweep.kind = none := by
  have falls : LeadsTo (fun _ => True) fun n => (M n).sweep.kind = none := by
    refine .of_rank (fun n => (M n).sweep.rank) fun a n ⟨_, ha⟩ => ?_
    by_cases hkind : (M n).sweep.kind = none
    · exact ⟨n, Nat.le_refl n, .inl hkind⟩
    let going (n : Nat) : Prop := (M n).sweep.kind ≠ none ∧ (M n).sweep.rank = a
    have goes : LeadsTo going fun n => going n ∧ ∃ o, e.label n = .sweep o := by
      refine .of_unless (fun n hn hnot => ?_) fun n hn => ?_
      · rcases (h.step n).sweep_cases (h.undropped n) with ⟨o, ho, -⟩ | ⟨-, hsame⟩
        · exact absurd ⟨hn, o, ho⟩ hnot
        · exact ⟨hsame ▸ hn.1, hsame ▸ hn.2⟩
      · obtain ⟨m, hm, hl⟩ := h.served.sweep n fun m hm => by
          obtain ⟨kind, hkind⟩ := Option.ne_none_iff_exists'.mp (hn m hm).1
          have hne : kind ≠ .newV4 := fun heq => (M m).sweep.kind_ne_newV4 (heq ▸ hkind)
          have hawaits := (RecoverPc.awaits_prog d.mq (h.steady m).normal).trans hkind
          obtain ⟨o, ho⟩ := step_enabled d hawaits hne (e.state m).world
          refine ⟨.sweep o, ⟨o, rfl⟩, ?_⟩
          simpa [serviceSystem, h.view, Machine.state] using ho
        exact ⟨m, hm, hn m hm, hl⟩
    refine (goes.next (R := fun n => (M n).sweep.kind = none ∨ True ∧ (M n).sweep.rank < a) ?_) n
      ⟨hkind, ha⟩
    rintro n ⟨⟨hkind, hrank⟩, o, ho⟩
    rcases (h.step n).sweep_cases (h.undropped n) with ⟨o', -, hs⟩ | ⟨hnot, -⟩
    · exact .inr ⟨trivial, hrank ▸ hs.rank_lt⟩
    · exact absurd ho (hnot o)
  obtain ⟨n, -, hn⟩ := falls 0 trivial
  refine ⟨n, fun m hm => ?_⟩
  induction m, hm using Nat.le_induction with
  | base => exact hn
  | succ m hm ih =>
    rcases (h.step m).sweep_cases (h.undropped m) with ⟨o, -, hs⟩ | ⟨-, hsame⟩
    · exact absurd ih hs.awaits
    · rw [hsame, ih]

theorem works : LeadsTo (fun n => (M n).Working d id)
    fun n => WorksOn d (e.state n) id (e.label n) := by
  refine .of_unless (fun n hw hnot => ?_) fun n hw => ?_
  · rw [h.view] at hnot
    exact (h.step n).working h.declared (h.undropped n) hw hnot
  · refine h.served.work id n fun m hm => ?_
    rw [h.view]
    exact (hw m hm).enabled

theorem wakes (wakeAt : Int) : LeadsTo (fun n => (id, wakeAt) ∈ (M n).world.sleepers)
    fun n => WorksOn d (e.state n) id (e.label n) := by
  have due : LeadsTo (fun n => (id, wakeAt) ∈ (M n).world.sleepers)
      fun n => (M n).Working d id ∨ WorksOn d (e.state n) id (e.label n) := by
    refine .of_unless (fun n hs hnot => ?_) fun n hs => ?_
    · rw [h.view] at hnot
      exact (h.step n).sleeping h.declared (h.undropped n) hs fun hw => hnot (.inr hw)
    · obtain ⟨m, hm, hdue⟩ := h.clock wakeAt n
      exact ⟨m, hm, .inl (.inr (.inl ⟨_, hs m hm, rfl, hdue⟩))⟩
  intro n hn
  obtain ⟨m, hm, hw | hw⟩ := due n hn
  · obtain ⟨k, hk, hw⟩ := h.works m hw
    exact ⟨k, Nat.le_trans hm hk, hw⟩
  · exact ⟨m, hm, hw⟩

theorem delivers : LeadsTo
    (fun n => ∃ msg ∈ (M n).world.broker.ready dispatchQueue, d.taskId msg = some id)
    fun n => Advances d (e.state n) id (e.label n) := by
  have fifo := LeadsTo.of_fifo (fun n => (M n).world.broker.ready dispatchQueue)
    (e.label · = .deliver) 0 (decide <| d.taskId · = some id) ?_ ?_ ?_
  · intro n ⟨msg, hmsg, hid⟩
    obtain ⟨m, hm, hl, msg, hhead, hid⟩ := fifo n ⟨Nat.zero_le n, msg, hmsg, by simpa using hid⟩
    refine ⟨m, hm, ?_⟩
    change Advances d (e.state m) id (e.label m)
    rw [hl, h.view]
    exact ⟨msg, hhead, by simpa using hid⟩
  · intro n _ hnot
    rcases (h.step n).queues h.declared (h.undropped n) with ⟨-, -, hext⟩ | ⟨hl, -⟩ | ⟨-, -, hpre⟩
    · obtain ⟨added, hadded, -⟩ := hext dispatchQueue
      exact ⟨added, hadded.symm⟩
    · exact absurd hl hnot
    · exact hpre
  · intro n _ hl
    rcases (h.step n).queues h.declared (h.undropped n) with ⟨hne, -⟩ | ⟨-, hpop, -⟩ | ⟨hl', -⟩
    · exact absurd hl hne
    · exact hpop
    · rw [hl] at hl'
      cases hl'
  · intro n _ hne
    refine h.served.deliver n fun m hm => ⟨.deliver, rfl, ?_⟩
    obtain ⟨msg, rest, hready⟩ := List.exists_cons_of_ne_nil (hne m hm)
    rw [h.view]
    simp [serviceSystem, Machine.state, Broker.deliver, hready]

theorem expires : LeadsTo
    (fun n => ∃ msg ∈ (M n).world.broker.ready retryQueue, d.taskId msg = some id)
    fun n => Advances d (e.state n) id (e.label n) := by
  have kept : ∀ n, e.label n ≠ .expire → (M n).world.broker.ready retryQueue <+:
      (M (n + 1)).world.broker.ready retryQueue := by
    intro n hnot
    rcases (h.step n).queues h.declared (h.undropped n) with ⟨-, -, hext⟩ | ⟨-, -, hsame⟩ | ⟨hl, -⟩
    · obtain ⟨added, hadded, -⟩ := hext retryQueue
      exact ⟨added, hadded.symm⟩
    · exact hsame ▸ List.prefix_refl _
    · exact absurd hl hnot
  have fifo := LeadsTo.of_fifo (fun n => (M n).world.broker.ready retryQueue)
    (e.label · = .expire) 0 (decide <| d.taskId · = some id) (fun n _ => kept n) ?_ ?_
  · intro n ⟨msg, hmsg, hid⟩
    obtain ⟨m, hm, hl, msg, hhead, hid⟩ := fifo n ⟨Nat.zero_le n, msg, hmsg, by simpa using hid⟩
    refine ⟨m, hm, ?_⟩
    change Advances d (e.state m) id (e.label m)
    rw [hl, h.view]
    exact ⟨msg, hhead, by simpa using hid⟩
  · intro n _ hl
    rcases (h.step n).queues h.declared (h.undropped n) with ⟨-, hne, -⟩ | ⟨hl', -⟩ | ⟨-, hpop, -⟩
    · exact absurd hl hne
    · rw [hl] at hl'
      cases hl'
    · exact hpop
  · intro n _ hne
    by_contra hnever
    have hnot : ∀ m, n ≤ m → e.label m ≠ .expire := fun m hm hl => hnever ⟨m, hm, hl⟩
    -- the head stays where it is, and its time comes
    obtain ⟨msg, rest, hready⟩ := List.exists_cons_of_ne_nil (hne n (Nat.le_refl n))
    obtain ⟨expiry, hexpiry⟩ := (h.steady n).expiring msg (hready ▸ List.mem_cons_self ..)
    have head : ∀ m, n ≤ m → ∃ rest, (M m).world.broker.ready retryQueue = msg :: rest := by
      intro m hm
      induction m, hm using Nat.le_induction with
      | base => exact ⟨rest, hready⟩
      | succ m hm ih =>
        obtain ⟨rest, hready⟩ := ih
        obtain ⟨added, hadded⟩ := kept m (hnot m hm)
        exact ⟨rest ++ added, by rw [← hadded, hready, List.cons_append]⟩
    obtain ⟨k, hk, hdue⟩ := h.clock expiry n
    refine hnever ?_
    obtain ⟨m, hm, hl⟩ := h.served.expire k fun m hm => by
      obtain ⟨rest, hready⟩ := head m (Nat.le_trans hk hm)
      have hdue : expiry ≤ (M m).world.now := Int.le_trans hdue (h.now_le hm)
      refine ⟨.expire, rfl, ?_⟩
      rw [h.view]
      simp [serviceSystem, Machine.state, Broker.expireHead, Broker.deliver, hready, hexpiry, hdue]
    exact ⟨m, Nat.le_trans hk hm, hl⟩

theorem advances {n : Nat} (hpos : 0 < (M n).burden d id) :
    ∃ m, n ≤ m ∧ Advances d (e.state m) id (e.label m) := by
  have works : (M n).Working d id → ∃ m, n ≤ m ∧ Advances d (e.state m) id (e.label m) := by
    intro hw
    obtain ⟨m, hm, hw⟩ := h.works n hw
    exact ⟨m, hm, hw.advances⟩
  rcases Machine.burdenAt_pos.mp hpos with htransit | hdl | htask | hcall
  · rcases inTransit_iff.mp htransit with hmsg | hmsg | hspawned | ⟨wakeAt, hsleeping⟩
    · exact h.delivers n hmsg
    · exact h.expires n hmsg
    · exact works (.inl hspawned)
    · obtain ⟨m, hm, hw⟩ := h.wakes wakeAt n hsleeping
      exact ⟨m, hm, hw.advances⟩
  · exact works (.inr (.inr (.inr (.inl hdl))))
  · exact works (.inr (.inr (.inr (.inr htask))))
  · exact works (.inr (.inr (.inl hcall)))

theorem row {n m : Nat} (hle : n ≤ m) (hrow : (M n).world.table.getById id ≠ none) :
    (M m).world.table.getById id ≠ none := by
  induction m, hle using Nat.le_induction with
  | base => exact hrow
  | succ m hm ih =>
    obtain ⟨row, hrow⟩ := Option.ne_none_iff_exists'.mp ih
    obtain ⟨row', hrow', -⟩ := (h.step m).retriesGrow id row hrow
    simp [hrow']

theorem burden_ends {n : Nat} (hrow : (M n).world.table.getById id ≠ none) :
    ∃ m, n ≤ m ∧ ∀ k, m ≤ k → (M k).sweep.kind = none ∧ (M k).burden d id = 0 := by
  obtain ⟨swept, hswept⟩ := h.sweep_ends
  have step : ∀ m, max n swept ≤ m → (M (m + 1)).burden d id ≤ (M m).burden d id ∧
      (Advances d ((M m).state d) id (e.label m) →
        (M (m + 1)).burden d id < (M m).burden d id) := fun m hm =>
    (h.step m).burden h.declared (h.undropped m) (hswept m (Nat.le_trans (Nat.le_max_right ..) hm))
      (h.steady m).behind (h.row (Nat.le_trans (Nat.le_max_left ..) hm) hrow)
  obtain ⟨m, hm, hzero⟩ := eventually_zero (f := fun m => (M m).burden d id)
    (fun m hm => (step m hm).1) fun m hm hpos => by
      obtain ⟨k, hk, hadvances⟩ := h.advances hpos
      rw [h.view] at hadvances
      exact ⟨k, hk, (step k (Nat.le_trans hm hk)).2 hadvances⟩
  exact ⟨m, Nat.le_trans (Nat.le_max_left ..) hm, fun k hk =>
    ⟨hswept k (Nat.le_trans (Nat.le_max_right ..) (Nat.le_trans hm hk)), hzero k hk⟩⟩

theorem resolves {n : Nat} (hrow : (M n).world.table.getById id ≠ none) :
    ∃ status, (status = .sent ∨ status = .permanentFailure) ∧ ∃ m, ∀ k, m ≤ k →
      ((M k).world.table.getById id).map Notification.status = some status := by
  obtain ⟨m, hm, hover⟩ := h.burden_ends hrow
  obtain ⟨hsweep, hzero⟩ := hover m (Nat.le_refl m)
  obtain ⟨row, hrow⟩ := Option.ne_none_iff_exists'.mp (h.row hm hrow)
  have hdead : row.status.live = false := by
    by_contra hlive
    have htended := (h.kept m) row (mem_rows_iff.mpr ((id_of_getById hrow).symm ▸ hrow))
      (Bool.not_eq_false _ ▸ hlive)
    rw [id_of_getById hrow] at htended
    have := htended.burden_pos (h.steady m).normal hsweep
    omega
  refine ⟨row.status, ?_, m, fun k hk => ?_⟩
  · obtain ⟨hdelivered, hfailed⟩ := (h.steady m).used id row hrow
    cases hstatus : row.status <;> simp_all [NotificationStatus.live]
  · suffices ∃ row', (M k).world.table.getById id = some row' ∧ row'.status = row.status by
      obtain ⟨row', hrow', hstatus⟩ := this
      rw [hrow', Option.map_some, hstatus]
    induction k, hk using Nat.le_induction with
    | base => exact ⟨row, hrow, rfl⟩
    | succ k hk ih =>
      obtain ⟨row', hrow', hstatus⟩ := ih
      obtain ⟨hsweep, hzero⟩ := hover k hk
      have hidle : ¬ WorksOn d ((M k).state d) id (e.label k) := by
        intro hw
        have hstored : (M k).world.table.getById id ≠ none := by simp [hrow']
        have := ((h.step k).burden h.declared (h.undropped k) hsweep (h.steady k).behind
          hstored).2 hw.advances
        omega
      obtain ⟨row'', hrow'', hstatus'⟩ := (h.step k).status (h.undropped k) (h.steady k) hsweep
        hidle hrow' (hstatus ▸ hdead)
      exact ⟨row'', hrow'', hstatus'.trans hstatus⟩

end Shadow

section Idle

def ServiceState.idle (s : ServiceState Bytes) : Bool :=
  (s.world.broker.ready dispatchQueue).isEmpty && (s.world.broker.ready retryQueue).isEmpty &&
    s.world.spawned.isEmpty && s.world.sleepers.isEmpty && s.calls.all (·.id.isNone) &&
    s.deliveries.isEmpty && s.tasks.isEmpty && s.sweep.prog.isDone

variable {s : ServiceState Bytes} (h : s.idle = true)
include h

theorem not_worksOn_of_idle (id : Uuid) (l : ServiceLabel) : ¬ WorksOn d s id l := by
  simp only [ServiceState.idle, Bool.and_eq_true, List.isEmpty_iff, List.all_eq_true] at h
  obtain ⟨⟨⟨⟨⟨⟨⟨-, -⟩, hspawned⟩, hsleepers⟩, hcalls⟩, hdeliveries⟩, htasks⟩, -⟩ := h
  cases l with
  | call i o =>
    rintro ⟨c, hc, hid⟩
    have := hcalls c (List.mem_of_getElem? hc)
    simp [hid] at this
  | _ => simp [WorksOn, hspawned, hsleepers, hdeliveries, htasks]

theorem not_step_of_idle {l : ServiceLabel}
    (hl : l = .deliver ∨ l = .expire ∨ ∃ o, l = .sweep o) : (serviceSystem d).step s l = none := by
  simp only [ServiceState.idle, Bool.and_eq_true, List.isEmpty_iff] at h
  obtain ⟨⟨⟨⟨⟨⟨⟨hdispatch, hretry⟩, -⟩, -⟩, -⟩, -⟩, -⟩, hsweep⟩ := h
  rcases hl with rfl | rfl | ⟨o, rfl⟩
  · simp [serviceSystem, Broker.deliver, hdispatch]
  · simp [serviceSystem, Broker.expireHead, Broker.deliver, hretry]
  · cases hp : s.sweep.prog with
    | done => simp [serviceSystem, hp]
    | call => simp [hp] at hsweep

omit h in
theorem served_of_idle {e : Execution (serviceSystem d)} {n : Nat} (hidle : (e.state n).idle = true)
    (hticks : ∀ m, n ≤ m → e.label m = .tick 1) : Served e := by
  have rest : ∀ k, (e.state (n + k)).idle = true ∧
      (e.state (n + k)).world.now = (e.state n).world.now + k := by
    intro k
    induction k with
    | zero => exact ⟨hidle, (Int.add_zero _).symm⟩
    | succ k ih =>
      have hstep := e.step (n + k)
      rw [hticks (n + k) (Nat.le_add_right ..)] at hstep
      rw [← Nat.add_assoc, ← Option.some.inj hstep]
      exact ⟨ih.1, by simp only [World.tick, ih.2]; omega⟩
  have still : ∀ {C : ServiceState Bytes → ServiceLabel → Prop},
      (∀ s l, s.idle = true → C s l → (serviceSystem d).step s l = none) → e.Fair C := by
    intro C hC k henabled
    obtain ⟨l, hl, hsome⟩ := henabled (n + k) (Nat.le_add_left k n)
    rw [hC _ l (rest k).1 hl] at hsome
    cases hsome
  refine ⟨fun t => ⟨n + (t - (e.state n).world.now).toNat, ?_⟩, fun id => still ?_, still ?_,
    still ?_, still ?_⟩
  · rw [(rest _).2]
    omega
  · exact fun s l hs hl => absurd hl (not_worksOn_of_idle hs id l)
  · exact fun s l hs hl => not_step_of_idle hs (.inl hl)
  · exact fun s l hs hl => not_step_of_idle hs (.inr (.inl hl))
  · exact fun s l hs hl => not_step_of_idle hs (.inr (.inr hl))

end Idle

namespace Resolution

def smooth (s : ServiceState NotificationTask) : ServiceLabel → Bool
  | .crash | .takeBack _ _ | .task _ _ => false
  | .call _ o => !o.failed
  | .process i o => !o.failed || !s.deliveries[i]?.any fun dl => (awaits dl.prog).any OpKind.lossy
  | _ => true

theorem calm_of_smooth {s : ServiceState NotificationTask} {l : ServiceLabel}
    (h : smooth s l = true) : Calm s l := by
  cases l with
  | crash | takeBack | task => cases h
  | call i o =>
    rintro c - n - e rfl
    cases h
  | process i o =>
    rintro dl hdl ⟨hfailed, hlossy⟩
    simp [smooth, hfailed, hdl, hlossy] at h
  | _ => trivial

/-- A first send fails, the retry waits its two minutes in `noti.retry`, and is sent. -/
def script : List ServiceLabel :=
  [.sweep .ok, .sweep (.rows []), .request .sample, .call 0 (.fresh ⟨1⟩), .call 0 .ok, .call 0 .ok,
    .call 0 .ok, .call 0 .ok, .call 0 .ok, .call 0 .ok, .deliver, .process 0 .ok, .process 0 .ok,
    .process 0 (.text "Hi"), .process 0 (.fail (.provider "timeout")), .process 0 .ok,
    .process 0 .ok, .process 0 .ok, .process 0 .ok, .settle 0, .tick 120000, .expire, .deliver,
    .process 0 .ok, .process 0 .ok, .process 0 (.text "Hi"), .process 0 (.text "accepted"),
    .process 0 .ok, .settle 0]

theorem run_script : ∃ t, (serviceSystem (.declared .plain true)).runWhen smooth (.start true)
    script = some t ∧ t.idle = true := ⟨_, rfl, rfl⟩

noncomputable def retried : Execution (serviceSystem (.declared .plain true)) :=
  .ofRun (l := .tick 1) run_script.choose_spec.1 fun _ => ⟨rfl, rfl⟩

theorem stored_retried : ∃ row ∈ (retried.state 9).world.table.rows, row.id = ⟨1⟩ :=
  ⟨_, .head _, rfl⟩

end Resolution

end NotiService
