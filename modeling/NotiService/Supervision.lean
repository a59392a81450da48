import NotiService.Supervisor
import NotiService.Foundation.Execution

/-! The control flow of `supervise` over whole executions: when it starts a session, how long it
backs off, when it returns, and what the health says meanwhile. -/

namespace NotiService
open Foundation

namespace Supervision

variable {σ ι ε : Type} {S : Session σ ι ε} (e : Execution (supervise S))

/-- `supervise` is called, with the health and the token as they are. -/
def Begins : Prop := (e.state 0).phase = .head ∧ (e.state 0).backoff = initialBackoff

def outcome (n : Nat) : Option (Except ε Unit) :=
  match e.label n, (e.state n).phase with
  | .finish, .running q => S.result q
  | _, _ => none

def failed (n : Nat) : Bool :=
  match outcome e n with
  | some (.error _) => true
  | _ => false

def failuresBefore (n : Nat) : Nat := (List.range n).countP fun k => failed e k

def Starts (n : Nat) : Prop := e.label n = .enter ∧ (e.state (n + 1)).phase = .running S.start

/-- From one position to another the loop does not come to its head, nor is a backoff broken
off. -/
def Waits (n m : Nat) : Prop :=
  n < m ∧ ∀ k, n < k → k < m → e.label k ≠ .enter ∧ e.label k ≠ .interrupt

/-- The next time that the token decides: at the head of the loop, or in the backoff. -/
def Decides (n m : Nat) : Prop := Waits e n m ∧ (e.label m = .enter ∨ e.label m = .interrupt)

/-- The runtime: time goes on, a timer that has run out wakes the task, and the task moves on. -/
structure Scheduled : Prop where
  time : ∀ t : Int, ∃ n, t ≤ (e.state n).now
  wake : e.WeaklyFair .wake
  enter : e.WeaklyFair .enter

structure Supervised : Prop where
  quiet : ∀ k n, (e.state k).cancelled → k ≤ n → ¬ Starts e n
  caused : ∀ m, Starts e m → (∀ k, k < m → ¬ Starts e k) ∨ ∃ n, failed e n ∧ Decides e n m
  sleeps : ∀ n, failed e n → (e.state (n + 1)).phase =
    .backingOff ((e.state n).now + (min (2 ^ failuresBefore e n) 30 * 1000 : Nat))
  rested : ∀ n m, failed e n → Decides e n m → e.label m = .enter →
    (e.state n).now + (min (2 ^ failuresBefore e n) 30 * 1000 : Nat) ≤ (e.state m).now
  returns : ∀ n, (e.state n).phase = .stopped →
    (e.state n).cancelled ∨ ∃ k, k < n ∧ outcome e k = some (.ok ())
  down : ∀ n, (failed e n → (e.state (n + 1)).health.connected = false) ∧
    ((∃ wake, (e.state n).phase = .backingOff wake) ∨ (e.state n).phase = .stopped →
      (e.state n).health.connected = false)

/-- After each failure the token decides, and a session starts unless it is cancelled then. -/
def Restarts : Prop := ∀ n, failed e n → ∃ m, Decides e n m ∧
  (Starts e m ↔ (e.state m).cancelled = false) ∧
  ((e.state m).cancelled → (e.state (m + 1)).phase = .stopped)

variable {e} {n m : Nat}

theorem stepAt (e : Execution (supervise S)) (n : Nat) :
    SupervisorStep S (e.state n) (e.label n) (e.state (n + 1)) := supervisorStep (e.step n)

theorem outcome_of_finish {q : σ} (hlabel : e.label n = .finish)
    (hphase : (e.state n).phase = .running q) : outcome e n = S.result q := by
  rw [outcome, hlabel, hphase]

theorem failed_spec (h : failed e n) : ∃ q err, e.label n = .finish ∧
    (e.state n).phase = .running q ∧ S.result q = some (.error err) ∧
      e.state (n + 1) = (e.state n).finish (.error err) := by
  have hstep := e.step n
  unfold failed at h
  split at h
  · next err houtcome =>
    unfold outcome at houtcome
    split at houtcome
    · next q hlabel hphase =>
      refine ⟨q, err, hlabel, hphase, houtcome, ?_⟩
      rw [hlabel] at hstep
      simp only [supervise, hphase, houtcome, Option.map_some, Option.some.injEq] at hstep
      exact hstep.symm
    · cases houtcome
  · cases h

theorem not_failed (h : e.label n ≠ .finish) : failed e n = false := by
  rw [Bool.eq_false_iff]
  intro hfailed
  obtain ⟨_, _, hlabel, _⟩ := failed_spec hfailed
  exact h hlabel

theorem failuresBefore_succ (e : Execution (supervise S)) (n : Nat) :
    failuresBefore e (n + 1) = failuresBefore e n + if failed e n then 1 else 0 := by
  rw [failuresBefore, List.range_succ, List.countP_append, List.countP_singleton]
  rfl

theorem nextBackoff_min (c : Nat) : nextBackoff (min (2 ^ c) 30) = min (2 ^ (c + 1)) 30 := by
  rw [nextBackoff, maxBackoff, Nat.pow_succ]
  omega

def BackoffAfter (c : Nat) (s : SupervisorState σ ε) : Prop :=
  match s.phase with
  | .head | .running _ => s.backoff = min (2 ^ c) 30
  | .backingOff _ => ∃ c', c = c' + 1 ∧ s.backoff = min (2 ^ c') 30
  | .stopped => True

theorem backoffAfter (hbegins : Begins e) (n : Nat) :
    BackoffAfter (failuresBefore e n) (e.state n) := by
  induction n with
  | zero =>
    rw [BackoffAfter, hbegins.1]
    exact hbegins.2
  | succ n ih =>
    have hsame : e.label n ≠ .finish → failuresBefore e (n + 1) = failuresBefore e n := by
      intro hlabel
      rw [failuresBefore_succ, not_failed hlabel]
      rfl
    have hfinish : ∀ q, e.label n = .finish → (e.state n).phase = .running q →
        outcome e n = S.result q := fun q => outcome_of_finish
    have hstep := stepAt e n
    generalize e.label n = l at hsame hstep hfinish
    generalize e.state (n + 1) = t at hstep
    cases hstep with
    | tick | cancel =>
      rw [hsame nofun]
      exact ih
    | refuse | interrupt => exact trivial
    | enter hphase =>
      rw [hsame nofun]
      rwa [BackoffAfter, hphase] at ih
    | @session q q' l progresses hphase =>
      rw [hsame nofun]
      rw [BackoffAfter, hphase] at ih
      cases progresses <;> exact ih
    | @finish q r hphase hresult =>
      rw [BackoffAfter, hphase] at ih
      cases r with
      | ok => exact trivial
      | error err =>
        have hfailed : failed e n := by
          rw [failed, hfinish q rfl hphase, hresult]
        rw [failuresBefore_succ, if_pos hfailed]
        exact ⟨_, rfl, ih⟩
    | wake hphase =>
      rw [hsame nofun]
      rw [BackoffAfter, hphase] at ih
      obtain ⟨c, hc, hbackoff⟩ := ih
      change nextBackoff _ = _
      rw [hbackoff, nextBackoff_min, hc]

theorem backoff_of_failed (hbegins : Begins e) (h : failed e n) :
    (e.state (n + 1)).phase =
      .backingOff ((e.state n).now + (min (2 ^ failuresBefore e n) 30 * 1000 : Nat)) := by
  obtain ⟨q, err, -, hphase, -, hnext⟩ := failed_spec h
  have hbackoff := backoffAfter hbegins n
  rw [BackoffAfter, hphase] at hbackoff
  rw [hnext, ← hbackoff]
  rfl

theorem cancelled_stays {k : Nat} (h : (e.state k).cancelled = true) (hle : k ≤ n) :
    (e.state n).cancelled = true := by
  refine Execution.invariant_from (P := fun s : SupervisorState σ ε => s.cancelled = true) ?_ h hle
  intro s l t hs hstep
  cases supervisorStep hstep with
  | cancel => rfl
  | @session q q' l progresses => cases progresses <;> exact hs
  | @finish q r => cases r <;> exact hs
  | _ => exact hs

theorem now_mono {k : Nat} (hle : k ≤ n) : (e.state k).now ≤ (e.state n).now := by
  refine Execution.invariant_from (P := fun s : SupervisorState σ ε => (e.state k).now ≤ s.now) ?_
    (Int.le_refl _) hle
  intro s l t hs hstep
  cases supervisorStep hstep with
  | tick ms => exact Int.le_trans hs (Int.le_add_of_nonneg_right (Int.natCast_nonneg ms))
  | @session q q' l progresses => cases progresses <;> exact hs
  | @finish q r => cases r <;> exact hs
  | _ => exact hs

theorem starts_iff (h : e.label n = .enter) : Starts e n ↔ (e.state n).cancelled = false := by
  have hstep := stepAt e n
  rw [h] at hstep
  rw [Starts]
  generalize e.state (n + 1) = t at hstep
  cases hstep with
  | refuse hphase hcancelled => simp [h, hcancelled, SupervisorState.stop]
  | enter hphase hcancelled => simp [h, hcancelled]

theorem not_starts_of_cancelled {k : Nat} (h : (e.state k).cancelled = true) (hle : k ≤ n) :
    ¬ Starts e n := by
  intro hstarts
  have hopen := (starts_iff hstarts.1).mp hstarts
  rw [cancelled_stays h hle] at hopen
  cases hopen

/-- In a backoff and after its return the supervisor leaves the health down. -/
def Down (s : SupervisorState σ ε) : Prop :=
  (∃ wake, s.phase = .backingOff wake) ∨ s.phase = .stopped → s.health.connected = false

theorem down_at (hbegins : Begins e) (n : Nat) : Down (e.state n) := by
  have hstart : Down (e.state 0) := by
    rintro (⟨_, h⟩ | h) <;> cases hbegins.1.symm.trans h
  refine Execution.invariant_from ?_ hstart (Nat.zero_le n)
  intro s l t hs hstep
  cases supervisorStep hstep with
  | tick | cancel => exact hs
  | refuse | interrupt => exact fun _ => rfl
  | enter | wake => rintro (⟨_, h⟩ | h) <;> cases h
  | @session q q' l progresses => cases progresses <;> rintro (⟨_, h⟩ | h) <;> cases h
  | @finish q r => cases r <;> exact fun _ => rfl

theorem returned (hbegins : Begins e) (n : Nat) (h : (e.state n).phase = .stopped) :
    (e.state n).cancelled ∨ ∃ k, k < n ∧ outcome e k = some (.ok ()) := by
  induction n with
  | zero => cases hbegins.1.symm.trans h
  | succ n ih =>
    have hlater : (∃ k, k < n ∧ outcome e k = some (.ok ())) →
        ∃ k, k < n + 1 ∧ outcome e k = some (.ok ()) :=
      fun ⟨k, hk, hok⟩ => ⟨k, Nat.lt_succ_of_lt hk, hok⟩
    have hfinish : ∀ q, e.label n = .finish → (e.state n).phase = .running q →
        outcome e n = S.result q := fun q => outcome_of_finish
    have hstep := stepAt e n
    generalize e.label n = l at hstep hfinish
    generalize e.state (n + 1) = t at hstep h
    cases hstep with
    | tick => exact (ih h).imp id hlater
    | cancel => exact .inl rfl
    | refuse _ hcancelled | interrupt _ hcancelled => exact .inl hcancelled
    | enter | wake => cases h
    | @session q q' l progresses => cases progresses <;> cases h
    | @finish q r hphase hresult =>
      cases r with
      | ok => exact .inr ⟨n, Nat.lt_succ_self n, (hfinish q rfl hphase).trans hresult⟩
      | error => cases h

theorem Waits.succ (h : Waits e n m) (hm : e.label m ≠ .enter ∧ e.label m ≠ .interrupt) :
    Waits e n (m + 1) := by
  refine ⟨Nat.lt_succ_of_lt h.1, fun k hn hk => ?_⟩
  rcases Nat.lt_succ_iff_lt_or_eq.mp hk with hk | rfl
  · exact h.2 k hn hk
  · exact hm

theorem waits_next (n : Nat) : Waits e n (n + 1) :=
  ⟨Nat.lt_succ_self n, fun _ hn hk => absurd hk (Nat.not_lt.mpr hn)⟩

/-- What has led to a phase: a failure, or at the head of the loop nothing yet. -/
def Cause (e : Execution (supervise S)) (n : Nat) : SupervisorPhase σ → Prop
  | .head => (∀ k, k < n → ¬ Starts e k) ∨ ∃ j, failed e j ∧ Waits e j n
  | .backingOff _ => ∃ j, failed e j ∧ Waits e j n
  | _ => True

theorem Cause.succ {phase : SupervisorPhase σ} (h : Cause e n phase)
    (hn : e.label n ≠ .enter ∧ e.label n ≠ .interrupt) : Cause e (n + 1) phase := by
  have hlater : (∃ j, failed e j ∧ Waits e j n) → ∃ j, failed e j ∧ Waits e j (n + 1) :=
    fun ⟨j, hfailed, hwaits⟩ => ⟨j, hfailed, hwaits.succ hn⟩
  cases phase with
  | head =>
    refine Or.imp (fun hnone k hk => ?_) hlater h
    rcases Nat.lt_succ_iff_lt_or_eq.mp hk with hk | rfl
    · exact hnone k hk
    · exact fun hstarts => hn.1 hstarts.1
  | backingOff wake => exact hlater h
  | running | stopped => exact trivial

theorem cause (hbegins : Begins e) (n : Nat) : Cause e n (e.state n).phase := by
  induction n with
  | zero =>
    rw [hbegins.1]
    exact .inl fun k hk => absurd hk (Nat.not_lt_zero k)
  | succ n ih =>
    have hsucc : ∀ {phase}, Cause e n phase → e.label n ≠ .enter ∧ e.label n ≠ .interrupt →
        Cause e (n + 1) phase := fun h => h.succ
    have hfinish : ∀ q, e.label n = .finish → (e.state n).phase = .running q →
        outcome e n = S.result q := fun q => outcome_of_finish
    have hstep := stepAt e n
    generalize e.label n = l at hstep hsucc hfinish
    generalize e.state (n + 1) = t at hstep
    cases hstep with
    | tick | cancel => exact hsucc ih ⟨nofun, nofun⟩
    | refuse | enter | interrupt => exact trivial
    | @session q q' l progresses => cases progresses <;> exact trivial
    | @finish q r hphase hresult =>
      cases r with
      | ok => exact trivial
      | error err =>
        have hfailed : failed e n := by rw [failed, hfinish q rfl hphase, hresult]
        exact ⟨n, hfailed, waits_next n⟩
    | wake hphase =>
      rw [hphase] at ih
      have hhead : Cause e n .head := .inr ih
      exact hsucc hhead ⟨nofun, nofun⟩

theorem phase_of_enter (h : e.label n = .enter) : (e.state n).phase = .head := by
  have hstep := stepAt e n
  rw [h] at hstep
  generalize e.state (n + 1) = t at hstep
  cases hstep with
  | refuse hphase | enter hphase => exact hphase

theorem caused (hbegins : Begins e) (h : Starts e m) :
    (∀ k, k < m → ¬ Starts e k) ∨ ∃ n, failed e n ∧ Decides e n m := by
  have hcause := cause hbegins m
  rw [phase_of_enter h.1] at hcause
  exact hcause.imp id fun ⟨n, hfailed, hwaits⟩ => ⟨n, hfailed, hwaits, .inl h.1⟩

theorem backs_off {wake : Int} (hwaits : Waits e n m)
    (hphase : (e.state (n + 1)).phase = .backingOff wake) :
    (e.state m).phase = .backingOff wake ∨
      (e.state m).phase = .head ∧ wake ≤ (e.state m).now := by
  refine Execution.holds_until (n := n + 1) (Q := fun l => l = .enter ∨ l = .interrupt)
    (P := fun s : SupervisorState σ ε => s.phase = .backingOff wake ∨
      s.phase = .head ∧ wake ≤ s.now) ?_ (.inl hphase) hwaits.1 ?_
  · intro s l t hs hl hstep
    cases supervisorStep hstep with
    | tick ms =>
      refine hs.imp id fun ⟨hhead, hdue⟩ => ⟨hhead, Int.le_trans hdue ?_⟩
      exact Int.le_add_of_nonneg_right (Int.natCast_nonneg ms)
    | cancel => exact hs
    | refuse | enter => exact absurd (.inl rfl) hl
    | interrupt => exact absurd (.inr rfl) hl
    | session hrunning | finish hrunning =>
      rcases hs with hs | ⟨hs, -⟩ <;> cases hs.symm.trans hrunning
    | wake hsleeping hdue =>
      rcases hs with hs | ⟨hs, -⟩
      · obtain rfl := SupervisorPhase.backingOff.inj (hs.symm.trans hsleeping)
        exact .inr ⟨rfl, hdue⟩
      · cases hs.symm.trans hsleeping
  · intro k hk hlt hl
    exact hl.elim (hwaits.2 k hk hlt).1 (hwaits.2 k hk hlt).2

/-- The control flow of the supervisor, whatever its sessions do. -/
theorem supervised (hbegins : Begins e) : Supervised e where
  quiet k n h hle := not_starts_of_cancelled h hle
  caused m h := caused hbegins h
  sleeps n h := backoff_of_failed hbegins h
  rested n m h hdecides hlabel := by
    have hhead := phase_of_enter hlabel
    rcases backs_off hdecides.1 (backoff_of_failed hbegins h) with hphase | ⟨-, hdue⟩
    · cases hphase.symm.trans hhead
    · exact hdue
  returns n h := returned hbegins n h
  down n := by
    refine ⟨fun h => ?_, down_at hbegins n⟩
    obtain ⟨q, err, -, -, -, hnext⟩ := failed_spec h
    rw [hnext]
    rfl

/-- Only these two labels lead out of a backoff. -/
def Wakes (l : SupervisorLabel ι) : Prop := l = .wake ∨ l = .interrupt

theorem backoff_stays {wake : Int} {s t : SupervisorState σ ε} {l : SupervisorLabel ι}
    (hs : s.phase = .backingOff wake) (hl : ¬ Wakes l) (hstep : (supervise S).step s l = some t) :
    t.phase = .backingOff wake ∧ s.now ≤ t.now := by
  cases supervisorStep hstep with
  | tick ms => exact ⟨hs, Int.le_add_of_nonneg_right (Int.natCast_nonneg ms)⟩
  | cancel => exact ⟨hs, Int.le_refl _⟩
  | wake => exact absurd (.inl rfl) hl
  | interrupt => exact absurd (.inr rfl) hl
  | refuse hphase | enter hphase | session hphase | finish hphase => cases hs.symm.trans hphase

theorem head_stays {s t : SupervisorState σ ε} {l : SupervisorLabel ι} (hs : s.phase = .head)
    (hl : l ≠ .enter) (hstep : (supervise S).step s l = some t) : t.phase = .head := by
  cases supervisorStep hstep with
  | tick | cancel => exact hs
  | refuse | enter => exact absurd rfl hl
  | session hphase | finish hphase | wake hphase | interrupt hphase => cases hs.symm.trans hphase

theorem backoff_ends (hscheduled : Scheduled e) {wake : Int}
    (hphase : (e.state n).phase = .backingOff wake) : ∃ m, n ≤ m ∧ Wakes (e.label m) := by
  by_contra hnever
  have hlabels : ∀ k, n ≤ k → ¬ Wakes (e.label k) := fun k hk hwakes => hnever ⟨k, hk, hwakes⟩
  have hsleeping : ∀ m, n ≤ m → (e.state m).phase = .backingOff wake := fun m hm =>
    Execution.holds_until (Q := Wakes) (P := fun s : SupervisorState σ ε => s.phase =
      .backingOff wake)
      (fun s l t hs hl hstep => (backoff_stays hs hl hstep).1) hphase hm fun k hk _ => hlabels k hk
  obtain ⟨k, hk⟩ := hscheduled.time wake
  have hdue : wake ≤ (e.state (max n k)).now := Int.le_trans hk (now_mono (Nat.le_max_right n k))
  obtain ⟨m, hm, hwakes⟩ := Execution.eventually (Q := Wakes)
    (P := fun s : SupervisorState σ ε => s.phase = .backingOff wake ∧ wake ≤ s.now)
    hscheduled.wake (.inl rfl)
    (fun s l t hs hl hstep => ⟨(backoff_stays hs.1 hl hstep).1,
      Int.le_trans hs.2 (backoff_stays hs.1 hl hstep).2⟩)
    (fun s hs => by simp [supervise, hs.1, hs.2]) ⟨hsleeping _ (Nat.le_max_left n k), hdue⟩
  exact hlabels m (Nat.le_trans (Nat.le_max_left n k) hm) hwakes

theorem head_ends (hscheduled : Scheduled e) (hphase : (e.state n).phase = .head) :
    ∃ m, n ≤ m ∧ e.label m = .enter :=
  Execution.eventually (Q := fun l => l = .enter)
    (P := fun s : SupervisorState σ ε => s.phase = .head) hscheduled.enter rfl
    (fun s l t hs hl hstep => head_stays hs hl hstep) (fun s hs => by simp [supervise, hs]) hphase

theorem interrupted (h : e.label n = .interrupt) : (∃ wake, (e.state n).phase = .backingOff wake) ∧
    (e.state n).cancelled = true ∧ (e.state (n + 1)).phase = .stopped := by
  have hstep := stepAt e n
  rw [h] at hstep
  generalize e.state (n + 1) = t at hstep
  cases hstep with
  | interrupt hphase hcancelled => exact ⟨⟨_, hphase⟩, hcancelled, rfl⟩

theorem woken (h : e.label n = .wake) : (e.state (n + 1)).phase = .head := by
  have hstep := stepAt e n
  rw [h] at hstep
  generalize e.state (n + 1) = t at hstep
  cases hstep with
  | wake => rfl

theorem refused (h : e.label n = .enter) (hcancelled : (e.state n).cancelled = true) :
    (e.state (n + 1)).phase = .stopped := by
  have hstep := stepAt e n
  rw [h] at hstep
  generalize e.state (n + 1) = t at hstep
  cases hstep with
  | refuse => rfl
  | enter _ hopen => cases hopen.symm.trans hcancelled

theorem restarts (hbegins : Begins e) (hscheduled : Scheduled e) : Restarts e := by
  intro n hfailed
  have hphase := backoff_of_failed hbegins hfailed
  obtain ⟨m, hm, hwakes, hfirst⟩ := Execution.exists_first (backoff_ends hscheduled hphase)
  have hwaits : Waits e n m := by
    refine ⟨hm, fun k hk hlt => ⟨fun henter => ?_, fun h => hfirst k hk hlt (.inr h)⟩⟩
    have hsleeping := Execution.holds_until (Q := Wakes)
      (P := fun s : SupervisorState σ ε => s.phase = .backingOff _)
      (fun s l t hs hl hstep => (backoff_stays hs hl hstep).1) hphase hk fun j hj hjk =>
        hfirst j hj (Nat.lt_trans hjk hlt)
    cases hsleeping.symm.trans (phase_of_enter henter)
  rcases hwakes with hwake | hinterrupt
  · obtain ⟨d, hd, henter, hbefore⟩ :=
      Execution.exists_first (Q := fun l : SupervisorLabel ι => l = .enter)
        (head_ends hscheduled (woken hwake))
    refine ⟨d, ⟨⟨Nat.lt_trans hm hd, fun k hk hlt => ?_⟩, .inl henter⟩, starts_iff henter,
      refused henter⟩
    rcases Nat.lt_trichotomy k m with hkm | rfl | hmk
    · exact hwaits.2 k hk hkm
    · rw [hwake]
      exact ⟨nofun, nofun⟩
    · refine ⟨hbefore k hmk hlt, fun hinterrupt => ?_⟩
      have hhead := Execution.holds_until (Q := fun l => l = .enter)
        (P := fun s : SupervisorState σ ε => s.phase = .head)
        (fun s l t hs hl hstep => head_stays hs hl hstep) (woken hwake) hmk fun j hj hjk =>
          hbefore j hj (Nat.lt_trans hjk hlt)
      obtain ⟨wake, hwake⟩ := (interrupted hinterrupt).1
      cases hhead.symm.trans hwake
  · obtain ⟨-, hcancelled, hstopped⟩ := interrupted hinterrupt
    refine ⟨m, ⟨hwaits, .inr hinterrupt⟩, ⟨fun hstarts => ?_, fun hopen => ?_⟩, fun _ => hstopped⟩
    · cases hstarts.1.symm.trans hinterrupt
    · cases hopen.symm.trans hcancelled

/-- The supervisor over any execution, and over one that the runtime schedules. -/
theorem supervise_control_flow {σ ι ε : Type} {S : Session σ ι ε} (e : Execution (supervise S))
    (hbegins : Begins e) : Supervised e ∧ (Scheduled e → Restarts e) :=
  ⟨supervised hbegins, restarts hbegins⟩

def failing : Session Unit Unit Unit where
  start := ()
  step _ _ _ := none
  result _ := some (.error ())

def thenTicks (labels : List (SupervisorLabel Unit)) (n : Nat) : SupervisorLabel Unit :=
  labels.getD n (.tick 1)

theorem scheduled_of_stopped {e : Execution (supervise S)} {n : Nat}
    (hstopped : (e.state n).phase = .stopped) (hticks : ∀ k, e.label (n + k) = .tick 1) :
    Scheduled e := by
  have hsteps : ∀ k, (e.state (n + k)).phase = .stopped ∧
      (e.state (n + k)).now = (e.state n).now + k := by
    intro k
    induction k with
    | zero => exact ⟨hstopped, (Int.add_zero _).symm⟩
    | succ k ih =>
      have hstep := stepAt e (n + k)
      rw [hticks k] at hstep
      rw [← Nat.add_assoc]
      generalize e.state (n + k + 1) = t at hstep
      cases hstep with
      | tick => exact ⟨ih.1, by simp only [ih.2]; omega⟩
  have hidle : ∀ l, l = .wake ∨ l = .enter → e.WeaklyFair l := by
    intro l hl k henabled
    have hsome := henabled (n + k) (Nat.le_add_left k n)
    rcases hl with rfl | rfl <;> simp [supervise, (hsteps k).1] at hsome
  refine ⟨fun t => ⟨n + (t - (e.state n).now).toNat, ?_⟩, hidle _ (.inl rfl), hidle _ (.inr rfl)⟩
  rw [(hsteps _).2]
  omega

/-- A cancellation between the end of a backoff and the head of the loop. -/
def lateCancel : Execution (supervise failing) :=
  .ofLabels _ (.boot 0) (thenTicks [.enter, .finish, .tick 1000, .wake, .cancel, .enter]) fun n =>
    match n with
    | 0 | 1 | 2 | 3 | 4 | 5 => rfl
    | _ + 6 => rfl

theorem lateCancel_scheduled : Scheduled lateCancel :=
  scheduled_of_stopped (n := 6) rfl fun k => by
    rw [Nat.add_comm]
    rfl

/-- No session follows a failure whose backoff has ended, if the token is cancelled then. -/
theorem restart_missed : ¬ ∀ e : Execution (supervise failing), Begins e → Scheduled e →
    ∀ n w, failed e n → n < w → e.label w = .wake → (e.state (w + 1)).cancelled = false →
      ∃ m, n < m ∧ Starts e m := by
  intro h
  obtain ⟨m, hm, hstarts⟩ := h lateCancel ⟨rfl, rfl⟩ lateCancel_scheduled 1 3 rfl
    (by decide) rfl rfl
  match m with
  | 2 | 3 | 4 => cases hstarts.1
  | 5 => cases hstarts.2
  | m + 6 => cases hstarts.1

def cancelInBackoff : Execution (supervise failing) :=
  .ofLabels _ (.boot 0) (thenTicks [.enter, .finish, .cancel, .interrupt]) fun n =>
    match n with
    | 0 | 1 | 2 | 3 => rfl
    | _ + 4 => rfl

theorem supervise_control_flow_backoff : Supervised cancelInBackoff ∧ Restarts cancelInBackoff :=
  have hflow := supervise_control_flow cancelInBackoff ⟨rfl, rfl⟩
  ⟨hflow.1, hflow.2 (scheduled_of_stopped (n := 4) rfl fun k => by rw [Nat.add_comm]; rfl)⟩

end Supervision

end NotiService
