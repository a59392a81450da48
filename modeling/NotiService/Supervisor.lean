import NotiService.Foundation.Transition
import Mathlib.Algebra.Group.Int.Defs
import Mathlib.Algebra.Group.Nat.Defs

/-! The health of the Kafka consumer, and `supervise`: it runs one session after the other,
backs off after each that fails, and stops at the cancellation or after a session that
succeeds. What a session does is a parameter. -/

namespace NotiService
open Foundation

/-- Subtraction in `i64`, up to its bounds. -/
def saturatingSub (a b : Int) : Int := max (-2 ^ 63) (min (2 ^ 63 - 1) (a - b))

/-- The seconds of a clock in milliseconds. -/
def unixNowSecs (now : Int) : Int := if now < 0 then 0 else min (now / 1000) (2 ^ 63 - 1)

structure KafkaConsumerHealth where
  connected : Bool
  disabled : Bool
  lastProgressSecs : Int
deriving DecidableEq, Repr

namespace KafkaConsumerHealth

def new : KafkaConsumerHealth := ⟨false, false, 0⟩

def markProgress (nowSecs : Int) (h : KafkaConsumerHealth) : KafkaConsumerHealth :=
  { h with connected := true, lastProgressSecs := nowSecs }

def markDown (h : KafkaConsumerHealth) : KafkaConsumerHealth := { h with connected := false }

def isReady (h : KafkaConsumerHealth) (nowSecs staleAfterSecs : Int) : Bool :=
  if h.disabled then true
  else if !h.connected then false
  else saturatingSub nowSecs h.lastProgressSecs ≤ staleAfterSecs

theorem isReady_of_down {h : KafkaConsumerHealth} (hdisabled : h.disabled = false)
    (hdown : h.connected = false) (nowSecs staleAfterSecs : Int) :
    h.isReady nowSecs staleAfterSecs = false := by
  simp [isReady, hdisabled, hdown]

theorem isReady_iff {h : KafkaConsumerHealth} (hdisabled : h.disabled = false)
    (nowSecs staleAfterSecs : Int) : h.isReady nowSecs staleAfterSecs ↔
      h.connected ∧ saturatingSub nowSecs h.lastProgressSecs ≤ staleAfterSecs := by
  cases hconnected : h.connected <;> simp [isReady, hdisabled, hconnected]

end KafkaConsumerHealth

theorem unixNowSecs_bounds (now : Int) : 0 ≤ unixNowSecs now ∧ unixNowSecs now ≤ 2 ^ 63 - 1 := by
  unfold unixNowSecs
  split <;> omega

theorem unixNowSecs_mono {t t' : Int} (h : t ≤ t') : unixNowSecs t ≤ unixNowSecs t' := by
  unfold unixNowSecs
  split <;> split <;> omega

theorem saturatingSub_unixNowSecs (t t' : Int) :
    saturatingSub (unixNowSecs t) (unixNowSecs t') = unixNowSecs t - unixNowSecs t' := by
  have h := unixNowSecs_bounds t
  have h' := unixNowSecs_bounds t'
  unfold saturatingSub
  omega

/-- A session by its steps. A step may see whether the token is cancelled, and may record
progress. -/
structure Session (σ ι ε : Type) where
  start : σ
  step : Bool → σ → ι → Option (σ × Bool)
  result : σ → Option (Except ε Unit)

inductive SupervisorPhase (σ : Type) where
  | head
  | running (session : σ)
  | backingOff (wake : Int)
  | stopped
deriving DecidableEq, Repr

/-- `progress` are the times at which progress was recorded, `handled` the errors that the
supervisor has handled since the last of them. -/
structure SupervisorState (σ ε : Type) where
  now : Int
  health : KafkaConsumerHealth
  cancelled : Bool
  backoff : Nat
  phase : SupervisorPhase σ
  progress : List Int
  handled : List ε

inductive SupervisorLabel (ι : Type) where
  | tick (ms : Nat)
  | cancel
  | enter
  | session (l : ι)
  | finish
  | wake
  | interrupt

variable {σ ι ε : Type}

def initialBackoff : Nat := 1

def maxBackoff : Nat := 30

def nextBackoff (current : Nat) : Nat := min (current * 2) maxBackoff

namespace SupervisorState

def boot (now : Int) : SupervisorState σ ε := ⟨now, .new, false, initialBackoff, .head, [], []⟩

def stop (s : SupervisorState σ ε) : SupervisorState σ ε :=
  { s with health := s.health.markDown, phase := .stopped }

/-- A session has moved on, and may have recorded progress. -/
def advance (s : SupervisorState σ ε) (session : σ) (progresses : Bool) : SupervisorState σ ε :=
  if progresses then
    { s with
      phase := .running session
      health := s.health.markProgress (unixNowSecs s.now)
      progress := s.progress ++ [unixNowSecs s.now]
      handled := [] }
  else { s with phase := .running session }

def finish (s : SupervisorState σ ε) : Except ε Unit → SupervisorState σ ε
  | .ok () => s.stop
  | .error e =>
    { s with
      health := s.health.markDown
      phase := .backingOff (s.now + (s.backoff * 1000 : Nat))
      handled := s.handled ++ [e] }

end SupervisorState

def supervise (S : Session σ ι ε) : System (SupervisorState σ ε) (SupervisorLabel ι) where
  init s := s.health = .new ∧ s.backoff = initialBackoff ∧ s.phase = .head ∧ s.progress = [] ∧
    s.handled = []
  step s
    | .tick ms => some { s with now := s.now + ms }
    | .cancel => some { s with cancelled := true }
    | .enter =>
      match s.phase with
      | .head => some (if s.cancelled then s.stop else { s with phase := .running S.start })
      | _ => none
    | .session l =>
      match s.phase with
      | .running session => (S.step s.cancelled session l).map fun (session', progresses) =>
        s.advance session' progresses
      | _ => none
    | .finish =>
      match s.phase with
      | .running session => (S.result session).map s.finish
      | _ => none
    | .wake =>
      match s.phase with
      | .backingOff wake =>
        if wake ≤ s.now then some { s with phase := .head, backoff := nextBackoff s.backoff }
        else none
      | _ => none
    | .interrupt =>
      match s.phase with
      | .backingOff _ => if s.cancelled then some s.stop else none
      | _ => none

inductive SupervisorStep (S : Session σ ι ε) (s : SupervisorState σ ε) :
    SupervisorLabel ι → SupervisorState σ ε → Prop
  | tick (ms : Nat) : SupervisorStep S s (.tick ms) { s with now := s.now + ms }
  | cancel : SupervisorStep S s .cancel { s with cancelled := true }
  | refuse (hphase : s.phase = .head) (hcancelled : s.cancelled = true) :
    SupervisorStep S s .enter s.stop
  | enter (hphase : s.phase = .head) (hcancelled : s.cancelled = false) :
    SupervisorStep S s .enter { s with phase := .running S.start }
  | session {q q' : σ} {l : ι} {progresses : Bool} (hphase : s.phase = .running q)
    (hstep : S.step s.cancelled q l = some (q', progresses)) :
    SupervisorStep S s (.session l) (s.advance q' progresses)
  | finish {q : σ} {r : Except ε Unit} (hphase : s.phase = .running q)
    (hresult : S.result q = some r) : SupervisorStep S s .finish (s.finish r)
  | wake {wake : Int} (hphase : s.phase = .backingOff wake) (hdue : wake ≤ s.now) :
    SupervisorStep S s .wake { s with phase := .head, backoff := nextBackoff s.backoff }
  | interrupt {wake : Int} (hphase : s.phase = .backingOff wake) (hcancelled : s.cancelled = true) :
    SupervisorStep S s .interrupt s.stop

theorem supervisorStep {S : Session σ ι ε} {s t : SupervisorState σ ε} {l : SupervisorLabel ι}
    (hs : (supervise S).step s l = some t) : SupervisorStep S s l t := by
  cases l with
  | tick ms =>
    cases hs
    exact .tick ms
  | cancel =>
    cases hs
    exact .cancel
  | enter =>
    simp only [supervise] at hs
    split at hs
    · next hphase =>
      obtain rfl := Option.some.inj hs
      split
      · next hcancelled => exact .refuse hphase hcancelled
      · next hcancelled => exact .enter hphase (Bool.eq_false_iff.mpr hcancelled)
    · cases hs
  | session l =>
    simp only [supervise] at hs
    split at hs
    · next hphase =>
      obtain ⟨⟨q', progresses⟩, hstep, rfl⟩ := Option.map_eq_some_iff.mp hs
      exact .session hphase hstep
    · cases hs
  | finish =>
    simp only [supervise] at hs
    split at hs
    · next hphase =>
      obtain ⟨r, hresult, rfl⟩ := Option.map_eq_some_iff.mp hs
      exact .finish hphase hresult
    · cases hs
  | wake =>
    simp only [supervise] at hs
    split at hs
    · next hphase =>
      obtain ⟨hdue, hs⟩ := Option.ite_none_right_eq_some.mp hs
      cases hs
      exact .wake hphase hdue
    · cases hs
  | interrupt =>
    simp only [supervise] at hs
    split at hs
    · next hphase =>
      obtain ⟨hcancelled, hs⟩ := Option.ite_none_right_eq_some.mp hs
      cases hs
      exact .interrupt hphase hcancelled
    · cases hs

structure SupervisorState.Truthful (s : SupervisorState σ ε) : Prop where
  enabled : s.health.disabled = false
  down : s.handled ≠ [] → s.health.connected = false
  latest : s.health.connected → ∃ t ≤ s.now, s.health.lastProgressSecs = unixNowSecs t ∧
    unixNowSecs t ∈ s.progress

namespace SupervisorState.Truthful

variable {s : SupervisorState σ ε}

theorem initial (hhealth : s.health = .new) (hhandled : s.handled = []) : s.Truthful where
  enabled := by rw [hhealth]; rfl
  down h := absurd hhandled h
  latest h := by
    rw [hhealth] at h
    cases h

theorem tick (h : s.Truthful) (ms : Nat) : Truthful { s with now := s.now + ms } where
  enabled := h.enabled
  down := h.down
  latest hconnected := by
    obtain ⟨t, ht, hlast, hmem⟩ := h.latest hconnected
    exact ⟨t, Int.le_trans ht (Int.le_add_of_nonneg_right (Int.natCast_nonneg ms)), hlast, hmem⟩

theorem frame {t : SupervisorState σ ε} (h : s.Truthful) (hnow : t.now = s.now)
    (hhealth : t.health = s.health) (hprogress : t.progress = s.progress)
    (hhandled : t.handled = s.handled) : t.Truthful where
  enabled := hhealth ▸ h.enabled
  down := by rw [hhandled, hhealth]; exact h.down
  latest := by rw [hnow, hhealth, hprogress]; exact h.latest

theorem of_down (h : s.Truthful) {t : SupervisorState σ ε}
    (hhealth : t.health = s.health.markDown) :
    t.Truthful where
  enabled := by rw [hhealth]; exact h.enabled
  down _ := by rw [hhealth]; rfl
  latest hconnected := by
    rw [hhealth] at hconnected
    cases hconnected

theorem advance (h : s.Truthful) (session : σ) (progresses : Bool) :
    (s.advance session progresses).Truthful := by
  cases progresses with
  | false => exact h.frame rfl rfl rfl rfl
  | true =>
    refine ⟨h.enabled, fun hne => absurd rfl hne, fun _ => ?_⟩
    exact ⟨s.now, Int.le_refl _, rfl, List.mem_append_right _ (List.mem_singleton_self _)⟩

theorem finish (h : s.Truthful) (r : Except ε Unit) : (s.finish r).Truthful := by
  cases r with
  | ok => exact h.of_down rfl
  | error => exact h.of_down rfl

theorem step {S : Session σ ι ε} {l : SupervisorLabel ι} {t : SupervisorState σ ε} (h : s.Truthful)
    (hs : (supervise S).step s l = some t) : t.Truthful := by
  cases supervisorStep hs with
  | tick ms => exact h.tick ms
  | cancel | enter | wake => exact h.frame rfl rfl rfl rfl
  | refuse | interrupt => exact h.of_down rfl
  | session => exact h.advance _ _
  | finish => exact h.finish _

theorem recent (h : s.Truthful) {staleAfterSecs : Int}
    (hready : s.health.isReady (unixNowSecs s.now) staleAfterSecs) :
    ∃ t ∈ s.progress, t ≤ unixNowSecs s.now ∧ unixNowSecs s.now - t ≤ staleAfterSecs := by
  obtain ⟨hconnected, hstale⟩ := (KafkaConsumerHealth.isReady_iff h.enabled _ _).mp hready
  obtain ⟨t, ht, hlast, hmem⟩ := h.latest hconnected
  rw [hlast, saturatingSub_unixNowSecs] at hstale
  exact ⟨_, hmem, unixNowSecs_mono ht, hstale⟩

end SupervisorState.Truthful

theorem truthful_reachable {S : Session σ ι ε}
    {ok : SupervisorState σ ε → SupervisorLabel ι → Prop} {s : SupervisorState σ ε}
    (h : (supervise S).Reachable ok s) : s.Truthful :=
  h.invariant (fun _ hinit => .initial hinit.1 hinit.2.2.2.2) fun _ _ _ hs _ hstep => hs.step hstep

theorem running_of_step {S : Session σ ι ε} {s t : SupervisorState σ ε} {l : SupervisorLabel ι}
    (hs : (supervise S).step s l = some t) {p : σ} (hp : t.phase = .running p) :
    s.phase = .running p ∨ p = S.start ∨ ∃ q l' progresses, l = .session l' ∧
      s.phase = .running q ∧ S.step s.cancelled q l' = some (p, progresses) := by
  cases supervisorStep hs with
  | tick | cancel => exact .inl hp
  | refuse | interrupt | wake => cases hp
  | enter => exact .inr (.inl (SupervisorPhase.running.inj hp).symm)
  | @session q q' l' progresses hphase hstep =>
    have hq : (s.advance q' progresses).phase = .running q' := by cases progresses <;> rfl
    obtain rfl := SupervisorPhase.running.inj (hq.symm.trans hp)
    exact .inr (.inr ⟨q, l', progresses, rfl, hphase, hstep⟩)
  | @finish q r => cases r <;> cases hp

end NotiService
