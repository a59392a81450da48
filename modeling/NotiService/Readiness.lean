import NotiService.Supervisor

/-! One session of the Kafka consumer as its health sees it: polling goes on through every
error but the loss of all brokers, and records progress. The records it polls are left to the
worker. -/

namespace NotiService
open Foundation

inductive RDKafkaErrorCode where
  | allBrokersDown
  | pollExceeded
  | other (code : Int)
deriving DecidableEq, Repr

inductive KafkaError where
  | messageConsumption (code : RDKafkaErrorCode)
  | other (text : String)
deriving DecidableEq, Repr

def isFatalKafkaError : KafkaError → Bool
  | .messageConsumption .allBrokersDown => true
  | _ => false

/-- The two errors that the documentation of the consumer and of its health calls fatal. -/
def KafkaError.documentedFatal : KafkaError → Bool
  | .messageConsumption .allBrokersDown | .messageConsumption .pollExceeded => true
  | _ => false

inductive SessionError where
  | connect (text : String)
  | recv (e : KafkaError)
  | channelClosed
deriving DecidableEq, Repr

/-- `tx.send` waits for room in the channel, and `draining` for the worker. -/
inductive PollPhase where
  | connecting
  | polling
  | handing
  | draining (r : Except SessionError Unit)
  | ended (r : Except SessionError Unit)

/-- `lost` is the last error that `recv` returned and the documentation calls fatal. -/
structure PollState where
  phase : PollPhase
  lost : Option KafkaError

inductive RecvOutcome where
  | idle
  | message
  | error (e : KafkaError)

inductive PollLabel where
  | connect (r : Except String Unit)
  | shutdown
  | recv (o : RecvOutcome)
  | sent (accepted : Bool)
  | joined

def runKafkaSession : Session PollState PollLabel SessionError where
  start := ⟨.connecting, none⟩
  step cancelled s l :=
    match s.phase, l with
    | .connecting, .connect (.ok ()) => some ({ s with phase := .polling }, false)
    | .connecting, .connect (.error e) =>
      some ({ s with phase := .ended (.error (.connect e)) }, false)
    | .polling, .shutdown =>
      if cancelled then some ({ s with phase := .draining (.ok ()) }, false) else none
    | .polling, .recv .idle => some (s, true)
    | .polling, .recv .message => some ({ s with phase := .handing }, true)
    | .polling, .recv (.error e) =>
      let lost := if e.documentedFatal then some e else s.lost
      if isFatalKafkaError e then some (⟨.draining (.error (.recv e)), lost⟩, false)
      else some (⟨.polling, lost⟩, true)
    | .handing, .sent true => some ({ s with phase := .polling }, false)
    | .handing, .sent false => some ({ s with phase := .draining (.error .channelClosed) }, false)
    | .draining r, .joined => some ({ s with phase := .ended r }, false)
    | _, _ => none
  result s :=
    match s.phase with
    | .ended r => some r
    | _ => none

abbrev ConsumerHealthState := SupervisorState PollState SessionError

abbrev readinessSystem : System ConsumerHealthState (SupervisorLabel PollLabel) :=
  supervise runKafkaSession

/-- A session that has lost its brokers is over, and fails. -/
def PollState.Ends (p : PollState) : Prop :=
  ∀ e, p.lost = some e → ∃ r, r = .error (.recv e) ∧ (p.phase = .draining r ∨ p.phase = .ended r)

/-- The readiness of the consumer follows the loss of its brokers, and its progress. -/
structure SupervisorState.FollowsLoss (s : ConsumerHealthState) : Prop where
  ends : ∀ p, s.phase = .running p → p.Ends
  down : ∀ e, e.documentedFatal → .recv e ∈ s.handled →
    ∀ nowSecs staleAfterSecs, s.health.isReady nowSecs staleAfterSecs = false
  recent : ∀ staleAfterSecs, s.health.disabled = false →
    s.health.isReady (unixNowSecs s.now) staleAfterSecs →
      ∃ t ∈ s.progress, t ≤ unixNowSecs s.now ∧ unixNowSecs s.now - t ≤ staleAfterSecs

def PollsInTime (_ : ConsumerHealthState) : SupervisorLabel PollLabel → Prop
  | .session (.recv (.error e)) => e ≠ .messageConsumption .pollExceeded
  | _ => True

theorem isFatal_of_documented {e : KafkaError} (h : e.documentedFatal)
    (hne : e ≠ .messageConsumption .pollExceeded) : isFatalKafkaError e := by
  unfold KafkaError.documentedFatal at h
  split at h
  · rfl
  · exact absurd rfl hne
  · cases h

theorem PollState.Ends.step {p p' : PollState} {l : PollLabel} {cancelled progresses : Bool}
    (h : p.Ends) (hok : ∀ e, l = .recv (.error e) → e ≠ .messageConsumption .pollExceeded)
    (hs : runKafkaSession.step cancelled p l = some (p', progresses)) : p'.Ends := by
  obtain ⟨phase, lost⟩ := p
  have hopen : (∀ r, phase ≠ .draining r) → (∀ r, phase ≠ .ended r) → lost = none := by
    intro hdraining hended
    cases lost with
    | none => rfl
    | some e =>
      obtain ⟨r, -, hphase | hphase⟩ := h e rfl
      · exact absurd hphase (hdraining r)
      · exact absurd hphase (hended r)
  cases phase with
  | connecting =>
    obtain rfl := hopen nofun nofun
    cases l with
    | connect r => cases r <;> cases hs <;> exact nofun
    | _ => cases hs
  | polling =>
    obtain rfl := hopen nofun nofun
    cases l with
    | shutdown =>
      obtain ⟨-, hs⟩ := Option.ite_none_right_eq_some.mp hs
      cases hs
      exact nofun
    | recv o =>
      cases o with
      | idle | message => cases hs; exact nofun
      | error e =>
        cases hlost : e.documentedFatal with
        | true =>
          have hfatal := isFatal_of_documented hlost (hok e rfl)
          simp only [runKafkaSession, hlost, hfatal, if_true, Option.some.injEq,
            Prod.mk.injEq] at hs
          obtain ⟨rfl, -⟩ := hs
          intro e' he'
          obtain rfl := Option.some.inj he'
          exact ⟨_, rfl, .inl rfl⟩
        | false =>
          simp only [runKafkaSession, hlost] at hs
          split at hs <;> cases hs <;> exact nofun
    | _ => cases hs
  | handing =>
    obtain rfl := hopen nofun nofun
    cases l with
    | sent accepted => cases accepted <;> cases hs <;> exact nofun
    | _ => cases hs
  | draining r =>
    cases l with
    | joined =>
      cases hs
      intro e he
      obtain ⟨r', hr', hphase | hphase⟩ := h e he
      · obtain rfl := PollPhase.draining.inj hphase
        exact ⟨_, hr', .inr rfl⟩
      · cases hphase
    | _ => cases hs
  | ended r => cases l <;> cases hs

theorem ends_reachable {s : ConsumerHealthState} (h : readinessSystem.Reachable PollsInTime s) :
    ∀ p, s.phase = .running p → p.Ends := by
  refine h.invariant (P := fun s => ∀ p, s.phase = .running p → p.Ends) ?_ ?_
  · rintro s ⟨-, -, hphase, -⟩ p hp
    rw [hphase] at hp
    cases hp
  · intro s l t ih hok hs p hp
    rcases running_of_step hs hp with hp | rfl | ⟨q, l', progresses, rfl, hq, hstep⟩
    · exact ih p hp
    · exact nofun
    · exact (ih q hq).step (fun e he => by subst he; exact hok) hstep

/-- Readiness follows the loss of the brokers and recent progress, in every run in which `recv`
does not report that the poll interval was exceeded. -/
theorem readiness_follows {s : ConsumerHealthState} (h : readinessSystem.Reachable PollsInTime s) :
    s.FollowsLoss where
  ends := ends_reachable h
  down e _ hmem := by
    have htruthful := truthful_reachable h
    exact KafkaConsumerHealth.isReady_of_down htruthful.enabled
      (htruthful.down (List.ne_nil_of_mem hmem))
  recent _ _ hready := (truthful_reachable h).recent hready

/-- A record is polled, all brokers are lost, and the supervisor has handled that. -/
theorem readiness_follows_brokers_down : ∃ s : ConsumerHealthState,
    s.handled = [.recv (.messageConsumption .allBrokersDown)] ∧ s.progress = [1000] ∧
        s.FollowsLoss := by
  let check : ConsumerHealthState → SupervisorLabel PollLabel → Bool
    | _, .session (.recv (.error e)) => e ≠ .messageConsumption .pollExceeded
    | _, _ => true
  have hcheck : ∀ s l, check s l = true → PollsInTime s l := by
    intro s l hl
    unfold PollsInTime
    split
    · exact of_decide_eq_true hl
    · trivial
  obtain ⟨s, hrun, hhandled, hprogress⟩ : ∃ s, readinessSystem.runWhen check (.boot 1000000)
      [.enter, .session (.connect (.ok ())), .session (.recv .message), .session (.sent true),
        .session (.recv (.error (.messageConsumption .allBrokersDown))), .session .joined,
        .finish] = some s ∧ s.handled = [.recv (.messageConsumption .allBrokersDown)] ∧
      s.progress = [1000] := ⟨_, rfl, rfl, rfl⟩
  have hstart : readinessSystem.init (.boot 1000000) := ⟨rfl, rfl, rfl, rfl, rfl⟩
  exact ⟨s, hhandled, hprogress, readiness_follows
    ((System.Reachable.start hstart).runWhen hcheck hrun)⟩

/-- The session that is told it exceeded the poll interval polls on. -/
theorem poll_exceeded_continues : ¬ ∀ s : ConsumerHealthState,
    readinessSystem.Reachable System.always s → s.FollowsLoss := by
  intro h
  obtain ⟨s, hrun, hphase⟩ : ∃ s : ConsumerHealthState, readinessSystem.run (.boot 1000000)
      [.enter, .session (.connect (.ok ())),
        .session (.recv (.error (.messageConsumption .pollExceeded)))] = some s ∧
      s.phase = .running ⟨.polling, some (.messageConsumption .pollExceeded)⟩ := ⟨_, rfl, rfl⟩
  have hstart : readinessSystem.init (.boot 1000000) := ⟨rfl, rfl, rfl, rfl, rfl⟩
  obtain ⟨r, -, hend | hend⟩ := (h s ((System.Reachable.start hstart).run hrun)).ends _ hphase _ rfl
  · cases hend
  · cases hend

end NotiService
