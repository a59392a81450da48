import NotiService.Consumer
import NotiService.World
import NotiService.Foundation.Transition

/-! The Kafka consumer: supervised sessions that poll records into a bounded channel, and
a worker that handles them in turn and commits what succeeds. A failed record is skipped
without a commit, but the commit of a later one of its partition covers it. -/

namespace NotiService
open Foundation

variable {Bytes : Type}

abbrev TopicPartition := String × Int

def OwnedRecord.topicPartition (rec : OwnedRecord) : TopicPartition := (rec.topic, rec.partition)

def channelCap : Nat := 512

/-- `current` is what the worker handles. `closing`: the poll loop has ended, and the
worker drains the channel. `failed` are the records of this session whose handling has
returned an error. -/
structure KafkaSession where
  position : TopicPartition → Int
  channel : List OwnedRecord
  current : Option (OwnedRecord × Program Op (Except RecordError Unit))
  closing : Bool
  failed : List (TopicPartition × Int)

/-- `inFlight` are the offsets sent to be committed and not arrived. `handled` are the
records whose handling has returned `Ok`. -/
structure KafkaState (Bytes : Type) where
  world : World Bytes
  log : TopicPartition → List (Option String)
  committed : TopicPartition → Int
  inFlight : List (TopicPartition × Int)
  session : Option KafkaSession
  handled : List (TopicPartition × Int)

/-- `interfere`: the rest of the service, and time. -/
inductive KafkaLabel (Bytes : Type) where
  | produce (tp : TopicPartition) (payload : Option String)
  | subscribe
  | poll (tp : TopicPartition)
  | close
  | take
  | work (o : Outcome)
  | finish (sent : Bool)
  | stop
  | arrive (i : Nat)
  | lose (i : Nat)
  | crash
  | interfere (world : World Bytes)

namespace KafkaSession

/-- A session reads each partition on from its committed offset. -/
def subscribe (committed : TopicPartition → Int) : KafkaSession := ⟨committed, [], none, false, []⟩

def poll (log : TopicPartition → List (Option String)) (tp : TopicPartition)
    (s : KafkaSession) : Option KafkaSession :=
  if s.closing = false ∧ s.channel.length < channelCap then
    (log tp)[(s.position tp).toNat]?.map fun payload =>
      { s with
        position := Function.update s.position tp (s.position tp + 1)
        channel := s.channel ++ [⟨payload, tp.1, tp.2, s.position tp⟩] }
  else none

def take (mq : Bool) (env : EventEnv) (s : KafkaSession) : Option KafkaSession :=
  match s.current, s.channel with
  | none, rec :: channel =>
    some { s with channel, current := some (rec, Consumer.handleRecord mq env rec) }
  | _, _ => none

end KafkaSession

/-- The worker is done with a record: a success is sent to be committed, unless the
client refuses that, and an error is only logged. -/
def KafkaState.finish (s : KafkaState Bytes) (sent : Bool) (session : KafkaSession)
    (rec : OwnedRecord) : Except RecordError Unit → KafkaState Bytes
  | .ok () =>
    { s with
      session := some { session with current := none }
      handled := s.handled ++ [(rec.topicPartition, rec.offset)]
      inFlight := if sent then s.inFlight ++ [(rec.topicPartition, rec.offset + 1)]
        else s.inFlight }
  | .error _ =>
    { s with
      session := some { session with
        current := none
        failed := session.failed ++ [(rec.topicPartition, rec.offset)] } }

def kafkaSystem (d : Deployment Bytes) (env : EventEnv) :
    System (KafkaState Bytes) (KafkaLabel Bytes) where
  init s := s.committed = (fun _ => 0) ∧ s.inFlight = [] ∧ s.session = none ∧ s.handled = []
  step s
    | .produce tp payload =>
      some { s with log := Function.update s.log tp (s.log tp ++ [payload]) }
    | .subscribe =>
      if s.session.isNone then some { s with session := some (.subscribe s.committed) } else none
    | .poll tp => (s.session.bind (KafkaSession.poll s.log tp)).map fun session =>
        { s with session := some session }
    | .close => s.session.map fun session =>
        { s with session := some { session with closing := true } }
    | .take => (s.session.bind (KafkaSession.take d.mq env)).map fun session =>
        { s with session := some session }
    | .work o => s.session.bind fun session => session.current.bind fun (rec, p) =>
        (Program.step (exec d o) p s.world).map fun (p', world) =>
          { s with world, session := some { session with current := some (rec, p') } }
    | .finish sent => s.session.bind fun session => session.current.bind fun (rec, p) =>
        p.result.map (s.finish sent session rec)
    | .stop => s.session.bind fun session =>
        if session.closing ∧ session.channel = [] ∧ session.current.isNone then
          some { s with session := none }
        else none
    -- commits are asynchronous: they arrive in any order, or never
    | .arrive i => s.inFlight[i]?.map fun (tp, offset) =>
        { s with
          committed := Function.update s.committed tp offset
          inFlight := s.inFlight.eraseIdx i }
    | .lose i => some { s with inFlight := s.inFlight.eraseIdx i }
    | .crash => some { s with session := none }
    | .interfere world => some { s with world }

/-- Every record below the committed offset has been handled. -/
def KafkaState.AtLeastOnce (s : KafkaState Bytes) : Prop :=
  ∀ tp o, 0 ≤ o → o < s.committed tp → (tp, o) ∈ s.handled

/-- When a record's handling succeeds, no earlier one of its partition has failed in this
session without having been handled in an earlier one. -/
def Gapless (s : KafkaState Bytes) : KafkaLabel Bytes → Prop
  | .finish _ => ∀ session rec, s.session = some session →
      session.current = some (rec, .done (.ok ())) → ∀ o, 0 ≤ o → o < rec.offset →
        (rec.topicPartition, o) ∈ session.failed → (rec.topicPartition, o) ∈ s.handled
  | _ => True

namespace KafkaSession

def inHand (s : KafkaSession) : List OwnedRecord :=
  (s.current.map Prod.fst).toList ++ s.channel

/-- Two records of one partition are handled in the order of their offsets. -/
def Before (r₁ r₂ : OwnedRecord) : Prop :=
  r₁.topicPartition = r₂.topicPartition → r₁.offset < r₂.offset

/-- Polled records are handled, failed or in hand. -/
structure Inv (handled : List (TopicPartition × Int)) (s : KafkaSession) : Prop where
  accounted : ∀ tp o, 0 ≤ o → o < s.position tp → (tp, o) ∈ handled ∨ (tp, o) ∈ s.failed ∨
    ∃ rec ∈ s.inHand, rec.topicPartition = tp ∧ rec.offset = o
  ordered : s.inHand.Pairwise Before
  polled : ∀ rec ∈ s.inHand, rec.offset < s.position rec.topicPartition

namespace Inv

variable {handled : List (TopicPartition × Int)} {s s' : KafkaSession}

theorem subscribe {committed : TopicPartition → Int}
    (h : ∀ tp o, 0 ≤ o → o < committed tp → (tp, o) ∈ handled) :
    (KafkaSession.subscribe committed).Inv handled where
  accounted tp o ho hlt := .inl (h tp o ho hlt)
  ordered := .nil
  polled := nofun

theorem of_eq (h : s.Inv handled) (hposition : s'.position = s.position)
    (hfailed : s'.failed = s.failed) (hinHand : s'.inHand = s.inHand) : s'.Inv handled := by
  refine ⟨?_, ?_, ?_⟩
  · rw [hposition, hfailed, hinHand]
    exact h.accounted
  · rw [hinHand]
    exact h.ordered
  · rw [hposition, hinHand]
    exact h.polled

theorem poll {log : TopicPartition → List (Option String)} {tp : TopicPartition}
    (h : s.Inv handled) (hs : s.poll log tp = some s') : s'.Inv handled := by
  unfold KafkaSession.poll at hs
  obtain ⟨-, hs⟩ := Option.ite_none_right_eq_some.mp hs
  obtain ⟨payload, -, rfl⟩ := Option.map_eq_some_iff.mp hs
  let last : OwnedRecord := ⟨payload, tp.1, tp.2, s.position tp⟩
  have hinHand : KafkaSession.inHand
      { s with
        position := Function.update s.position tp (s.position tp + 1)
        channel := s.channel ++ [last] } = s.inHand ++ [last] := (List.append_assoc ..).symm
  refine ⟨?_, ?_, ?_⟩
  · intro tp' o ho hlt
    rw [hinHand]
    by_cases hlast : tp' = tp ∧ o = s.position tp
    · obtain ⟨rfl, rfl⟩ := hlast
      exact .inr (.inr ⟨last, by simp, rfl, rfl⟩)
    · have hlt' : o < s.position tp' := by
        simp only [Function.update_apply] at hlt
        split at hlt
        · next heq =>
          subst heq
          have : o ≠ s.position tp' := fun ho => hlast ⟨rfl, ho⟩
          omega
        · exact hlt
      refine (h.accounted tp' o ho hlt').imp_right (Or.imp_right ?_)
      rintro ⟨rec', hrec', hplace⟩
      exact ⟨rec', by simp [hrec'], hplace⟩
  · rw [hinHand]
    refine List.pairwise_append.mpr ⟨h.ordered, List.pairwise_singleton _ _, ?_⟩
    rintro rec' hrec' _ hrec htp
    obtain rfl := List.mem_singleton.mp hrec
    have := h.polled rec' hrec'
    rwa [htp] at this
  · rw [hinHand]
    intro rec' hrec'
    simp only [Function.update_apply]
    rcases List.mem_append.mp hrec' with hrec' | hrec'
    · have := h.polled rec' hrec'
      split
      · next heq => rw [heq] at this; omega
      · exact this
    · obtain rfl := List.mem_singleton.mp hrec'
      rw [if_pos (show last.topicPartition = tp from rfl)]
      exact Int.lt_succ _

theorem take {mq : Bool} {env : EventEnv} (h : s.Inv handled)
    (hs : s.take mq env = some s') : s'.Inv handled := by
  unfold KafkaSession.take at hs
  split at hs
  · next rec channel hcurrent hchannel =>
    obtain rfl := Option.some.inj hs
    exact h.of_eq rfl rfl (by simp [inHand, hcurrent, hchannel])
  · cases hs

theorem finish {handled' : List (TopicPartition × Int)} {rec : OwnedRecord}
    {p : Program Op (Except RecordError Unit)} {failed : List (TopicPartition × Int)}
    (h : s.Inv handled) (hcurrent : s.current = some (rec, p)) (hhandled : handled ⊆ handled')
    (hfailed : s.failed ⊆ failed)
    (hrec : (rec.topicPartition, rec.offset) ∈ handled' ∨
      (rec.topicPartition, rec.offset) ∈ failed) :
    KafkaSession.Inv handled' { s with current := none, failed } := by
  have hinHand : s.inHand = rec :: s.channel := by simp [inHand, hcurrent]
  have hrest : KafkaSession.inHand { s with current := none, failed } = s.channel := rfl
  refine ⟨?_, ?_, ?_⟩
  · intro tp o ho hlt
    rw [hrest]
    rcases h.accounted tp o ho hlt with hdone | hbad | ⟨rec', hrec', rfl, rfl⟩
    · exact .inl (hhandled hdone)
    · exact .inr (.inl (hfailed hbad))
    · rw [hinHand] at hrec'
      rcases List.mem_cons.mp hrec' with rfl | hrec'
      · exact hrec.imp_right .inl
      · exact .inr (.inr ⟨rec', hrec', rfl, rfl⟩)
  · have := h.ordered
    rw [hinHand] at this
    exact this.of_cons
  · intro rec' hrec'
    exact h.polled rec' (by rw [hinHand]; exact List.mem_cons_of_mem _ hrec')

theorem below_current {rec : OwnedRecord} {p : Program Op (Except RecordError Unit)}
    (h : s.Inv handled) (hcurrent : s.current = some (rec, p)) {o : Int} (ho : 0 ≤ o)
    (hlt : o < rec.offset) :
    (rec.topicPartition, o) ∈ handled ∨ (rec.topicPartition, o) ∈ s.failed := by
  have hinHand : s.inHand = rec :: s.channel := by simp [inHand, hcurrent]
  have hpolled := h.polled rec (by simp [hinHand])
  have hordered := h.ordered
  rw [hinHand, List.pairwise_cons] at hordered
  rcases h.accounted rec.topicPartition o ho (by omega) with hdone | hbad | ⟨rec', hrec', htp, rfl⟩
  · exact .inl hdone
  · exact .inr hbad
  · rw [hinHand] at hrec'
    rcases List.mem_cons.mp hrec' with rfl | hrec'
    · exact absurd hlt (Int.lt_irrefl _)
    · have := hordered.1 rec' hrec' htp.symm
      omega

end Inv

end KafkaSession

namespace Kafka

structure Inv (s : KafkaState Bytes) : Prop where
  committed : s.AtLeastOnce
  inFlight : ∀ tp c, (tp, c) ∈ s.inFlight → ∀ o, 0 ≤ o → o < c → (tp, o) ∈ s.handled
  session : ∀ session, s.session = some session → session.Inv s.handled

theorem Inv.of_session {s s' : KafkaState Bytes} (h : Inv s)
    (hcommitted : s'.committed = s.committed)
    (hinFlight : s'.inFlight ⊆ s.inFlight) (hhandled : s'.handled = s.handled)
    (hsession : ∀ session, s'.session = some session → session.Inv s.handled) : Inv s' where
  committed := by
    intro tp o ho hlt
    rw [hcommitted] at hlt
    rw [hhandled]
    exact h.committed tp o ho hlt
  inFlight tp c hc o ho hlt := by
    rw [hhandled]
    exact h.inFlight tp c (hinFlight hc) o ho hlt
  session := by
    rw [hhandled]
    exact hsession

theorem inv_finish {s : KafkaState Bytes} {sent : Bool} {session : KafkaSession}
    {rec : OwnedRecord} {res : Except RecordError Unit} (h : Inv s)
    (hsession : s.session = some session) (hcurrent : session.current = some (rec, .done res))
    (hgapless : Gapless s (.finish sent)) : Inv (s.finish sent session rec res) := by
  have hinv := h.session session hsession
  cases res with
  | ok _ =>
    have hmono : ∀ {place}, place ∈ s.handled →
        place ∈ s.handled ++ [(rec.topicPartition, rec.offset)] := List.mem_append_left _
    -- everything up to the record is handled, so its commit is safe
    have hupTo : ∀ o, 0 ≤ o → o < rec.offset + 1 →
        (rec.topicPartition, o) ∈ s.handled ++ [(rec.topicPartition, rec.offset)] := by
      intro o ho hlt
      by_cases heq : o = rec.offset
      · simp [heq]
      · refine hmono ?_
        have hlt' : o < rec.offset := by omega
        rcases hinv.below_current hcurrent ho hlt' with hdone | hbad
        · exact hdone
        · exact hgapless session rec hsession hcurrent o ho hlt' hbad
    refine ⟨fun tp o ho hlt => hmono (h.committed tp o ho hlt), ?_, ?_⟩
    · intro tp c hc o ho hlt
      have hc : (tp, c) ∈ s.inFlight ∨ (tp, c) = (rec.topicPartition, rec.offset + 1) := by
        cases sent with
        | false => exact .inl hc
        | true => simpa [KafkaState.finish] using hc
      rcases hc with hc | hc
      · exact hmono (h.inFlight tp c hc o ho hlt)
      · cases hc
        exact hupTo o ho hlt
    · rintro _ ⟨rfl⟩
      refine hinv.finish hcurrent (List.subset_append_left ..) (List.Subset.refl _) (.inl ?_)
      simp [KafkaState.finish]
  | error e =>
    refine h.of_session rfl (List.Subset.refl _) rfl ?_
    rintro _ ⟨rfl⟩
    refine hinv.finish hcurrent (List.Subset.refl _) (List.subset_append_left ..) (.inr ?_)
    simp

theorem inv_step {d : Deployment Bytes} {env : EventEnv} {s t : KafkaState Bytes}
    {l : KafkaLabel Bytes} (h : Inv s) (hok : Gapless s l)
    (hs : (kafkaSystem d env).step s l = some t) : Inv t := by
  cases l with
  | produce tp payload =>
    obtain rfl := Option.some.inj hs
    exact h.of_session rfl (List.Subset.refl _) rfl h.session
  | subscribe =>
    obtain ⟨-, hs⟩ := Option.ite_none_right_eq_some.mp hs
    obtain rfl := Option.some.inj hs
    refine h.of_session rfl (List.Subset.refl _) rfl ?_
    rintro _ ⟨rfl⟩
    exact .subscribe h.committed
  | poll tp =>
    obtain ⟨session', hpoll, rfl⟩ := Option.map_eq_some_iff.mp hs
    obtain ⟨session, hsession, hpoll⟩ := Option.bind_eq_some_iff.mp hpoll
    refine h.of_session rfl (List.Subset.refl _) rfl ?_
    rintro _ ⟨rfl⟩
    exact (h.session session hsession).poll hpoll
  | close =>
    obtain ⟨session, hsession, rfl⟩ := Option.map_eq_some_iff.mp hs
    refine h.of_session rfl (List.Subset.refl _) rfl ?_
    rintro _ ⟨rfl⟩
    exact (h.session session hsession).of_eq rfl rfl rfl
  | take =>
    obtain ⟨session', htake, rfl⟩ := Option.map_eq_some_iff.mp hs
    obtain ⟨session, hsession, htake⟩ := Option.bind_eq_some_iff.mp htake
    refine h.of_session rfl (List.Subset.refl _) rfl ?_
    rintro _ ⟨rfl⟩
    exact (h.session session hsession).take htake
  | work o =>
    obtain ⟨session, hsession, hs⟩ := Option.bind_eq_some_iff.mp hs
    obtain ⟨⟨rec, p⟩, hcurrent, hs⟩ := Option.bind_eq_some_iff.mp hs
    obtain ⟨⟨p', world⟩, -, rfl⟩ := Option.map_eq_some_iff.mp hs
    refine h.of_session rfl (List.Subset.refl _) rfl ?_
    rintro _ ⟨rfl⟩
    exact (h.session session hsession).of_eq rfl rfl (by simp [KafkaSession.inHand, hcurrent])
  | finish sent =>
    obtain ⟨session, hsession, hs⟩ := Option.bind_eq_some_iff.mp hs
    obtain ⟨⟨rec, p⟩, hcurrent, hs⟩ := Option.bind_eq_some_iff.mp hs
    obtain ⟨res, hres, rfl⟩ := Option.map_eq_some_iff.mp hs
    cases p with
    | call op rest => cases hres
    | done value =>
      cases hres
      exact inv_finish h hsession hcurrent hok
  | stop =>
    obtain ⟨session, hsession, hs⟩ := Option.bind_eq_some_iff.mp hs
    obtain ⟨-, hs⟩ := Option.ite_none_right_eq_some.mp hs
    obtain rfl := Option.some.inj hs
    exact h.of_session rfl (List.Subset.refl _) rfl nofun
  | arrive i =>
    obtain ⟨⟨tp, c⟩, hi, rfl⟩ := Option.map_eq_some_iff.mp hs
    refine ⟨?_, ?_, h.session⟩
    · intro tp' o ho hlt
      change o < Function.update s.committed tp c tp' at hlt
      rw [Function.update_apply] at hlt
      split at hlt
      · next heq =>
        subst heq
        exact h.inFlight _ c (List.mem_of_getElem? hi) o ho hlt
      · exact h.committed tp' o ho hlt
    · exact fun tp' c' hc => h.inFlight tp' c' (List.mem_of_mem_eraseIdx hc)
  | lose i =>
    obtain rfl := Option.some.inj hs
    exact h.of_session rfl (List.eraseIdx_subset ..) rfl h.session
  | crash =>
    obtain rfl := Option.some.inj hs
    exact h.of_session rfl (List.Subset.refl _) rfl nofun
  | interfere world =>
    obtain rfl := Option.some.inj hs
    exact h.of_session rfl (List.Subset.refl _) rfl h.session

end Kafka

/-- While no success follows an unhandled failure of its partition in a session, the
committed offset never passes an unhandled record. -/
theorem kafka_atLeastOnce (d : Deployment Bytes) (env : EventEnv) (s : KafkaState Bytes)
    (h : (kafkaSystem d env).Reachable Gapless s) : s.AtLeastOnce := by
  refine (System.Reachable.invariant (P := Kafka.Inv) ?_
    (fun _ _ _ hinv hok hs => Kafka.inv_step hinv hok hs) h).committed
  rintro s ⟨hcommitted, hinFlight, hsession, -⟩
  refine ⟨?_, ?_, ?_⟩
  · intro tp o ho hlt
    rw [hcommitted] at hlt
    exact absurd hlt (Int.not_lt.mpr ho)
  · simp [hinFlight]
  · simp [hsession]

/-- Conversely, a success behind an unhandled failure can be committed, and then that
record is lost. -/
theorem kafka_skips_of_gap {d : Deployment Bytes} {env : EventEnv} {s t : KafkaState Bytes}
    (h : (kafkaSystem d env).Reachable System.always s) (hgap : ¬ Gapless s (.finish true))
    (hs : (kafkaSystem d env).step s (.finish true) = some t) :
    ∃ u, (kafkaSystem d env).Reachable System.always u ∧ ¬ u.AtLeastOnce := by
  simp only [Gapless, not_forall] at hgap
  obtain ⟨session, rec, hsession, hcurrent, o, ho, hlt, -, hmissing⟩ := hgap
  have ht : t = s.finish true session rec (.ok ()) := by
    have : (kafkaSystem d env).step s (.finish true) =
        some (s.finish true session rec (.ok ())) := by
      simp [kafkaSystem, hsession, hcurrent]
    exact Option.some.inj (hs.symm.trans this)
  have hlast : t.inFlight[s.inFlight.length]? = some (rec.topicPartition, rec.offset + 1) := by
    simp [ht, KafkaState.finish]
  refine ⟨_, (h.next trivial hs).next (l := .arrive s.inFlight.length) trivial
    (Option.map_eq_some_iff.mpr ⟨_, hlast, rfl⟩), fun honce => ?_⟩
  have hcovered : o < Function.update t.committed rec.topicPartition (rec.offset + 1)
      rec.topicPartition := by
    rw [Function.update_self]
    omega
  have hhandled : (rec.topicPartition, o) ∈ t.handled := honce rec.topicPartition o ho hcovered
  rw [ht] at hhandled
  rcases List.mem_append.mp hhandled with hdone | hself
  · exact hmissing hdone
  · have : o = rec.offset := by simpa using hself
    omega

def EventEnv.empty : EventEnv := .knowing [("\x7b\x7d", .obj [])] []

def KafkaState.start : KafkaState NotificationTask :=
  ⟨.boot 0 .empty, fun _ => [], fun _ => 0, [], none, []⟩

theorem kafka_atLeastOnce_committed :
    ∃ s, (kafkaSystem (.plain true) .empty).Reachable Gapless s ∧
      s.committed ("iam.user.events", 0) = 1 ∧ s.AtLeastOnce := by
  obtain ⟨s, hrun, hcommitted⟩ : ∃ s, (kafkaSystem (.plain true) .empty).runWhen
      (fun s _ => s.session.all fun session => session.failed.isEmpty) .start
      [.produce ("iam.user.events", 0) (some "\x7b\x7d"),
        .produce ("iam.user.events", 0) (some "oops"), .subscribe,
        .poll ("iam.user.events", 0), .take, .finish true, .poll ("iam.user.events", 0),
        .arrive 0] = some s ∧
      s.committed ("iam.user.events", 0) = 1 := ⟨_, rfl, rfl⟩
  have gapless : ∀ (s : KafkaState NotificationTask) (l : KafkaLabel NotificationTask),
      (s.session.all fun session => session.failed.isEmpty) = true → Gapless s l := by
    intro s l hnone
    cases l with
    | finish sent =>
      intro session rec hsession _ o _ _ ho
      simp [hsession] at hnone
      simp [hnone] at ho
    | _ => trivial
  have reach := (System.Reachable.start (s := KafkaState.start)
    (S := kafkaSystem (.plain true) .empty) ⟨rfl, rfl, rfl, rfl⟩).runWhen gapless hrun
  exact ⟨s, reach, hcommitted, kafka_atLeastOnce (.plain true) .empty s reach⟩

/-- Bad JSON at offset 0, a good record at offset 1: offset 2 is committed. -/
theorem kafka_skips : ∃ s, (kafkaSystem (.plain true) .empty).Reachable System.always s ∧
    ¬ s.AtLeastOnce := by
  obtain ⟨s, hrun, hcommitted, hhandled⟩ : ∃ s, (kafkaSystem (.plain true) .empty).run .start
      [.produce ("iam.user.events", 0) (some "oops"),
        .produce ("iam.user.events", 0) (some "\x7b\x7d"), .subscribe,
        .poll ("iam.user.events", 0), .poll ("iam.user.events", 0), .take, .finish true, .take,
        .finish true, .arrive 0] = some s ∧
      s.committed ("iam.user.events", 0) = 2 ∧ s.handled = [(("iam.user.events", 0), 1)] :=
    ⟨_, rfl, rfl, rfl⟩
  refine ⟨s, System.Reachable.run (.start ⟨rfl, rfl, rfl, rfl⟩) hrun, fun h => ?_⟩
  have := h ("iam.user.events", 0) 0 (by decide) (by rw [hcommitted]; decide)
  simp [hhandled] at this

end NotiService
