import NotiService.Ingestion

/-! No record is lost or stored twice. A record below the committed offset has been handled,
and a record that has been handled has its rows, since nobody takes rows away. However often
a record comes again, there is one row for each of its keys. -/

namespace NotiService
open Foundation

variable {Bytes : Type}

namespace KafkaState

def record (s : KafkaState Bytes) (tp : TopicPartition) (o : Int) : Option OwnedRecord :=
  if 0 ≤ o then (s.log tp)[o.toNat]?.map fun payload => ⟨payload, tp.1, tp.2, o⟩ else none

def Logged (s : KafkaState Bytes) (rec : OwnedRecord) : Prop :=
  s.record rec.topicPartition rec.offset = some rec

variable {s : KafkaState Bytes} {tp : TopicPartition} {o : Int} {rec : OwnedRecord}

theorem record_produce (tp' : TopicPartition) (payload : Option String)
    (h : s.record tp o = some rec) : record
      { s with log := Function.update s.log tp' (s.log tp' ++ [payload]) } tp o = some rec := by
  obtain ⟨ho, h⟩ := Option.ite_none_right_eq_some.mp h
  obtain ⟨p, hp, rfl⟩ := Option.map_eq_some_iff.mp h
  have hlt : o.toNat < (s.log tp).length := (List.getElem?_eq_some_iff.mp hp).1
  have hsame : (Function.update s.log tp' (s.log tp' ++ [payload]) tp)[o.toNat]? =
      (s.log tp)[o.toNat]? := by
    rw [Function.update_apply]
    split
    · next heq =>
      subst heq
      exact List.getElem?_append_left hlt
    · rfl
  rw [record, if_pos ho]
  show Option.map _ (Function.update s.log tp' (s.log tp' ++ [payload]) tp)[o.toNat]? = _
  rw [hsame, hp]
  rfl

end KafkaState

namespace Kafka

variable {d : Deployment Bytes} {env : EventEnv} {asked : Request → Prop}
  {s s' : KafkaState Bytes} {session session' : KafkaSession}

/-- What a session holds are records of the log, and its worker keeps the promise of the
handler while the rest of the server adds rows that were asked for. -/
structure Working (d : Deployment Bytes) (env : EventEnv) (asked : Request → Prop)
    (s : KafkaState Bytes) (session : KafkaSession) : Prop where
  position : ∀ tp, 0 ≤ session.position tp
  logged : ∀ rec ∈ session.inHand, s.Logged rec
  meets : ∀ rec p, session.current = some (rec, p) → p.Meets (exec d) (World.Collects asked)
    (World.Collects (· ∈ rec.requests env)) (rec.Promise env) s.world

/-- A handled record is one of the log and has its rows, and every row has been asked for by
the API or by a record. -/
structure Stores (d : Deployment Bytes) (env : EventEnv) (asked : Request → Prop)
    (s : KafkaState Bytes) : Prop where
  committed : ∀ tp, 0 ≤ s.committed tp
  inFlight : ∀ tp c, (tp, c) ∈ s.inFlight → 0 ≤ c
  session : ∀ session, s.session = some session → Working d env asked s session
  handled : ∀ tp o, (tp, o) ∈ s.handled →
    ∃ rec, s.record tp o = some rec ∧ (rec.counter env = none → rec.Stored env s.world)
  origin : ∀ r ∈ s.world.contents, asked r ∨ ∃ rec, s.Logged rec ∧ r ∈ rec.requests env

theorem Working.of_current (h : Working d env asked s session)
    (hrecord : ∀ tp o rec, s.record tp o = some rec → s'.record tp o = some rec)
    (hworld : s'.world = s.world) (hposition : ∀ tp, 0 ≤ session'.position tp)
    (hinHand : ∀ rec ∈ session'.inHand, rec ∈ session.inHand)
    (hcurrent : session'.current = session.current ∨ session'.current = none) :
    Working d env asked s' session' where
  position := hposition
  logged rec hrec := hrecord _ _ _ (h.logged rec (hinHand rec hrec))
  meets rec p hp := by
    rw [hworld]
    rcases hcurrent with hcurrent | hcurrent
    · exact h.meets rec p (hcurrent.symm.trans hp)
    · cases hcurrent.symm.trans hp

theorem Stores.of_session (h : Stores d env asked s)
    (hrecord : ∀ tp o rec, s.record tp o = some rec → s'.record tp o = some rec)
    (hworld : s'.world = s.world) (hhandled : s'.handled = s.handled)
    (hcommitted : ∀ tp, 0 ≤ s'.committed tp) (hinFlight : ∀ tp c, (tp, c) ∈ s'.inFlight → 0 ≤ c)
    (hsession : ∀ session, s'.session = some session → Working d env asked s' session) :
    Stores d env asked s' where
  committed := hcommitted
  inFlight := hinFlight
  session := hsession
  handled tp o ho := by
    rw [hhandled] at ho
    rw [hworld]
    obtain ⟨rec, hrec, hstored⟩ := h.handled tp o ho
    exact ⟨rec, hrecord _ _ _ hrec, hstored⟩
  origin r hr := by
    rw [hworld] at hr
    exact (h.origin r hr).imp_right fun ⟨rec, hrec, hasks⟩ => ⟨rec, hrecord _ _ _ hrec, hasks⟩

theorem Stores.others {w : World Bytes} (h : Stores d env asked s)
    (hw : s.world.Collects asked w) : Stores d env asked { s with world := w } where
  committed := h.committed
  inFlight := h.inFlight
  session session hsession :=
    have hworking := h.session session hsession
    ⟨hworking.position, hworking.logged, fun rec p hp =>
      (hworking.meets rec p hp).others (.single hw)⟩
  handled tp o ho := by
    obtain ⟨rec, hrec, hstored⟩ := h.handled tp o ho
    exact ⟨rec, hrec, fun hcounter => (hstored hcounter).mono hw⟩
  origin r hr := (hw.new r hr).elim (h.origin r) .inl

theorem Working.same (h : Working d env asked s session)
    (hrecord : ∀ tp o rec, s.record tp o = some rec → s'.record tp o = some rec)
    (hworld : s'.world = s.world) : Working d env asked s' session :=
  h.of_current hrecord hworld h.position (fun _ hrec => hrec) (.inl rfl)

theorem Working.poll {tp : TopicPartition} (h : Working d env asked s session)
    (hs : session.poll s.log tp = some session') : Working d env asked s session' := by
  unfold KafkaSession.poll at hs
  obtain ⟨-, hs⟩ := Option.ite_none_right_eq_some.mp hs
  obtain ⟨payload, hpayload, rfl⟩ := Option.map_eq_some_iff.mp hs
  refine ⟨fun tp' => ?_, fun rec hrec => ?_, h.meets⟩
  · simp only [Function.update_apply]
    split
    · exact Int.le_add_one (h.position tp)
    · exact h.position tp'
  · have hrec : rec ∈ session.inHand ++ [⟨payload, tp.1, tp.2, session.position tp⟩] := by
      simpa only [KafkaSession.inHand, List.append_assoc] using hrec
    rcases List.mem_append.mp hrec with hrec | hrec
    · exact h.logged rec hrec
    · obtain rfl := List.mem_singleton.mp hrec
      show KafkaState.record s tp (session.position tp) = _
      rw [KafkaState.record, if_pos (h.position tp), hpayload]
      rfl

theorem Working.take (h : Working d env asked s session)
    (hs : session.take d.mq env = some session') : Working d env asked s session' := by
  unfold KafkaSession.take at hs
  split at hs
  · next rec channel hcurrent hchannel =>
    obtain rfl := Option.some.inj hs
    refine ⟨h.position, fun rec' hrec' => h.logged rec' ?_, fun rec' p hp => ?_⟩
    · simpa [KafkaSession.inHand, hcurrent, hchannel] using hrec'
    · cases hp
      exact handleRecord_meets
  · cases hs

theorem Stores.work {o : Outcome} {rec : OwnedRecord} {w : World Bytes}
    {p p' : Program Op (Except RecordError Unit)} (h : Stores d env asked s)
    (hsession : s.session = some session) (hcurrent : session.current = some (rec, p))
    (hs : Program.step (exec d o) p s.world = some (p', w)) : Stores d env asked
      { s with world := w, session := some { session with current := some (rec, p') } } := by
  have hworking := h.session session hsession
  have hlogged : s.Logged rec := hworking.logged rec (by simp [KafkaSession.inHand, hcurrent])
  obtain ⟨hcollects, hmeets⟩ := (hworking.meets rec p hcurrent).step hs
  refine ⟨h.committed, h.inFlight, ?_, fun tp o ho => ?_, fun r hr => ?_⟩
  · rintro _ ⟨rfl⟩
    refine ⟨hworking.position, fun rec' hrec' => hworking.logged rec' ?_, fun rec' q hq => ?_⟩
    · simpa [KafkaSession.inHand, hcurrent] using hrec'
    · cases hq
      exact hmeets
  · obtain ⟨rec', hrec', hstored⟩ := h.handled tp o ho
    exact ⟨rec', hrec', fun hcounter => (hstored hcounter).mono hcollects⟩
  · rcases hcollects.new r hr with hold | hasks
    · exact h.origin r hold
    · exact .inr ⟨rec, hlogged, hasks⟩

theorem Stores.finish {sent : Bool} {rec : OwnedRecord} {res : Except RecordError Unit}
    {p : Program Op (Except RecordError Unit)} (h : Stores d env asked s)
    (hsession : s.session = some session) (hcurrent : session.current = some (rec, p))
    (hres : p.result = some res) : Stores d env asked (s.finish sent session rec res) := by
  have hworking := h.session session hsession
  have hlogged : s.Logged rec := hworking.logged rec (by simp [KafkaSession.inHand, hcurrent])
  have hpromise := (hworking.meets rec p hcurrent).result hres
  have idle : ∀ {s' : KafkaState Bytes} {failed : List (TopicPartition × Int)},
      (∀ tp o rec, s.record tp o = some rec → s'.record tp o = some rec) → s'.world = s.world →
      Working d env asked s' { session with current := none, failed } := by
    intro s' failed hrecord hworld
    refine hworking.of_current hrecord hworld hworking.position (fun rec' hrec' => ?_) (.inr rfl)
    have hrec' : rec' ∈ session.channel := hrec'
    simp [KafkaSession.inHand, hrec']
  cases res with
  | error e =>
    refine h.of_session (fun _ _ _ hrec => hrec) rfl rfl h.committed h.inFlight ?_
    rintro _ ⟨rfl⟩
    exact idle (fun _ _ _ hrec => hrec) rfl
  | ok _ =>
    refine ⟨h.committed, fun tp c hc => ?_, ?_, fun tp o ho => ?_, h.origin⟩
    · have hc : (tp, c) ∈ s.inFlight ∨ (tp, c) = (rec.topicPartition, rec.offset + 1) := by
        cases sent with
        | false => exact .inl hc
        | true => simpa [KafkaState.finish] using hc
      rcases hc with hc | hc
      · exact h.inFlight tp c hc
      · cases hc
        exact Int.le_add_one (Option.ite_none_right_eq_some.mp hlogged).1
    · rintro _ ⟨rfl⟩
      exact idle (fun _ _ _ hrec => hrec) rfl
    · rcases List.mem_append.mp ho with ho | ho
      · exact h.handled tp o ho
      · cases List.mem_singleton.mp ho
        exact ⟨rec, hlogged, hpromise rfl⟩

theorem Stores.step {l : KafkaLabel Bytes} (h : Stores d env asked s)
    (hl : ∀ w, l = .interfere w → s.world.Collects asked w)
    (hs : (kafkaSystem d env).step s l = some s') : Stores d env asked s' := by
  cases l with
  | produce tp payload =>
    obtain rfl := Option.some.inj hs
    have hrecord : ∀ tp' o rec, s.record tp' o = some rec → KafkaState.record
        { s with log := Function.update s.log tp (s.log tp ++ [payload]) } tp' o = some rec :=
      fun _ _ _ hrec => KafkaState.record_produce tp payload hrec
    exact h.of_session hrecord rfl rfl h.committed h.inFlight
      fun session hsession => (h.session session hsession).same hrecord rfl
  | subscribe =>
    obtain ⟨-, hs⟩ := Option.ite_none_right_eq_some.mp hs
    obtain rfl := Option.some.inj hs
    refine h.of_session (fun _ _ _ hrec => hrec) rfl rfl h.committed h.inFlight ?_
    rintro _ ⟨rfl⟩
    exact ⟨h.committed, fun rec hrec => absurd hrec List.not_mem_nil, nofun⟩
  | poll tp =>
    obtain ⟨session', hpoll, rfl⟩ := Option.map_eq_some_iff.mp hs
    obtain ⟨session, hsession, hpoll⟩ := Option.bind_eq_some_iff.mp hpoll
    refine h.of_session (fun _ _ _ hrec => hrec) rfl rfl h.committed h.inFlight ?_
    rintro _ ⟨rfl⟩
    exact ((h.session session hsession).poll hpoll).same (fun _ _ _ hrec => hrec) rfl
  | close =>
    obtain ⟨session, hsession, rfl⟩ := Option.map_eq_some_iff.mp hs
    refine h.of_session (fun _ _ _ hrec => hrec) rfl rfl h.committed h.inFlight ?_
    rintro _ ⟨rfl⟩
    have hworking := h.session session hsession
    exact hworking.of_current (fun _ _ _ hrec => hrec) rfl hworking.position
      (fun _ hrec => hrec) (.inl rfl)
  | take =>
    obtain ⟨session', htake, rfl⟩ := Option.map_eq_some_iff.mp hs
    obtain ⟨session, hsession, htake⟩ := Option.bind_eq_some_iff.mp htake
    refine h.of_session (fun _ _ _ hrec => hrec) rfl rfl h.committed h.inFlight ?_
    rintro _ ⟨rfl⟩
    exact ((h.session session hsession).take htake).same (fun _ _ _ hrec => hrec) rfl
  | work o =>
    obtain ⟨session, hsession, hs⟩ := Option.bind_eq_some_iff.mp hs
    obtain ⟨⟨rec, p⟩, hcurrent, hs⟩ := Option.bind_eq_some_iff.mp hs
    obtain ⟨⟨p', world⟩, hstep, rfl⟩ := Option.map_eq_some_iff.mp hs
    exact h.work hsession hcurrent hstep
  | finish sent =>
    obtain ⟨session, hsession, hs⟩ := Option.bind_eq_some_iff.mp hs
    obtain ⟨⟨rec, p⟩, hcurrent, hs⟩ := Option.bind_eq_some_iff.mp hs
    obtain ⟨res, hres, rfl⟩ := Option.map_eq_some_iff.mp hs
    exact h.finish hsession hcurrent hres
  | stop =>
    obtain ⟨session, hsession, hs⟩ := Option.bind_eq_some_iff.mp hs
    obtain ⟨-, hs⟩ := Option.ite_none_right_eq_some.mp hs
    obtain rfl := Option.some.inj hs
    exact h.of_session (fun _ _ _ hrec => hrec) rfl rfl h.committed h.inFlight nofun
  | arrive i =>
    obtain ⟨⟨tp, c⟩, hi, rfl⟩ := Option.map_eq_some_iff.mp hs
    refine h.of_session (fun _ _ _ hrec => hrec) rfl rfl (fun tp' => ?_)
      (fun tp' c' hc => h.inFlight tp' c' (List.mem_of_mem_eraseIdx hc))
      fun session hsession => (h.session session hsession).same (fun _ _ _ hrec => hrec) rfl
    simp only [Function.update_apply]
    split
    · exact h.inFlight _ c (List.mem_of_getElem? hi)
    · exact h.committed tp'
  | lose i =>
    obtain rfl := Option.some.inj hs
    exact h.of_session (fun _ _ _ hrec => hrec) rfl rfl h.committed
      (fun tp c hc => h.inFlight tp c (List.mem_of_mem_eraseIdx hc))
      fun session hsession => (h.session session hsession).same (fun _ _ _ hrec => hrec) rfl
  | crash =>
    obtain rfl := Option.some.inj hs
    exact h.of_session (fun _ _ _ hrec => hrec) rfl rfl h.committed h.inFlight nofun
  | interfere world =>
    obtain rfl := Option.some.inj hs
    exact h.others (hl world rfl)

theorem Stores.beside {w : World Bytes} (h : Stores d env asked s)
    (hw : s.world.Collects asked w) (l : ServiceLabel) :
    Stores d env asked (s.beside w l) := by
  have hothers := h.others hw
  cases l with
  | crash =>
    exact hothers.of_session (fun _ _ _ hrec => hrec) rfl rfl h.committed h.inFlight nofun
  | _ => exact hothers

theorem Inv.beside {w : World Bytes} (h : Inv s) (l : ServiceLabel) : Inv (s.beside w l) := by
  cases l with
  | crash => exact h.of_session rfl (List.Subset.refl _) rfl nofun
  | _ => exact h.of_session rfl (List.Subset.refl _) rfl h.session

end Kafka

/-- The API is asked for nothing but this, and no success of the consumer follows an unhandled
failure of its partition. -/
def Serving (asked : Request → Prop) (s : ServerState Bytes) : ServerLabel Bytes → Prop
  | .service (.request r) => asked r
  | .service _ => True
  | .kafka l => Gapless s.kafka l

namespace Server

variable {d : Deployment Bytes} {env : EventEnv} {asked : Request → Prop}
  {s t : ServerState Bytes} {l : ServerLabel Bytes}

structure Inv (d : Deployment Bytes) (env : EventEnv) (asked : Request → Prop)
    (s : ServerState Bytes) : Prop where
  world : s.kafka.world = s.service.world
  asks : s.service.Asks d asked
  kafka : Kafka.Inv s.kafka
  stores : Kafka.Stores d env asked s.kafka

theorem inv_init (h : (serverSystem d env).init s) : Inv d env asked s := by
  obtain ⟨⟨htable, -, -, -, hcalls, hdeliveries, htasks, hsweep⟩,
    ⟨hcommitted, hinFlight, hsession, hhandled⟩, hworld⟩ := h
  refine ⟨hworld, ⟨?_, ?_, ?_, hsweep ▸ onlyAsks_bootSweep⟩, ⟨?_, ?_, ?_⟩,
    ⟨?_, ?_, ?_, ?_, ?_⟩⟩
  · simp [hcalls]
  · simp [hdeliveries]
  · simp [htasks]
  · intro tp o ho hlt
    rw [hcommitted] at hlt
    exact absurd hlt (Int.not_lt.mpr ho)
  · simp [hinFlight]
  · simp [hsession]
  · simp [hcommitted]
  · simp [hinFlight]
  · simp [hsession]
  · simp [hhandled]
  · intro r hr
    rw [World.contents, hworld, htable] at hr
    cases hr

theorem inv_step (h : Inv d env asked s) (hok : Serving asked s l)
    (hs : (serverSystem d env).step s l = some t) : Inv d env asked t := by
  cases l with
  | service l =>
    obtain ⟨service, hstep, rfl⟩ := Option.map_eq_some_iff.mp hs
    obtain ⟨hcollects, hasks⟩ := h.asks.step (fun r hr => by subst hr; exact hok) hstep
    refine ⟨by cases l <;> rfl, hasks, h.kafka.beside l, h.stores.beside ?_ l⟩
    rw [h.world]
    exact hcollects
  | kafka l =>
    have hne : ∀ w, l ≠ .interfere w := by
      rintro w rfl
      cases hs
    obtain ⟨kafka, hstep, rfl⟩ : ∃ kafka, (kafkaSystem d env).step s.kafka l = some kafka ∧
        ⟨{ s.service with world := kafka.world }, kafka⟩ = t := by
      cases l with
      | interfere w => exact absurd rfl (hne w)
      | _ => exact Option.map_eq_some_iff.mp hs
    exact ⟨rfl, ⟨h.asks.calls, h.asks.deliveries, h.asks.tasks, h.asks.sweep⟩,
      Kafka.inv_step h.kafka hok hstep, h.stores.step (fun w hw => absurd hw (hne w)) hstep⟩

theorem inv_reachable (h : (serverSystem d env).Reachable (Serving asked) s) :
    Inv d env asked s :=
  h.invariant (fun _ => inv_init) fun _ _ _ hinv hok hs => inv_step hinv hok hs

end Server

/-- `n` is the one row with the key of what `rec` queues. It says what the record says, unless
the API or another record has used the key. -/
structure RowOf (asked : Request → Prop) (env : EventEnv) (s : KafkaState Bytes)
    (rec : OwnedRecord) (q : Queued) (n : Notification) : Prop where
  mem : n ∈ s.world.table.rows
  key : n.idempotencyKey = some ((rec.ctx env).idem q.label)
  only : ∀ m ∈ s.world.table.rows, m.idempotencyKey = n.idempotencyKey → m = n
  content : n.request = q.request (rec.ctx env) ∨ asked n.request ∨
    ∃ other, other ≠ rec ∧ s.Logged other ∧ n.request ∈ other.requests env

theorem OwnedRecord.request_of_key {env : EventEnv} {rec : OwnedRecord} {q : Queued} {r : Request}
    (hq : q ∈ rec.queued env) (hr : r ∈ rec.requests env)
    (hkey : r.idempotencyKey = some ((rec.ctx env).idem q.label)) :
    r = q.request (rec.ctx env) := by
  obtain ⟨q', hq', rfl⟩ := List.mem_map.mp hr
  obtain rfl := List.inj_on_of_nodup_map (rec.nodup_keys env) hq' hq (Option.some.inj hkey)
  rfl

/-- Whatever fails, comes again or runs beside it: below the committed offset, everything that
a record queues is stored in one row. -/
theorem records_stored_once (d : Deployment Bytes) (env : EventEnv) (asked : Request → Prop)
    (s : ServerState Bytes) (h : (serverSystem d env).Reachable (Serving asked) s)
    {tp : TopicPartition} {o : Int} (ho : 0 ≤ o) (hlt : o < s.kafka.committed tp) :
    ∃ rec, s.kafka.record tp o = some rec ∧ (rec.counter env = none →
      ∀ q ∈ rec.queued env, ∃ n, RowOf asked env s.kafka rec q n) := by
  have hinv := Server.inv_reachable h
  obtain ⟨rec, hrec, hstored⟩ := hinv.stores.handled tp o (hinv.kafka.committed tp o ho hlt)
  refine ⟨rec, hrec, fun hcounter q hq => ?_⟩
  obtain ⟨r, hr, hkey⟩ := List.mem_map.mp (hstored hcounter q hq)
  obtain ⟨n, hn, rfl⟩ := List.mem_map.mp hr
  refine ⟨n, hn, hkey, fun m hm hmn => ?_, ?_⟩
  · exact s.kafka.world.table.keysUnique m hm n hn _ (hmn.trans hkey) hkey
  · rcases hinv.stores.origin n.request hr with hasked | ⟨other, hother, hasks⟩
    · exact .inr (.inl hasked)
    · by_cases hsame : other = rec
      · exact .inl (OwnedRecord.request_of_key hq (hsame ▸ hasks) hkey)
      · exact .inr (.inr ⟨other, hsame, hother, hasks⟩)

/-- The first handling stores one of two rows and fails; the session is lost and the next one
reads the record again. -/
theorem records_stored_once_redelivered : ∃ s : ServerState NotificationTask,
    (serverSystem (.plain true) .accountEvents).Reachable (Serving fun _ => False) s ∧
      s.kafka.committed ("iam.user.events", 0) = 1 ∧
      ∃ rec, s.kafka.record ("iam.user.events", 0) 0 = some rec ∧
        (rec.counter .accountEvents = none → ∀ q ∈ rec.queued .accountEvents,
          ∃ n, RowOf (fun _ => False) .accountEvents s.kafka rec q n) := by
  let read : List (ServerLabel NotificationTask) :=
    [.kafka .subscribe, .kafka (.poll ("iam.user.events", 0)), .kafka .take]
  let work (script : List Outcome) : List (ServerLabel NotificationTask) :=
    script.map (.kafka ∘ .work) ++ [.kafka (.finish true)]
  let check (s : ServerState NotificationTask) : ServerLabel NotificationTask → Bool
    | .service (.request _) => false
    | .service _ => true
    | .kafka _ => s.kafka.session.all fun session => session.failed.isEmpty
  have hcheck : ∀ s l, check s l = true → Serving (fun _ => False) s l := by
    intro s l hl
    cases l with
    | service l =>
      cases l with
      | request r => exact absurd hl Bool.false_ne_true
      | _ => trivial
    | kafka l =>
      cases l with
      | finish sent =>
        intro session rec hsession _ o _ _ ho
        simp only [check, hsession, Option.all_some, List.isEmpty_iff] at hl
        rw [hl] at ho
        cases ho
      | _ => trivial
  have hrun : ((serverSystem (.plain true) .accountEvents).runWhen check
      ⟨.start true, KafkaState.start⟩ (.kafka (.produce ("iam.user.events", 0)
          (some unlinkedPayload)) :: read ++
        work (creating ⟨1⟩ ++ [.fresh ⟨2⟩, .ok, .ok, .ok, .fail (.database "reset")]) ++
        [.service .crash] ++ read ++
        work (.fresh ⟨3⟩ :: List.replicate 4 .ok ++ creating ⟨4⟩) ++
        [.kafka (.arrive 0)])).map (fun s => s.kafka.committed ("iam.user.events", 0)) =
      some 1 := by decide +kernel
  obtain ⟨s, hs, hcommitted⟩ := Option.map_eq_some_iff.mp hrun
  have hinit : (serverSystem (.plain true) .accountEvents).init
      ⟨.start true, KafkaState.start⟩ :=
    ⟨⟨rfl, rfl, rfl, rfl, rfl, rfl, rfl, rfl⟩, ⟨rfl, rfl, rfl, rfl⟩, rfl⟩
  have reach := (System.Reachable.start hinit).runWhen hcheck hs
  exact ⟨s, reach, hcommitted, records_stored_once (.plain true) .accountEvents _ s reach
    (Int.le_refl 0) (by rw [hcommitted]; decide)⟩

end NotiService
