import NotiService.Foundation.Text
import NotiService.Recovery
import NotiService.UuidText

/-! `send_notification` of the gRPC service: the caller is authenticated, each field of the
request is parsed or defaulted, and the result is queued. -/

namespace NotiService
open Foundation Orchestrator NotificationTable

structure SendNotificationRequest where
  userId : String
  channel : Int
  recipient : String
  templateId : String
  variablesJson : String
  idempotencyKey : String
deriving DecidableEq, Repr

structure NotificationResponse where
  notificationId : String
  status : String
deriving DecidableEq, Repr

inductive ConnectError where
  | unauthenticated (text : String)
  | invalidArgument (text : String)
  | internal (text : String)
deriving DecidableEq, Repr

/-- The secret, and the libraries: the subject of a token that `jsonwebtoken` accepts,
`Uuid::parse_str` and `serde_json::from_str`. -/
structure GrpcEnv where
  jwtSecret : String
  decode : String → String → Except String String
  parseStr : String → Except String Uuid
  fromStr : String → Except String Json

namespace Grpc

/-- The token behind `Bearer `, if that is there. -/
def bearer (header : String) : String :=
  let scheme := "Bearer ".toList
  String.ofList (Text.trim (if scheme.isPrefixOf header.toList then
    header.toList.drop scheme.length else header.toList))

variable (env : GrpcEnv)

/-- `header` is the `authorization` header, if it is there and is text. -/
def authenticate (header : Option String) : Except ConnectError String :=
  match header with
  | none => .error (.unauthenticated "missing authorization header")
  | some header =>
    if bearer header = "" then .error (.unauthenticated "empty bearer token")
    else (env.decode env.jwtSecret (bearer header)).mapError fun _ =>
      .unauthenticated "invalid or expired token"

/-- The numbers of `Channel`. -/
def knownChannel (number : Int) : Option NotificationChannel :=
  if number = 0 then some .email
  else if number = 1 then some .sms
  else if number = 2 then some .push
  else if number = 3 then some .webhook
  else if number = 4 then some .webSocket
  else none

/-- The match on `request.channel`, with its last arm for every other number. -/
def channel (number : Int) : NotificationChannel := (knownChannel number).getD .email

def userId (text : String) : Except ConnectError (Option Uuid) :=
  if text = "" then .ok none
  else ((env.parseStr text).mapError .invalidArgument).map some

def idempotencyKey (text : String) : Option String := if text = "" then none else some text

def vars (text : String) : Except ConnectError Json :=
  if text = "" then .ok (.obj [])
  else (env.fromStr text).mapError fun e =>
    .invalidArgument ("variables_json must be valid JSON: " ++ e)

def translate (r : SendNotificationRequest) : Except ConnectError Request := do
  let channel := channel r.channel
  let userId ← userId env r.userId
  let idempotencyKey := idempotencyKey r.idempotencyKey
  let vars ← vars env r.variablesJson
  return ⟨userId, channel, r.recipient, r.templateId, vars, idempotencyKey⟩

def answer : Except NotiError Uuid → Except ConnectError NotificationResponse
  | .ok id => .ok ⟨id.toString, "accepted"⟩
  | .error e => .error (.internal e.toString)

def sendNotification (mq : Bool) (header : Option String) (r : SendNotificationRequest) :
    Program Op (Except ConnectError NotificationResponse) :=
  match authenticate env header with
  | .error e => .done (.error e)
  | .ok _ =>
    match translate env r with
    | .error e => .done (.error e)
    | .ok request => (request.prog mq).map answer

end Grpc

structure Translates (env : GrpcEnv) (r : SendNotificationRequest) (channel : NotificationChannel)
    (row : Notification) : Prop where
  channel : row.channel = channel
  userId : (r.userId = "" ∧ row.userId = none) ∨
    (r.userId ≠ "" ∧ ∃ user, env.parseStr r.userId = .ok user ∧ row.userId = some user)
  recipient : row.recipient = r.recipient
  templateId : row.templateId = r.templateId
  idempotencyKey : (r.idempotencyKey = "" ∧ row.idempotencyKey = none) ∨
    (r.idempotencyKey ≠ "" ∧ row.idempotencyKey = some r.idempotencyKey)
  vars : (r.variablesJson = "" ∧ row.vars = .obj []) ∨
    (r.variablesJson ≠ "" ∧ env.fromStr r.variablesJson = .ok row.vars)

def NotificationTable.Unused (t : NotificationTable) (key : String) : Prop :=
  ∀ m ∈ t.rows, m.idempotencyKey ≠ some key

def NotificationTable.Gains (t t' : NotificationTable) (r : Request) (row : Notification) : Prop :=
  t'.rows = t.rows ++ [row] ∧ (∀ key, r.idempotencyKey = some key → t.Unused key) ∧
    ∃ id nextRetryAt createdAt updatedAt,
      row = insertedRow (r.notification id nextRetryAt createdAt updatedAt)

section Queue

variable {Bytes : Type} {d : Deployment Bytes} {t : NotificationTable} {r : Request} {lost : Prop}

/-- What `queue_notification` has done to the table `t` where it stands at `pc`; `lost` says
that the answer to a statement has been lost. -/
def Wrote (t : NotificationTable) (r : Request) (lost : Prop) (w : World Bytes) :
    QueuePc → Prop
  | .ident => w.table = t
  | .clock id | .clock₂ id _ | .clock₃ id _ _ => w.table = t ∧ t.getById id = none
  | .create n => w.table = t ∧ t.getById n.id = none ∧
      ∃ id nextRetryAt createdAt updatedAt, n = r.notification id nextRetryAt createdAt updatedAt
  | .cache id _ | .trigger id _ => ∃ row, t.Gains w.table r row ∧ row.id = id
  | .done (.ok id) => (∃ row, t.Gains w.table r row ∧ row.id = id) ∨
      (w.table = t ∧ ∃ key, r.idempotencyKey = some key ∧ ¬ t.Unused key)
  | .done (.error _) => w.table = t ∨ (lost ∧ ∃ row, t.Gains w.table r row)

theorem create_gains {n row : Notification} {table : NotificationTable}
    {id : Uuid} {nextRetryAt createdAt updatedAt : Int} (hid : t.getById n.id = none)
    (hn : n = r.notification id nextRetryAt createdAt updatedAt)
    (hc : t.create n = .ok (row, table)) :
    (t.Gains table r row ∧ row.id = n.id) ∨
      (table = t ∧ row.id ≠ n.id ∧ ∃ key, r.idempotencyKey = some key ∧ ¬ t.Unused key) := by
  subst hn
  rcases create_cases t (r.notification id nextRetryAt createdAt updatedAt) with
    ⟨key, existing, hkey, hmem, hexisting, hc'⟩ | ⟨hfresh, -, t', hc', hrows, -⟩ | ⟨hused, -⟩
  · cases hc.symm.trans hc'
    refine .inr ⟨rfl, fun heq => ?_, key, hkey, fun hunused => hunused _ hmem hexisting⟩
    rw [← heq, mem_rows_iff.mp hmem] at hid
    cases hid
  · cases hc.symm.trans hc'
    exact .inl ⟨⟨hrows, fun key hkey m hm => hfresh m hm key hkey, _, _, _, _, rfl⟩, rfl⟩
  · exact absurd hid hused

theorem wrote_step {o : Outcome} {w w' : World Bytes} {pc pc' : QueuePc}
    (hs : QueueStep d r o w pc w' pc') (hlost : ∀ e, o = .failAfter e → lost)
    (h : Wrote t r lost w pc) : Wrote t r lost w' pc' := by
  cases hs with
  | ident _ hnone => exact ⟨h, h ▸ hnone⟩
  | clock | clock₂ => exact h
  | clock₃ => exact ⟨h.1, h.2, _, _, _, _, rfl⟩
  | @create _ n row table hc =>
    obtain ⟨rfl, hid, _, _, _, _, hn⟩ := h
    rcases create_gains hid hn hc with ⟨hgains, hsame⟩ | ⟨rfl, hother, hused⟩
    · rw [QueuePc.afterCreate, if_pos hsame]
      cases n.idempotencyKey <;> exact ⟨row, hgains, rfl⟩
    · rw [QueuePc.afterCreate_other hother]
      exact .inr ⟨rfl, hused⟩
  | @createFail _ _ n row table e _ hc hf =>
    obtain ⟨rfl, hid, _, _, _, _, hn⟩ := h
    cases hf with
    | before => exact .inl rfl
    | after =>
      rcases create_gains hid hn hc with ⟨hgains, -⟩ | ⟨rfl, -, -⟩
      · exact .inr ⟨hlost e rfl, row, hgains⟩
      · exact .inl rfl
  | createRefused => exact .inl h.1
  | cache => exact h
  | trigger ht =>
    obtain ⟨row, hgains, hrow⟩ := h
    exact ⟨row, ht.table_eq ▸ hgains, hrow⟩

theorem wrote_play {script : List (Nat × Outcome)} {w w' : World Bytes}
    {result : Except NotiError Uuid}
    (h : Program.play (execAfter d) (r.prog d.mq) script w = some (result, w')) :
    Wrote w.table r (∃ i ∈ script, ∃ e, i.2 = .failAfter e) w' (.done result) := by
  let lost := ∃ i ∈ script, ∃ e, i.2 = Outcome.failAfter e
  have hlost : ∀ i ∈ script, ∀ e, i.2 = .failAfter e → lost := fun i hi e he => ⟨i, hi, e, he⟩
  have hplay : Program.play (execAfter d) (QueuePc.ident.prog d.mq r) script w =
    some (result, w') := h
  refine Program.play_points (P := Wrote w.table r lost)
    (Q := fun w₁ result => Wrote w.table r lost w₁ (.done result)) (execAfter d) ?_ ?_ hlost
    (show Wrote w.table r lost w .ident from rfl) hplay
  · intro i pc w₁ p w₂ hlost hw hs
    rw [step_execAfter] at hs
    obtain ⟨pc', rfl, hstep⟩ := queueStep_of_step hs
    exact ⟨pc', rfl, wrote_step hstep hlost (show Wrote w.table r lost (w₁.tick i.1) pc from hw)⟩
  · intro pc w₁ value hw hprog
    rcases QueuePc.of_isDone d.mq r (by rw [hprog]; rfl) with ⟨result', rfl⟩ | ⟨id, rfl⟩
    · cases hprog
      exact hw
    · cases hprog
      exact .inl hw

end Queue

namespace Grpc

variable {env : GrpcEnv} {text : String}

theorem userId_eq_ok {user : Option Uuid} (h : userId env text = .ok user) :
    (text = "" ∧ user = none) ∨
      (text ≠ "" ∧ ∃ u, env.parseStr text = .ok u ∧ user = some u) := by
  unfold userId at h
  split at h
  · next hempty =>
    cases h
    exact .inl ⟨hempty, rfl⟩
  · next hempty =>
    cases hparse : env.parseStr text with
    | error e => rw [hparse] at h; cases h
    | ok u =>
      rw [hparse] at h
      cases h
      exact .inr ⟨hempty, u, rfl, rfl⟩

theorem idempotencyKey_cases (text : String) : (text = "" ∧ idempotencyKey text = none) ∨
    (text ≠ "" ∧ idempotencyKey text = some text) := by
  unfold idempotencyKey
  by_cases hempty : text = "" <;> simp [hempty]

theorem vars_eq_ok {vars : Json} (h : Grpc.vars env text = .ok vars) :
    (text = "" ∧ vars = .obj []) ∨ (text ≠ "" ∧ env.fromStr text = .ok vars) := by
  unfold Grpc.vars at h
  split at h
  · next hempty =>
    cases h
    exact .inl ⟨hempty, rfl⟩
  · next hempty =>
    cases hread : env.fromStr text with
    | error e => rw [hread] at h; cases h
    | ok value =>
      rw [hread] at h
      cases h
      exact .inr ⟨hempty, rfl⟩

end Grpc

theorem Grpc.translate_eq_ok {env : GrpcEnv} {r : SendNotificationRequest} {request : Request}
    (h : translate env r = .ok request) :
    ∃ user vars, userId env r.userId = .ok user ∧ Grpc.vars env r.variablesJson = .ok vars ∧
      request = ⟨user, channel r.channel, r.recipient, r.templateId, vars,
        idempotencyKey r.idempotencyKey⟩ := by
  unfold translate at h
  cases huser : userId env r.userId with
  | error e => rw [huser] at h; cases h
  | ok user =>
    cases hvars : Grpc.vars env r.variablesJson with
    | error e => rw [huser, hvars] at h; cases h
    | ok vars =>
      rw [huser, hvars] at h
      exact ⟨user, vars, rfl, rfl, (Except.ok.inj h).symm⟩

theorem translates_of_gains {env : GrpcEnv} {r : SendNotificationRequest} {request : Request}
    {t t' : NotificationTable} {row : Notification} (hr : Grpc.translate env r = .ok request)
    (h : t.Gains t' request row) : Translates env r (Grpc.channel r.channel) row := by
  obtain ⟨-, -, id, nextRetryAt, createdAt, updatedAt, rfl⟩ := h
  obtain ⟨user, vars, huser, hvars, rfl⟩ := Grpc.translate_eq_ok hr
  exact ⟨rfl, Grpc.userId_eq_ok huser, rfl, rfl, Grpc.idempotencyKey_cases _,
    Grpc.vars_eq_ok hvars⟩

theorem key_of_translate {env : GrpcEnv} {r : SendNotificationRequest} {request : Request}
    {key : String} (hr : Grpc.translate env r = .ok request) :
    request.idempotencyKey = some key ↔ r.idempotencyKey ≠ "" ∧ key = r.idempotencyKey := by
  obtain ⟨user, vars, -, -, rfl⟩ := Grpc.translate_eq_ok hr
  change Grpc.idempotencyKey r.idempotencyKey = some key ↔ _
  rcases Grpc.idempotencyKey_cases r.idempotencyKey with ⟨hempty, hkey⟩ | ⟨hne, hkey⟩
  · rw [hkey]
    exact iff_of_false nofun fun h => h.1 hempty
  · rw [hkey, Option.some.injEq]
    exact ⟨fun h => ⟨hne, h.symm⟩, fun h => h.2.symm⟩

/-- An error leaves the table alone, unless the answer of the INSERT was lost; an accepted
request with an unused key or none has created one row, which says what the request says, and
one with a used key nothing. A channel number outside the enum is taken as `Email`. -/
theorem send_notification_translates {Bytes : Type} {env : GrpcEnv} {d : Deployment Bytes}
    {header : Option String} {r : SendNotificationRequest} {script : List (Nat × Outcome)}
    {w w' : World Bytes} {response : Except ConnectError NotificationResponse}
    (h : Program.play (execAfter d) (Grpc.sendNotification env d.mq header r) script w =
      some (response, w')) :
    match response with
    | .error _ => w'.table = w.table ∨ ((∃ i ∈ script, ∃ e, i.2 = .failAfter e) ∧
        ∃ row, w'.table.rows = w.table.rows ++ [row] ∧
          Translates env r ((Grpc.knownChannel r.channel).getD .email) row)
    | .ok accepted =>
      (r.idempotencyKey = "" ∨ w.table.Unused r.idempotencyKey →
        ∃ row, w'.table.rows = w.table.rows ++ [row] ∧
          accepted = ⟨row.id.toString, "accepted"⟩ ∧
          Translates env r ((Grpc.knownChannel r.channel).getD .email) row) ∧
      (r.idempotencyKey ≠ "" → ¬ w.table.Unused r.idempotencyKey → w'.table = w.table) := by
  unfold Grpc.sendNotification at h
  split at h
  · obtain ⟨-, rfl, rfl⟩ := (Program.play_done_eq_some _).mp h
    exact .inl rfl
  · split at h
    · obtain ⟨-, rfl, rfl⟩ := (Program.play_done_eq_some _).mp h
      exact .inl rfl
    · next request hrequest =>
      obtain ⟨result, rfl, hplay⟩ := Program.play_map_eq_some _ h
      have hwrote := wrote_play hplay
      cases result with
      | error e =>
        rcases hwrote with hsame | ⟨hlost, row, hgains⟩
        · exact .inl hsame
        · exact .inr ⟨hlost, row, hgains.1, translates_of_gains hrequest hgains⟩
      | ok id =>
        rcases hwrote with ⟨row, hgains, rfl⟩ | ⟨hsame, key, hkey, hused⟩
        · refine ⟨fun _ => ⟨row, hgains.1, rfl, translates_of_gains hrequest hgains⟩,
            fun hne hused => absurd (hgains.2.1 _ ?_) hused⟩
          exact (key_of_translate hrequest).mpr ⟨hne, rfl⟩
        · obtain ⟨hne, rfl⟩ := (key_of_translate hrequest).mp hkey
          exact ⟨fun hfree => absurd (hfree.resolve_left hne) hused, fun _ _ => hsame⟩

/-- Libraries that accept one token, canonical ids and one object. -/
def sampleGrpc : GrpcEnv where
  jwtSecret := "secret"
  decode secret token :=
    if secret = "secret" ∧ token = "token" then .ok "caller" else .error "InvalidToken"
  parseStr text :=
    if (Uuid.read text).toString = text then .ok (Uuid.read text) else .error "invalid length"
  fromStr text :=
    if text = "\x7b\"code\":\"42\"\x7d" then .ok (.obj [("code", .str "42")])
    else .error "expected value"

def SendNotificationRequest.to (channel : Int) : SendNotificationRequest :=
  ⟨"", channel, "+15550001111", "order_matched", "", ""⟩

/-- What is claimed of a request from an empty table. -/
def FaithfulOrRejected (r : SendNotificationRequest) : Prop :=
  ∀ script response (w' : World NotificationTask),
    Program.play (execAfter (.plain false)) (Grpc.sendNotification sampleGrpc false
      (some "Bearer token") r) script (.boot 0 .empty) = some (response, w') →
    match response with
    | .error _ => w'.table = .empty
    | .ok _ => ∃ row channel, w'.table.rows = [row] ∧
        Grpc.knownChannel r.channel = some channel ∧ Translates sampleGrpc r channel row

def SendNotificationRequest.full : SendNotificationRequest :=
  ⟨(⟨7⟩ : Uuid).toString, 1, "+15550001111", "order_matched", "\x7b\"code\":\"42\"\x7d", "key"⟩

theorem send_notification_translates_sms : ∃ script response, ∃ w' : World NotificationTask,
    ∃ row, Program.play (execAfter (.plain false)) (Grpc.sendNotification sampleGrpc false
        (some "Bearer token") .full) script (.boot 0 .empty) = some (.ok response, w') ∧
      w'.table.rows = [row] ∧ Translates sampleGrpc .full .sms row := by
  obtain ⟨w', h⟩ : ∃ w', Program.play (execAfter (.plain false)) (Grpc.sendNotification
      sampleGrpc false (some "Bearer token") .full) [(0, .fresh ⟨1⟩), (0, .ok), (0, .ok), (0, .ok),
        (0, .ok), (0, .ok), (0, .ok), (0, .ok)] (.boot 0 .empty) =
      some (.ok ⟨(⟨1⟩ : Uuid).toString, "accepted"⟩, w') := ⟨_, rfl⟩
  have hfree : (World.boot 0 .empty : World NotificationTask).table.Unused "key" :=
    fun _ hm => absurd hm List.not_mem_nil
  obtain ⟨row, hrows, -, htranslates⟩ := (send_notification_translates h).1 (.inr hfree)
  exact ⟨_, _, w', row, h, hrows, htranslates⟩

/-- Channel 7 makes an email; and when the answer to the INSERT is lost, the caller has an error
and the row is there. -/
theorem send_notification_guesses :
    ¬ FaithfulOrRejected (.to 7) ∧ ¬ FaithfulOrRejected (.to 1) := by
  constructor
  · intro h
    obtain ⟨w', hplay⟩ : ∃ w', Program.play (execAfter (.plain false)) (Grpc.sendNotification
        sampleGrpc false (some "Bearer token") (.to 7)) [(0, .fresh ⟨1⟩), (0, .ok), (0, .ok),
          (0, .ok), (0, .ok), (0, .ok), (0, .ok)] (.boot 0 .empty) =
        some (.ok ⟨(⟨1⟩ : Uuid).toString, "accepted"⟩, w') := ⟨_, rfl⟩
    obtain ⟨row, channel, -, hknown, -⟩ := h _ _ _ hplay
    cases hknown
  · intro h
    obtain ⟨w', hplay, hrows⟩ : ∃ w' : World NotificationTask, Program.play
        (execAfter (.plain false)) (Grpc.sendNotification sampleGrpc false (some "Bearer token")
          (.to 1)) [(0, .fresh ⟨1⟩), (0, .ok), (0, .ok), (0, .ok),
          (0, .failAfter (.database "connection lost"))] (.boot 0 .empty) =
        some (.error (.internal "database error: connection lost"), w') ∧
          w'.table.rows ≠ [] := ⟨_, rfl, List.cons_ne_nil _ _⟩
    have hempty := h _ _ _ hplay
    exact hrows (congrArg rows hempty)

end NotiService
