import NotiService.Grpc
import NotiService.Replies

/-! `get_notification_status` of the gRPC service, asked at any time while the service runs:
what it answers is what has been answered to the dispatches of the notification. -/

namespace NotiService
open Foundation Orchestrator NotificationTable

variable {Bytes : Type}

structure GetNotificationStatusRequest where
  notificationId : String
deriving DecidableEq, Repr

structure NotificationStatusResponse where
  notificationId : String
  status : String
  errorMessage : String
  sentAt : String
deriving DecidableEq, Repr

inductive StatusError where
  | connect (e : ConnectError)
  | notFound (text : String)
deriving DecidableEq, Repr

/-- With `DateTime::to_rfc3339`. -/
structure StatusEnv extends GrpcEnv where
  toRfc3339 : Int → String

/-- The derived `Debug`. -/
def NotificationStatus.debug : NotificationStatus → String
  | .pending => "Pending"
  | .processing => "Processing"
  | .sent => "Sent"
  | .delivered => "Delivered"
  | .failed => "Failed"
  | .permanentFailure => "PermanentFailure"

def NotificationStatus.text (status : NotificationStatus) : String :=
  String.ofList (status.debug.toList.map Char.toLower)

theorem NotificationStatus.text_injective : Function.Injective NotificationStatus.text := by
  intro a b h
  cases a <;> cases b <;> first | rfl | exact absurd h (by decide)

namespace Orchestrator

def getStatus (id : Uuid) : Orchestrator (Option Notification) := call (.getById id)

end Orchestrator

namespace Grpc

variable (env : StatusEnv)

def report (n : Notification) : NotificationStatusResponse where
  notificationId := n.id.toString
  status := n.status.text
  errorMessage := n.errorMessage.getD ""
  sentAt := (n.sentAt.map env.toRfc3339).getD ""

def statusAnswer :
    Except NotiError (Option Notification) → Except StatusError NotificationStatusResponse
  | .error e => .error (.connect (.internal e.toString))
  | .ok none => .error (.notFound "Notification not found")
  | .ok (some n) => .ok (report env n)

def getNotificationStatus (header : Option String) (r : GetNotificationStatusRequest) :
    Program Op (Except StatusError NotificationStatusResponse) :=
  match authenticate env.toGrpcEnv header with
  | .error e => .done (.error (.connect e))
  | .ok _ =>
    match env.parseStr r.notificationId with
    | .error e => .done (.error (.connect (.invalidArgument e)))
    | .ok id => (getStatus id).run.map (statusAnswer env)

end Grpc

/-- What an answer says of the notification `n`, by what its dispatches were answered. -/
structure NotificationStatusResponse.Reports (log : List (Uuid × Reply)) (n : Notification)
    (response : NotificationStatusResponse) : Prop where
  notificationId : response.notificationId = n.id.toString
  status : response.status ∈ ["pending", "processing", "sent", "permanentfailure"]
  sent : response.status = "sent" →
    response.errorMessage = "" ∧ ∃ ref, n.providerRef = some ref ∧ AcceptedAs log n ref
  failure : response.status = "permanentfailure" →
    ∃ e : NotiError, response.errorMessage = e.toString ∧ RefusedAs log n e
  errorMessage : response.errorMessage = "" ∨
    ∃ e : NotiError, response.errorMessage = e.toString ∧ RefusedAs log n e
  sentAt : response.sentAt = "" ∨ ∃ ref, AcceptedAs log n ref

theorem Notification.Truthful.report {log : List (Uuid × Reply)} {n : Notification}
    (h : n.Truthful log) (hused : n.status ≠ .delivered ∧ n.status ≠ .failed) (env : StatusEnv) :
    (Grpc.report env n).Reports log n := by
  have named : ∀ status, (Grpc.report env n).status = NotificationStatus.text status →
      n.status = status := fun _ heq => NotificationStatus.text_injective heq
  refine ⟨rfl, ?_, fun hs => ?_, fun hs => ?_, ?_, ?_⟩
  · show n.status.text ∈ _
    cases hstatus : n.status with
    | delivered => exact absurd hstatus hused.1
    | failed => exact absurd hstatus hused.2
    | _ => decide
  · obtain ⟨href, -, herror⟩ := h.sent (named .sent hs)
    obtain ⟨ref, href⟩ := Option.isSome_iff_exists.mp href
    exact ⟨by simp [Grpc.report, herror], ref, href, h.accepted ref href⟩
  · obtain ⟨text, htext⟩ := Option.isSome_iff_exists.mp (h.failure (named .permanentFailure hs))
    obtain ⟨e, rfl, hrefused⟩ := h.refused text htext
    exact ⟨e, by simp [Grpc.report, htext], hrefused⟩
  · cases htext : n.errorMessage with
    | none => exact .inl (by simp [Grpc.report, htext])
    | some text =>
      obtain ⟨e, rfl, hrefused⟩ := h.refused text htext
      exact .inr ⟨e, by simp [Grpc.report, htext], hrefused⟩
  · cases hsent : n.sentAt with
    | none => exact .inl (by simp [Grpc.report, hsent])
    | some t => exact .inr (h.sentAt (by simp [hsent]))

theorem Grpc.getNotificationStatus_cases {env : StatusEnv} {d : Deployment Bytes}
    {header : Option String} {r : GetNotificationStatusRequest} {script : List Outcome}
    {answer : Except StatusError NotificationStatusResponse} {w w' : World Bytes}
    (h : Program.play (exec d) (getNotificationStatus env header r) script w =
      some (answer, w')) :
    w' = w ∧ ((∃ e, answer = .error (.connect e)) ∨
      ∃ caller id, authenticate env.toGrpcEnv header = .ok caller ∧
        env.parseStr r.notificationId = .ok id ∧
        answer = statusAnswer env (.ok (w.table.getById id))) := by
  unfold getNotificationStatus at h
  split at h
  · next e _ =>
    obtain ⟨-, rfl, rfl⟩ := (Program.play_done_eq_some _).mp h
    exact ⟨rfl, .inl ⟨e, rfl⟩⟩
  · next caller hcaller =>
    split at h
    · next e _ =>
      obtain ⟨-, rfl, rfl⟩ := (Program.play_done_eq_some _).mp h
      exact ⟨rfl, .inl ⟨_, rfl⟩⟩
    · next id hid =>
      obtain ⟨result, rfl, hplay⟩ := Program.play_map_eq_some _ h
      obtain ⟨o, rest, row, w₁, rfl, hexec, hplay⟩ := (Program.play_call_eq_some _).mp hplay
      obtain ⟨-, rfl, rfl⟩ := (Program.play_done_eq_some _).mp hplay
      rcases World.answer_eq_some.mp hexec with ⟨-, rfl, rfl⟩ | ⟨e, rfl, hf⟩
      · exact ⟨rfl, .inr ⟨caller, id, hcaller, hid, rfl⟩⟩
      · refine ⟨by cases hf <;> rfl, .inl ⟨_, rfl⟩⟩

/-- Asked in any state the service reaches, with a record of what its dispatches have been
answered: an answer reports on the row by that record, and a notification that was queued is
found. -/
theorem status_truthful {env : StatusEnv} {d : Deployment Bytes} {s : ServiceState Bytes}
    {log : List (Uuid × Reply)} (h : (repliesSystem d).Reachable System.always (s, log))
    {header : Option String} {r : GetNotificationStatusRequest} {script : List Outcome}
    {answer : Except StatusError NotificationStatusResponse} {w : World Bytes}
    (hplay : Program.play (exec d) (Grpc.getNotificationStatus env header r) script s.world =
      some (answer, w)) :
    w = s.world ∧
    (∀ response, answer = .ok response →
      (∃ caller, Grpc.authenticate env.toGrpcEnv header = .ok caller) ∧
      ∃ n ∈ s.world.table.rows, env.parseStr r.notificationId = .ok n.id ∧
        response.Reports log n) ∧
    ∀ text, answer = .error (.notFound text) →
      (∃ caller, Grpc.authenticate env.toGrpcEnv header = .ok caller) ∧
      ∃ id, env.parseStr r.notificationId = .ok id ∧ (id, .queued) ∉ log := by
  obtain ⟨m, rfl, -, hm⟩ := Machine.backed_reachable h
  obtain ⟨hw, ⟨e, rfl⟩ | ⟨caller, id, hcaller, hid, rfl⟩⟩ := Grpc.getNotificationStatus_cases hplay
  · refine ⟨hw, ?_, ?_⟩
    · intro response hresponse
      cases hresponse
    · intro text htext
      cases htext
  · refine ⟨hw, fun response hresponse => ⟨⟨caller, hcaller⟩, ?_⟩,
      fun text htext => ⟨⟨caller, hcaller⟩, id, hid, fun hqueued => ?_⟩⟩
    · cases hn : m.world.table.getById id with
      | none =>
        rw [show (m.state d).world = m.world from rfl, hn] at hresponse
        cases hresponse
      | some n =>
        rw [show (m.state d).world = m.world from rfl, hn] at hresponse
        have hreport : Grpc.report env n = response := Except.ok.inj hresponse
        have hnid := id_of_getById hn
        refine ⟨n, mem_rows_iff.mpr (hnid.symm ▸ hn), hnid.symm ▸ hid, ?_⟩
        exact hreport ▸ (hm.rows id n hn).report (hm.used id n hn) env
    · obtain ⟨n, hn⟩ := hm.queued id hqueued
      rw [show (m.state d).world = m.world from rfl, hn] at htext
      cases htext

def sampleStatus : StatusEnv where
  toGrpcEnv := sampleGrpc
  toRfc3339 t :=
    if t = 120000 then "1970-01-01T00:02:00+00:00" else "1970-01-01T00:00:00+00:00"

theorem parseStr_sampleGrpc (id : Uuid) : sampleGrpc.parseStr id.toString = .ok id := by
  simp [sampleGrpc, Uuid.read_toString]

/-- The provider refuses an email, and takes it two minutes later. -/
def refusedThenSent : List ServiceLabel :=
  [.request Request.sample, .call 0 (.fresh ⟨1⟩), .call 0 .ok, .call 0 .ok, .call 0 .ok,
    .call 0 .ok, .call 0 .ok, .call 0 .ok, .start 0, .task 0 .ok, .task 0 .ok,
    .task 0 (.text "Welcome"), .task 0 (.fail (.provider "greylisted")), .task 0 .ok, .task 0 .ok,
    .task 0 .ok, .task 0 .ok, .tick 120000, .wake 0, .task 1 .ok, .task 1 .ok,
    .task 1 (.text "Welcome"), .task 1 (.text "message-1"), .task 1 .ok]

theorem status_truthful_sent : ∃ (s : ServiceState NotificationTask) (log : List (Uuid × Reply))
    (n : Notification), n ∈ s.world.table.rows ∧ NotificationStatusResponse.Reports log n
      ⟨(⟨1⟩ : Uuid).toString, "sent", "", "1970-01-01T00:02:00+00:00"⟩ := by
  obtain ⟨s, log, hrun, hrow⟩ : ∃ s log, (repliesSystem (.plain false)).run (.start false, [])
      refusedThenSent = some (s, log) ∧ (s.world.table.getById ⟨1⟩).map (Grpc.report sampleStatus) =
        some ⟨(⟨1⟩ : Uuid).toString, "sent", "", "1970-01-01T00:02:00+00:00"⟩ :=
    ⟨_, _, rfl, rfl⟩
  have hreach := (System.Reachable.start (S := repliesSystem (.plain false))
    (s := (.start false, [])) ⟨⟨rfl, rfl, rfl, rfl, rfl, rfl, rfl, rfl⟩, rfl⟩).run hrun
  obtain ⟨n, hn, hreport⟩ := Option.map_eq_some_iff.mp hrow
  have hcall : Grpc.getNotificationStatus sampleStatus (some "Bearer token")
      ⟨(⟨1⟩ : Uuid).toString⟩ = (getStatus ⟨1⟩).run.map (Grpc.statusAnswer sampleStatus) := by
    have hcaller : Grpc.authenticate sampleStatus.toGrpcEnv (some "Bearer token") =
        .ok "caller" := rfl
    have hid : sampleStatus.parseStr (⟨1⟩ : Uuid).toString = .ok ⟨1⟩ := parseStr_sampleGrpc _
    simp only [Grpc.getNotificationStatus, hcaller, hid]
  have hplay : Program.play (exec (.plain false)) (Grpc.getNotificationStatus sampleStatus
      (some "Bearer token") ⟨(⟨1⟩ : Uuid).toString⟩) [.ok] s.world =
      some (.ok ⟨(⟨1⟩ : Uuid).toString, "sent", "", "1970-01-01T00:02:00+00:00"⟩, s.world) := by
    rw [hcall, ← hreport]
    show some (Grpc.statusAnswer sampleStatus (.ok (s.world.table.getById ⟨1⟩)), s.world) = _
    rw [hn]
    rfl
  obtain ⟨-, hanswered, -⟩ := status_truthful hreach hplay
  obtain ⟨-, n', hn', -, hreports⟩ := hanswered _ rfl
  exact ⟨s, log, n', hn', hreports⟩

end NotiService
