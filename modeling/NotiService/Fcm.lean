import NotiService.Devices

/-! `FcmProvider`: one request of the HTTP v1 API for each active device of the recipient.
A token that FCM calls dead is revoked, and the send fails only if no device has accepted
the message and one may do so later. -/

namespace NotiService
open Foundation Json

/-- What the provider uses of the uuid and JSON libraries, and its configuration. `fromStr`
lists the members of an object as they are written; `statusText` shows a status code. -/
structure FcmEnv where
  parseStr : String → Except String Uuid
  fromStr : String → Option Json
  statusText : Nat → String
  messagingBaseUrl : String
  projectId : String

inductive FcmOp : Type → Type where
  | activeForUser (userId : Uuid) : FcmOp (Except NotiError (List DeviceToken))
  | revoke (token : String) : FcmOp (Except NotiError Unit)
  | accessToken : FcmOp (Except NotiError String)
  | post (url bearer : String) (body : Json) : FcmOp (Except String (Nat × String))

/-- A request to FCM and its answer: a status and a body, or why none came. -/
structure Post where
  url : String
  message : Json
  answer : Except String (Nat × String)

def tokenOf (message : Json) : String := ((message.get "token").bind asStr).getD ""

def Post.token (p : Post) : String := tokenOf p.message

/-- `posts` and `revokes` are the requests and the revocations so far. -/
structure FcmState where
  devices : DeviceTable
  posts : List Post
  revokes : List String

inductive FcmOutcome where
  | device (o : DeviceOutcome)
  | token (s : String)
  | denied (e : NotiError)
  | answer (r : Except String (Nat × String))

def FcmOutcome.succeeds : FcmOutcome → Bool
  | .device (.done ..) | .device (.listed _) | .token _ | .answer _ => true
  | _ => false

def FcmState.exec (o : FcmOutcome) : {β : Type} → FcmOp β → FcmState → Option (β × FcmState)
  | _, .activeForUser userId, s =>
    match o with
    | .device o => (DeviceTable.exec o (.activeForUser userId) s.devices).map fun (r, devices) =>
      (r, { s with devices })
    | _ => none
  | _, .revoke token, s =>
    match o with
    | .device o => (DeviceTable.exec o (.revoke token) s.devices).map fun (r, devices) =>
      (r, { s with devices, revokes := s.revokes ++ [token] })
    | _ => none
  | _, .accessToken, s =>
    match o with
    | .token t => some (.ok t, s)
    | .denied e => some (.error e, s)
    | _ => none
  | _, .post url _ body, s =>
    match o with
    | .answer r =>
      some (r, { s with posts := s.posts ++ [⟨url, (body.get "message").getD .null, r⟩] })
    | _ => none

structure PushPayload where
  title : String
  body : String
  data : Option Json

inductive SendError where
  | invalidToken (body : String)
  | retryable (text : String)

namespace Fcm

def defaultTitle : String := "GridTokenX"

/-- A derived `Deserialize`: `title` and `data` have defaults, `body` has none. -/
def readPayload (text : Json) : Option PushPayload := do
  let [title, body, data] ← textFields ["title", "body", "data"] text | none
  let title ← match title with
    | none => some defaultTitle
    | some title => title.asStr
  let body ← body.bind asStr
  let data := match data with
    | none | some .null => none
    | some data => some data.toValue
  return ⟨title, body, data⟩

def parsePayload (env : FcmEnv) (content : String) : PushPayload :=
  ((env.fromStr content).bind readPayload).getD ⟨defaultTitle, content, none⟩

def platformBlock : DevicePlatform → String × Json
  | .android => ("android", .obj [("priority", .str "high")])
  | .ios => ("apns", .obj [("headers", .obj [("apns-priority", .str "10")])])
  | .web => ("webpush", .obj [("headers", .obj [("Urgency", .str "high")])])

def buildMessage (device : DeviceToken) (payload : PushPayload) : Json :=
  .obj ([("token", .str device.token),
    ("notification", .obj [("title", .str payload.title), ("body", .str payload.body)])] ++
    (payload.data.map fun data => ("data", data)).toList ++ [platformBlock device.platform])

def errorCode (detail : Json) : Option String := (detail.get "errorCode").bind asStr

def details (v : Json) : List Json :=
  match (v.get "error").bind (Json.get "details") with
  | some (.arr items) => items
  | _ => []

def status (v : Json) : Option String := ((v.get "error").bind (Json.get "status")).bind asStr

def isInvalidToken (env : FcmEnv) (httpStatus : Nat) (body : String) : Bool :=
  if httpStatus = 404 then true
  else
    match (env.fromStr body).map toValue with
    | none => false
    | some v =>
      if (details v).any fun d =>
          errorCode d = some "UNREGISTERED" ∨ errorCode d = some "INVALID_ARGUMENT" then true
      else status v = some "UNREGISTERED"

def url (env : FcmEnv) : String :=
  env.messagingBaseUrl ++ "/v1/projects/" ++ env.projectId ++ "/messages:send"

/-- What `send_to_token` makes of the answer. -/
def classify (env : FcmEnv) : Except String (Nat × String) → Except SendError Unit
  | .error e => .error (.retryable ("FCM send failed: " ++ e))
  | .ok (status, body) =>
    if 200 ≤ status ∧ status < 300 then .ok ()
    else if isInvalidToken env status body then .error (.invalidToken body)
    else .error (.retryable ("FCM send returned " ++ env.statusText status ++ ": " ++ body))

open Program

def sendToToken (env : FcmEnv) (accessToken : String) (device : DeviceToken)
    (payload : PushPayload) : Program FcmOp (Except SendError Unit) := do
  let answer ← perform (.post (url env) accessToken
    (.obj [("message", buildMessage device payload)]))
  return classify env answer

structure Fold where
  delivered : Nat
  pruned : Nat
  lastRetryable : Option String

/-- The loop over the devices. A revocation that fails is only logged. -/
def fanOut (env : FcmEnv) (accessToken : String) (payload : PushPayload) (fold : Fold) :
    List DeviceToken → Program FcmOp Fold
  | [] => return fold
  | device :: devices => do
    match ← sendToToken env accessToken device payload with
    | .ok () =>
      fanOut env accessToken payload { fold with delivered := fold.delivered + 1 } devices
    | .error (.invalidToken _) =>
      let _ ← perform (.revoke device.token)
      fanOut env accessToken payload { fold with pruned := fold.pruned + 1 } devices
    | .error (.retryable reason) =>
      fanOut env accessToken payload { fold with lastRetryable := some reason } devices

def report (fold : Fold) : Except NotiError String :=
  if fold.delivered > 0 ∨ fold.lastRetryable.isNone then
    .ok ("fcm-delivered-" ++ fold.delivered.repr ++ "-pruned-" ++ fold.pruned.repr)
  else .error (.provider (fold.lastRetryable.getD "FCM delivery failed for all tokens"))

def send (env : FcmEnv) (recipient content : String) :
    Program FcmOp (Except NotiError String) :=
  match env.parseStr recipient with
  | .error e => return .error (.validation ("FCM recipient must be a user_id UUID: " ++ e))
  | .ok user => do
    match ← perform (.activeForUser user) with
    | .error e => return .error e
    | .ok [] => return .ok ("fcm-no-devices-" ++ user.toString)
    | .ok tokens =>
      match ← perform .accessToken with
      | .error e => return .error e
      | .ok accessToken =>
        let fold ← fanOut env accessToken (parsePayload env content) ⟨0, 0, none⟩ tokens
        return report fold

def accepted (env : FcmEnv) (p : Post) : Bool :=
  match classify env p.answer with
  | .ok () => true
  | _ => false

def invalid (env : FcmEnv) (p : Post) : Bool :=
  match classify env p.answer with
  | .error (.invalidToken _) => true
  | _ => false

def retryable (env : FcmEnv) (p : Post) : Bool :=
  match classify env p.answer with
  | .error (.retryable _) => true
  | _ => false

def dead (env : FcmEnv) (posts : List Post) : List String :=
  (posts.filter (invalid env)).map Post.token

theorem tokenOf_buildMessage (device : DeviceToken) (payload : PushPayload) :
    tokenOf (buildMessage device payload) = device.token := rfl

end Fcm

end NotiService
