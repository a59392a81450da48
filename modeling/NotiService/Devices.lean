import NotiService.DeviceTable
import NotiService.Events
import NotiService.Foundation.Transition

/-! The device handlers of the REST API and the extractor in front of them. `register_device`
and `list_devices` act for the caller; `revoke_device` revokes the token it is given, whoever
owns it. -/

namespace NotiService
open Foundation

/-- `ServiceRole` of the core library, with what its `require_any` answers. -/
structure Roles (Role : Type) where
  apiGateway : Role
  admin : Role
  requireAny : Role → List Role → Except (Nat × String) Unit

inductive DeviceOp : Type → Type where
  | register (userId : Uuid) (token : String) (platform : DevicePlatform) :
      DeviceOp (Except NotiError DeviceToken)
  | activeForUser (userId : Uuid) : DeviceOp (Except NotiError (List DeviceToken))
  | revoke (token : String) : DeviceOp (Except NotiError Unit)

/-- A statement runs at `now`, and its result may be `lost` after it has committed. `newId`
is the id it may need, `tokens` the order of a SELECT. -/
inductive DeviceOutcome where
  | done (now : Int) (newId : Uuid)
  | lost (now : Int) (newId : Uuid) (e : NotiError)
  | fail (e : NotiError)
  | listed (tokens : List String)
deriving DecidableEq, Repr

def DeviceOutcome.commits : DeviceOutcome → Bool
  | .done .. | .lost .. => true
  | _ => false

namespace DeviceTable

def exec (o : DeviceOutcome) : {β : Type} → DeviceOp β → DeviceTable → Option (β × DeviceTable)
  | _, .register userId token platform, t =>
    match o with
    | .done now newId =>
      match t.register now newId userId token platform with
      | .ok (device, t') => some (.ok device, t')
      | .error e => some (.error e, t)
    | .lost now newId e =>
      match t.register now newId userId token platform with
      | .ok (_, t') => some (.error e, t')
      | .error _ => some (.error e, t)
    | .fail e => some (.error e, t)
    | .listed _ => none
  | _, .activeForUser userId, t =>
    match o with
    | .listed tokens => (t.activeForUser userId tokens).map fun devices => (devices, t)
    | .fail e => some (.error e, t)
    | _ => none
  | _, .revoke token, t =>
    match o with
    | .done now _ => some (.ok (), t.revoke now token)
    | .lost now _ e => some (.error e, t.revoke now token)
    | .fail e => some (.error e, t)
    | .listed _ => none

end DeviceTable

inductive DeviceResponse where
  | success
  | registered (deviceId : Uuid)
  | devices (devices : List DeviceToken)
deriving DecidableEq, Repr

/-- A status code and a text, or a body. -/
abbrev Answer := Except (Nat × String) DeviceResponse

inductive DeviceRequest where
  | list
  | register (token platform : String)
  | revoke (token : String)
deriving DecidableEq, Repr

structure ApiRequest (Role : Type) where
  role : Role
  userId : Option String
  request : DeviceRequest

namespace Devices
open Program

section Handlers

variable {Role : Type} (roles : Roles Role)

def requireRole (role : Role) : Except (Nat × String) Unit :=
  (roles.requireAny role [roles.apiGateway, roles.admin]).mapError fun (_, msg) => (403, msg)

/-- The extractor of `UserContext`. -/
def userContext (parseStr : String → Option Uuid) (header : Option String) :
    Except (Nat × String) Uuid :=
  match header.bind parseStr with
  | some user => .ok user
  | none => .error (401, "Missing or invalid User ID header")

def registerDevice (role : Role) (user : Uuid) (token platform : String) :
    Program DeviceOp Answer :=
  match requireRole roles role with
  | .error e => return .error e
  | .ok () =>
    -- beyond ASCII no string has one of the three names as its lower case
    match DevicePlatform.fromDb platform.toLower with
    | none => return .error (400, "platform must be one of: android, ios, web")
    | some platform =>
      if Text.trim token.toList = [] then
        return .error (400, "token must not be empty")
      else do
        match ← perform (.register user token platform) with
        | .error e => return .error (500, e.toString)
        | .ok device => return .ok (.registered device.id)

def revokeDevice (role : Role) (_user : Uuid) (token : String) : Program DeviceOp Answer :=
  match requireRole roles role with
  | .error e => return .error e
  | .ok () => do
    match ← perform (.revoke token) with
    | .error e => return .error (500, e.toString)
    | .ok () => return .ok .success

def listDevices (role : Role) (user : Uuid) : Program DeviceOp Answer :=
  match requireRole roles role with
  | .error e => return .error e
  | .ok () => do
    match ← perform (.activeForUser user) with
    | .error e => return .error (500, e.toString)
    | .ok devices => return .ok (.devices devices)

def handle (parseStr : String → Option Uuid) (r : ApiRequest Role) : Program DeviceOp Answer :=
  match userContext parseStr r.userId with
  | .error e => return .error e
  | .ok user =>
    match r.request with
    | .list => listDevices roles r.role user
    | .register token platform => registerDevice roles r.role user token platform
    | .revoke token => revokeDevice roles r.role user token

end Handlers

end Devices

def deviceSystem {Role : Type} (roles : Roles Role) (parseStr : String → Option Uuid)
    (t₀ : DeviceTable) : System DeviceTable (ApiRequest Role × List DeviceOutcome) where
  init t := t = t₀
  step t := fun (r, script) =>
    (Program.play DeviceTable.exec (Devices.handle roles parseStr r) script t).map Prod.snd

section Effects

variable {Role : Type} {roles : Roles Role} {parseStr : String → Option Uuid} {role : Role}
  {user : Uuid} {token platform : String} {script : List DeviceOutcome} {t t' : DeviceTable}
  {response : Answer}

private theorem play_single {β : Type} {op : DeviceOp β} {rest : β → Program DeviceOp Answer}
    (f : β → Answer) (hrest : ∀ r, rest r = .done (f r))
    (h : Program.play DeviceTable.exec (.call op rest) script t = some (response, t')) :
    ∃ o answer, script = [o] ∧ DeviceTable.exec o op t = some (answer, t') ∧
        response = f answer := by
  obtain ⟨o, script', answer, t₁, rfl, hexec, hplay⟩ := (Program.play_call_eq_some _).mp h
  rw [hrest] at hplay
  obtain ⟨rfl, rfl, rfl⟩ := (Program.play_done_eq_some _).mp hplay
  exact ⟨o, answer, rfl, hexec, rfl⟩

private def answered {β : Type} (f : β → DeviceResponse) : Except NotiError β → Answer
  | .error e => .error (500, e.toString)
  | .ok value => .ok (f value)

theorem revokeDevice_effect
    (h : Program.play DeviceTable.exec (Devices.revokeDevice roles role user token) script t =
      some (response, t')) :
    ∃ now, t' = if script.any DeviceOutcome.commits then t.revoke now token else t := by
  unfold Devices.revokeDevice at h
  split at h
  · obtain ⟨rfl, -, rfl⟩ := (Program.play_done_eq_some _).mp h
    exact ⟨0, rfl⟩
  · obtain ⟨o, answer, rfl, hexec, -⟩ := play_single (answered fun _ => .success)
      (fun r => by cases r <;> rfl) h
    cases o with
    | done now _ | lost now _ _ =>
      cases hexec
      exact ⟨now, rfl⟩
    | fail e =>
      cases hexec
      exact ⟨0, rfl⟩
    | listed tokens => cases hexec

theorem listDevices_effect
    (h : Program.play DeviceTable.exec (Devices.listDevices roles role user) script t =
      some (response, t')) :
    t' = t ∧ ∀ ds, response = .ok (.devices ds) →
      (ds.map DeviceToken.token).Nodup ∧ ∀ d, d ∈ ds ↔ t.Active user d := by
  unfold Devices.listDevices at h
  split at h
  · obtain ⟨-, rfl, rfl⟩ := (Program.play_done_eq_some _).mp h
    exact ⟨rfl, fun _ hds => nomatch hds⟩
  · obtain ⟨o, answer, rfl, hexec, rfl⟩ := play_single (answered .devices)
      (fun r => by cases r <;> rfl) h
    cases o with
    | listed tokens =>
      obtain ⟨r, hr, hanswer⟩ := Option.map_eq_some_iff.mp hexec
      cases hanswer
      obtain ⟨ds, rfl, htokens, hnodup, hmem⟩ := DeviceTable.activeForUser_eq_some hr
      refine ⟨rfl, fun ds' hds' => ?_⟩
      cases hds'
      exact ⟨htokens ▸ hnodup, hmem⟩
    | fail e =>
      cases hexec
      exact ⟨rfl, fun _ hds => nomatch hds⟩
    | done | lost => cases hexec

theorem registerDevice_effect
    (h : Program.play DeviceTable.exec (Devices.registerDevice roles role user token platform)
      script t = some (response, t')) :
    t' = t ∨ ∃ d : DeviceToken, d.token = token ∧ d.userId = user ∧
      ∀ k, t'.activeDevice k = if k = token then some d else t.activeDevice k := by
  unfold Devices.registerDevice at h
  split at h
  · exact .inl ((Program.play_done_eq_some _).mp h).2.2
  · split at h
    · exact .inl ((Program.play_done_eq_some _).mp h).2.2
    · next platform _ =>
      split at h
      · exact .inl ((Program.play_done_eq_some _).mp h).2.2
      · obtain ⟨o, answer, rfl, hexec, -⟩ := play_single
          (answered fun device => .registered device.id) (fun r => by cases r <;> rfl) h
        cases o with
        | done now newId | lost now newId _ =>
          simp only [DeviceTable.exec] at hexec
          split at hexec
          · next d _ hregister =>
            cases hexec
            obtain ⟨htoken, huser, -, hactive⟩ := DeviceTable.register_eq_ok hregister
            exact .inr ⟨d, htoken, huser, hactive⟩
          · cases hexec
            exact .inl rfl
        | fail e =>
          cases hexec
          exact .inl rfl
        | listed tokens => cases hexec

theorem exists_listDevices (hrole : Devices.requireRole roles role = .ok ()) (t : DeviceTable)
    (user : Uuid) : ∃ tokens ds, Program.play DeviceTable.exec
      (Devices.listDevices roles role user) [.listed tokens] t = some (.ok (.devices ds), t) := by
  obtain ⟨tokens, ds, hds⟩ := t.exists_activeForUser user
  refine ⟨tokens, ds, ?_⟩
  unfold Devices.listDevices
  rw [hrole]
  refine (Program.play_call_eq_some _).mpr ⟨_, _, .ok ds, t, rfl, ?_, rfl⟩
  exact Option.map_eq_some_iff.mpr ⟨_, hds, rfl⟩

end Effects

/-- A revocation is the owner's, or nobody owns the token. -/
def OwnRevocation {Role : Type} (parseStr : String → Option Uuid) (t : DeviceTable) :
    ApiRequest Role × List DeviceOutcome → Prop
  | (r, script) => ∀ user token, Devices.userContext parseStr r.userId = .ok user →
      r.request = .revoke token → script.any DeviceOutcome.commits →
        ∀ v, t.owner token = some v → v = user

def Spares {Role : Type} (parseStr : String → Option Uuid) (user : Uuid) (token : String)
    (r : ApiRequest Role) : Prop :=
  (∀ platform, r.request ≠ .register token platform) ∧
    (r.request = .revoke token → Devices.userContext parseStr r.userId ≠ .ok user)

section Isolation

variable {Role : Type} {roles : Roles Role} {parseStr : String → Option Uuid} {t t' : DeviceTable}
  {r : ApiRequest Role} {script : List DeviceOutcome} {response : Answer} {user v : Uuid}
  {token : String} {d : DeviceToken}

theorem active_revoke {now : Int} : (t.revoke now token).Active v d ↔
    t.Active v d ∧ d.token ≠ token := by
  rw [DeviceTable.Active, DeviceTable.activeDevice_revoke, DeviceTable.Active]
  by_cases hd : d.token = token <;> simp [hd]

theorem revoke_isolated_iff {now : Int} :
    (∀ v, v ≠ user → ∀ d, (t.revoke now token).Active v d ↔ t.Active v d) ↔
      ∀ v, t.owner token = some v → v = user := by
  constructor
  · intro hsame v hv
    by_contra hne
    obtain ⟨d, hd, huser⟩ := DeviceTable.owner_eq_some.mp hv
    have htoken := DeviceTable.token_of_activeDevice hd
    have hactive : t.Active v d := ⟨htoken.symm ▸ hd, huser⟩
    exact (active_revoke.mp ((hsame v hne d).mpr hactive)).2 htoken
  · intro howned v hne d
    rw [active_revoke]
    refine and_iff_left_of_imp fun hactive htoken => hne ?_
    exact howned v (DeviceTable.owner_eq_some.mpr ⟨d, htoken ▸ hactive.1, hactive.2⟩)

theorem active_step (hactive : t.Active v d) (hown : OwnRevocation parseStr t (r, script))
    (hspares : Spares parseStr v d.token r)
    (h : Program.play DeviceTable.exec (Devices.handle roles parseStr r) script t =
      some (response, t')) : t'.Active v d := by
  unfold Devices.handle at h
  split at h
  · rwa [((Program.play_done_eq_some _).mp h).2.2]
  · next user huser =>
    split at h
    · rwa [(listDevices_effect h).1]
    · next token platform hr =>
      rcases registerDevice_effect h with rfl | ⟨d', -, -, hafter⟩
      · exact hactive
      · have hne : d.token ≠ token := fun heq => hspares.1 platform (heq ▸ hr)
        exact ⟨by rw [hafter, if_neg hne]; exact hactive.1, hactive.2⟩
    · next token hr =>
      obtain ⟨now, rfl⟩ := revokeDevice_effect h
      split
      · next hcommits =>
        refine active_revoke.mpr ⟨hactive, ?_⟩
        rintro rfl
        have howner := DeviceTable.owner_eq_some.mpr ⟨d, hactive⟩
        obtain rfl := hown user d.token huser hr hcommits v howner
        exact hspares.2 hr huser
      · exact hactive

end Isolation

/-- A revocation leaves the other users' devices alone exactly if none of them owns the
token; a list is exactly the caller's devices, and some order of them answers it; and while every
revocation is the owner's, a device stays its owner's until the owner revokes it or its token is
registered again. -/
theorem devices_isolated {Role : Type} (roles : Roles Role) (parseStr : String → Option Uuid) :
    (∀ t role user token script response t', Program.play DeviceTable.exec
        (Devices.revokeDevice roles role user token) script t = some (response, t') →
      ((∀ v, v ≠ user → ∀ d, t'.Active v d ↔ t.Active v d) ↔
        (script.any DeviceOutcome.commits → ∀ v, t.owner token = some v → v = user))) ∧
    (∀ t role user script ds t', Program.play DeviceTable.exec
        (Devices.listDevices roles role user) script t = some (.ok (.devices ds), t') →
      t' = t ∧ (ds.map DeviceToken.token).Nodup ∧ ∀ d, d ∈ ds ↔ t.Active user d) ∧
    (∀ t role user, Devices.requireRole roles role = .ok () → ∃ tokens ds,
      Program.play DeviceTable.exec (Devices.listDevices roles role user) [.listed tokens] t =
        some (.ok (.devices ds), t)) ∧
    ∀ t₀ v d t, t₀.Active v d → (deviceSystem roles parseStr t₀).Reachable
      (fun t l => OwnRevocation parseStr t l ∧ Spares parseStr v d.token l.1) t → t.Active v d := by
  refine ⟨fun t role user token script response t' h => ?_, fun t role user script ds t' h => ?_,
    fun t role user hrole => exists_listDevices hrole t user,
    fun t₀ v d t hactive hreach => ?_⟩
  · obtain ⟨now, rfl⟩ := revokeDevice_effect h
    by_cases hcommits : script.any DeviceOutcome.commits
    · simp only [hcommits, forall_const]
      exact revoke_isolated_iff
    · simp [hcommits]
  · obtain ⟨hsame, hlist⟩ := listDevices_effect h
    exact ⟨hsame, hlist ds rfl⟩
  · refine hreach.invariant (P := fun t => t.Active v d) ?_ ?_
    · rintro _ rfl
      exact hactive
    · rintro t ⟨r, script⟩ t' ht ⟨hown, hspares⟩ hs
      obtain ⟨⟨response, t''⟩, hplay, rfl⟩ := Option.map_eq_some_iff.mp hs
      exact active_step ht hown hspares hplay

/-- User 8 revokes the token of user 7. -/
theorem devices_not_isolated : ¬∀ (t : DeviceTable) role user token script response t',
    Program.play DeviceTable.exec (Devices.revokeDevice
        ⟨"api-gateway", "admin", fun role allowed =>
          if role ∈ allowed then .ok () else .error (403, "role not permitted")⟩ role user token)
      script t = some (response, t') →
    ∀ v, v ≠ user → ∀ d, t'.Active v d ↔ t.Active v d := by
  intro hclaim
  obtain ⟨t, d, hregister⟩ : ∃ t d,
      DeviceTable.empty.register 0 ⟨1⟩ ⟨7⟩ "tok" .web = .ok (d, t) := ⟨_, _, rfl⟩
  obtain ⟨htoken, huser, -, hget⟩ := DeviceTable.register_eq_ok hregister
  have hactive : t.Active ⟨7⟩ d := ⟨by rw [hget, if_pos htoken], huser⟩
  have hkept := (hclaim t "admin" ⟨8⟩ "tok" [.done 5 ⟨2⟩] (.ok .success) (t.revoke 5 "tok") rfl
    ⟨7⟩ (by decide) d).mpr hactive
  exact (active_revoke.mp hkept).2 htoken

end NotiService
