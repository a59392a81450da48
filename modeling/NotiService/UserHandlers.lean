import NotiService.Devices
import NotiService.Views
import NotiService.Foundation.Paging

/-! The notification handlers of the REST API over the statements that they run: a page of the
caller's list with the unread count, one notification marked read, and all of them. -/

namespace NotiService
open Foundation NotificationTable

inductive UserOp : Type → Type where
  | listByUser (userId : Uuid) (limit offset : Int) : UserOp (Except NotiError (List Notification))
  | getUnreadCount (userId : Uuid) : UserOp (Except NotiError Int)
  | markAsRead (id userId : Uuid) : UserOp (Except NotiError Unit)
  | markAllAsRead (userId : Uuid) : UserOp (Except NotiError Unit)

/-- A statement runs at `now`, and its result may be `lost` after it has committed. `ids` is the
order of a SELECT. -/
inductive UserOutcome where
  | done (now : Int)
  | lost (now : Int) (e : NotiError)
  | fail (e : NotiError)
  | listed (ids : List Uuid)
deriving DecidableEq, Repr

def UserOutcome.committed : UserOutcome → Option Int
  | .done now | .lost now _ => some now
  | .fail _ | .listed _ => none

namespace NotificationTable

def getUnreadCount (t : NotificationTable) (userId : Uuid) : Int :=
  t.rows.countP fun n => n.userId = some userId ∧ n.readAt = none

def execUser (o : UserOutcome) : {β : Type} → UserOp β → NotificationTable →
    Option (β × NotificationTable)
  | _, .listByUser userId limit offset, t =>
    match o with
    | .listed ids => (t.listByUser userId limit offset ids).map fun rows => (rows, t)
    | .fail e => some (.error e, t)
    | _ => none
  | _, .getUnreadCount userId, t =>
    match o with
    | .done _ => some (.ok (t.getUnreadCount userId), t)
    | .fail e => some (.error e, t)
    | _ => none
  | _, .markAsRead id userId, t =>
    match o with
    | .done now => some (.ok (), t.markAsRead now id userId)
    | .lost now e => some (.error e, t.markAsRead now id userId)
    | .fail e => some (.error e, t)
    | .listed _ => none
  | _, .markAllAsRead userId, t =>
    match o with
    | .done now => some (.ok (), t.markAllAsRead now userId)
    | .lost now e => some (.error e, t.markAllAsRead now userId)
    | .fail e => some (.error e, t)
    | .listed _ => none

end NotificationTable

structure ListNotificationsResponse where
  notifications : List NotificationView
  unreadCount : Int
  total : Nat

inductive UserResponse where
  | success
  | listed (response : ListNotificationsResponse)

/-- A status code and a text, or a body. -/
abbrev UserAnswer := Except (Nat × String) UserResponse

inductive UserRequest where
  | list (limit offset : Option Int)
  | markAsRead (id : Uuid)
  | markAllAsRead
deriving DecidableEq, Repr

structure UserApiRequest (Role : Type) where
  role : Role
  userId : Option String
  request : UserRequest

namespace UserHandlers
open Program

variable {Role : Type} (roles : Roles Role)

def listNotifications (upper : Uppercase) (T : Tera) (clock : Int) (role : Role) (user : Uuid)
    (limit offset : Option Int) : Program UserOp UserAnswer :=
  match Devices.requireRole roles role with
  | .error e => return .error e
  | .ok () => do
    let limit := min (max (limit.getD 20) 1) 100
    let offset := max (offset.getD 0) 0
    match listUserNotificationViews upper T clock
        (← perform (.listByUser user limit offset)) with
    | .error e => return .error (500, e.toString)
    | .ok notifications =>
      match ← perform (.getUnreadCount user) with
      | .error e => return .error (500, e.toString)
      | .ok unreadCount =>
        return .ok (.listed ⟨notifications, unreadCount, notifications.length⟩)

def markNotificationAsRead (role : Role) (user id : Uuid) : Program UserOp UserAnswer :=
  match Devices.requireRole roles role with
  | .error e => return .error e
  | .ok () => do
    match ← perform (.markAsRead id user) with
    | .error e => return .error (500, e.toString)
    | .ok () => return .ok .success

def markAllNotificationsAsRead (role : Role) (user : Uuid) : Program UserOp UserAnswer :=
  match Devices.requireRole roles role with
  | .error e => return .error e
  | .ok () => do
    match ← perform (.markAllAsRead user) with
    | .error e => return .error (500, e.toString)
    | .ok () => return .ok .success

def handle (parseStr : String → Option Uuid) (upper : Uppercase) (T : Tera) (clock : Int)
    (r : UserApiRequest Role) : Program UserOp UserAnswer :=
  match Devices.userContext parseStr r.userId with
  | .error e => return .error e
  | .ok user =>
    match r.request with
    | .list limit offset => listNotifications roles upper T clock r.role user limit offset
    | .markAsRead id => markNotificationAsRead roles r.role user id
    | .markAllAsRead => markAllNotificationsAsRead roles r.role user

end UserHandlers

def userSystem {Role : Type} (roles : Roles Role) (parseStr : String → Option Uuid)
    (upper : Uppercase) (T : Tera) (t₀ : NotificationTable) :
    System NotificationTable (UserApiRequest Role × Int × List UserOutcome) where
  init t := t = t₀
  step t := fun (r, clock, script) =>
    (Program.play NotificationTable.execUser
      (UserHandlers.handle roles parseStr upper T clock r) script t).map Prod.snd

namespace NotificationTable

def userRows (t : NotificationTable) (userId : Uuid) : List Notification :=
  t.rows.filter fun n => n.userId = some userId

variable {t : NotificationTable} {userId : Uuid} {limit offset : Int} {ids : List Uuid}
  {shown : List Notification}

theorem filterMap_getById {ns : List Notification} (h : ∀ n ∈ ns, n ∈ t.rows) :
    (ns.map Notification.id).filterMap t.getById = ns := by
  induction ns with
  | nil => rfl
  | cons n ns ih =>
    rw [List.map_cons, List.filterMap_cons_some (mem_rows_iff.mp (h n (List.mem_cons_self ..))),
      ih fun m hm => h m (List.mem_cons_of_mem n hm)]

theorem listByUser_eq_ok : t.listByUser userId limit offset ids = some (.ok shown) ↔
    0 ≤ limit ∧ 0 ≤ offset ∧ ∃ s, Paging.Ordering Notification.createdAt (t.userRows userId) s ∧
      s.map Notification.id = ids ∧ shown = (s.drop offset.toNat).take limit.toNat := by
  have hrows : ∀ n ∈ t.userRows userId, n ∈ t.rows := fun n hn => List.mem_of_mem_filter hn
  constructor
  · intro h
    unfold listByUser at h
    split at h
    · cases h
    · split at h
      · cases h
      · next hlimit hoffset =>
        obtain ⟨⟨hperm, hsorted⟩, heq⟩ := (Option.ite_none_right_eq_some ..).mp h
        have hfound : ∀ id ∈ ids, ∃ n, t.getById id = some n := by
          intro id hid
          obtain ⟨n, hn, rfl⟩ := List.mem_map.mp (hperm.mem_iff.mp hid)
          exact ⟨n, mem_rows_iff.mp (hrows n hn)⟩
        refine ⟨not_lt.mp hlimit, not_lt.mp hoffset, _, ⟨?_, hsorted⟩,
          t.table.map_key_filterMap_get hfound, (Except.ok.inj (Option.some.inj heq)).symm⟩
        exact filterMap_getById hrows ▸ hperm.filterMap t.getById
  · rintro ⟨hlimit, hoffset, s, ⟨hperm, hsorted⟩, rfl, rfl⟩
    have hself := filterMap_getById fun n hn => hrows n (hperm.mem_iff.mp hn)
    unfold listByUser
    rw [if_neg (not_lt.mpr hlimit), if_neg (not_lt.mpr hoffset), hself]
    exact if_pos ⟨hperm.map _, hsorted⟩

theorem exists_listByUser (t : NotificationTable) (userId : Uuid) (hlimit : 0 ≤ limit)
    (hoffset : 0 ≤ offset) : ∃ ids shown, t.listByUser userId limit offset ids =
      some (.ok shown) := by
  obtain ⟨s, hs⟩ := Paging.exists_ordering Notification.createdAt (t.userRows userId)
  exact ⟨_, _, listByUser_eq_ok.mpr ⟨hlimit, hoffset, s, hs, rfl, rfl⟩⟩

end NotificationTable

section Answers

variable {Role : Type} {roles : Roles Role} {role : Role} {t : NotificationTable} {user : Uuid}
  {limit offset : Option Int} {ids : List Uuid} {rows : List Notification}

theorem play_listNotifications (upper : Uppercase) (T : Tera) (clock : Int)
    (hrole : Devices.requireRole roles role = .ok ())
    (hlisted : t.listByUser user (min (max (limit.getD 20) 1) 100) (max (offset.getD 0) 0) ids =
      some (.ok rows)) :
    ∃ response, Program.play execUser (UserHandlers.listNotifications roles upper T clock role
        user limit offset) [.listed ids, .done 0] t = some (.ok (.listed response), t) ∧
      response.notifications.map NotificationView.notification = rows := by
  let views := rows.map fun n => NotificationView.new upper n
    ((T.render (Wire.textTemplateId n.templateId) n.vars clock).getD "")
  refine ⟨⟨views, t.getUnreadCount user, views.length⟩, ?_, ?_⟩
  · unfold UserHandlers.listNotifications
    rw [hrole]
    refine (Program.play_call_eq_some _).mpr ⟨_, _, .ok rows, t, rfl, ?_, rfl⟩
    exact Option.map_eq_some_iff.mpr ⟨_, hlisted, rfl⟩
  · rw [List.map_map]
    exact List.map_id rows

end Answers

end NotiService
