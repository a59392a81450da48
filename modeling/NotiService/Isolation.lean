import NotiService.ReadState
import NotiService.Pagination
import NotiService.Foundation.Sessions

/-! The notification handlers under requests of many users at once. What a user is told, and
what becomes of her notifications, depends on her own requests alone: without those of the
others, and with the same outcomes of her statements, everything comes out the same. -/

namespace NotiService
open Foundation NotificationTable

/-- The user in the WHERE of a statement. -/
def UserOp.user : {β : Type} → UserOp β → Uuid
  | _, .listByUser userId _ _ => userId
  | _, .getUnreadCount userId => userId
  | _, .markAsRead _ userId => userId
  | _, .markAllAsRead userId => userId

section Handlers

variable {Role : Type} (roles : Roles Role) (parseStr : String → Option Uuid) (upper : Uppercase)
  (T : Tera)

def UserApiRequest.caller (r : UserApiRequest Role × Int) : Option Uuid :=
  (Devices.userContext parseStr r.1.userId).toOption

/-- The API with any number of handlers at work, each request at a time of the service clock. -/
def userSessions : System (Sessions (Option Uuid) (Program UserOp UserAnswer) NotificationTable)
    (SessionLabel (Option Uuid) (UserApiRequest Role × Int) UserOutcome) :=
  sessionSystem NotificationTable.execUser (UserApiRequest.caller parseStr) fun (r, clock) =>
    UserHandlers.handle roles parseStr upper T clock r

def OfCaller (caller : Option Uuid) {β : Type} (op : UserOp β) : Prop := caller = some op.user

variable {roles parseStr upper T}

theorem handle_asks (r : UserApiRequest Role × Int) :
    (UserHandlers.handle roles parseStr upper T r.2 r.1).Asks
      (OfCaller (UserApiRequest.caller parseStr r)) := by
  unfold UserHandlers.handle UserApiRequest.caller
  cases Devices.userContext parseStr r.1.userId with
  | error e => trivial
  | ok user =>
    cases r.1.request with
    | list limit offset =>
      show (UserHandlers.listNotifications roles upper T r.2 r.1.role user limit offset).Asks _
      unfold UserHandlers.listNotifications
      split
      · trivial
      · refine ⟨rfl, fun listed => ?_⟩
        simp only [Program.bind]
        cases listUserNotificationViews upper T r.2 listed with
        | error e => trivial
        | ok views => exact ⟨rfl, fun count => by cases count <;> trivial⟩
    | markAsRead id =>
      show (UserHandlers.markNotificationAsRead roles r.1.role user id).Asks _
      unfold UserHandlers.markNotificationAsRead
      split
      · trivial
      · exact ⟨rfl, fun answer => by cases answer <;> trivial⟩
    | markAllAsRead =>
      show (UserHandlers.markAllNotificationsAsRead roles r.1.role user).Asks _
      unfold UserHandlers.markAllNotificationsAsRead
      split
      · trivial
      · exact ⟨rfl, fun answer => by cases answer <;> trivial⟩

end Handlers

namespace NotificationTable

variable {t t' : NotificationTable} {user : Uuid}

theorem userRows_readBy (t : NotificationTable) (now : Int) (c : ReadCall) (user : Uuid) :
    (t.readBy now c).userRows user =
      (t.userRows user).map fun n => if c.guard n then read now n else n := by
  rw [userRows, rows_readBy, List.filter_map, userRows]
  congr 1
  refine List.filter_congr fun n _ => ?_
  by_cases h : c.guard n <;> simp [h, read]

theorem userRows_readBy_of_ne {c : ReadCall} (h : c.user ≠ user) (now : Int) :
    (t.readBy now c).userRows user = t.userRows user := by
  rw [userRows_readBy]
  refine (List.map_congr_left fun n hn => ?_).trans (List.map_id _)
  have huser : n.userId = some user := by simpa using (List.mem_filter.mp hn).2
  refine if_neg fun hguard => h ?_
  exact Option.some.inj ((ReadCall.guard_spec hguard).1.symm.trans huser)

theorem getUnreadCount_congr (h : t.userRows user = t'.userRows user) :
    t.getUnreadCount user = t'.getUnreadCount user := by
  have hcount : ∀ t : NotificationTable, t.getUnreadCount user =
      ((t.userRows user).countP fun n => decide (n.readAt = none) : Nat) := by
    intro t
    rw [getUnreadCount, userRows, List.countP_filter]
    congr 2
    funext n
    by_cases huser : n.userId = some user <;> simp [huser]
  rw [hcount, hcount, h]

theorem listByUser_congr (h : t.userRows user = t'.userRows user) (limit offset : Int)
    (ids : List Uuid) :
    t.listByUser user limit offset ids = t'.listByUser user limit offset ids := by
  have hids : t.rows.filter (fun n => n.userId = some user) =
      t'.rows.filter fun n => n.userId = some user := h
  unfold listByUser
  rw [← hids]
  by_cases hperm : ids.Perm ((t.rows.filter fun n => n.userId = some user).map Notification.id)
  · have hrows : ids.filterMap t.getById = ids.filterMap t'.getById := by
      refine List.filterMap_congr fun id hid => ?_
      obtain ⟨n, hn, rfl⟩ := List.mem_map.mp (hperm.mem_iff.mp hid)
      rw [mem_rows_iff.mp (List.mem_of_mem_filter hn)]
      rw [hids] at hn
      rw [mem_rows_iff.mp (List.mem_of_mem_filter hn)]
    rw [hrows]
  · simp only [hperm, false_and, if_false]

variable {β : Type} {op : UserOp β} {o : UserOutcome} {t₁ : NotificationTable} {answer : β}

theorem execUser_own (h : t.userRows op.user = t'.userRows op.user)
    (hexec : execUser o op t = some (answer, t₁)) :
    ∃ t₁', execUser o op t' = some (answer, t₁') ∧
      t₁.userRows op.user = t₁'.userRows op.user := by
  have hread : ∀ now c, (t.readBy now c).userRows op.user = (t'.readBy now c).userRows op.user := by
    intro now c
    rw [userRows_readBy, userRows_readBy, h]
  cases op with
  | listByUser userId limit offset =>
    cases o with
    | listed ids =>
      obtain ⟨rows, hrows, heq⟩ := Option.map_eq_some_iff.mp hexec
      obtain ⟨rfl, rfl⟩ := Prod.mk.inj heq
      have hsame : t.userRows userId = t'.userRows userId := h
      rw [listByUser_congr hsame] at hrows
      exact ⟨t', Option.map_eq_some_iff.mpr ⟨_, hrows, rfl⟩, h⟩
    | fail e =>
      cases hexec
      exact ⟨t', rfl, h⟩
    | done | lost => cases hexec
  | getUnreadCount userId =>
    cases o with
    | done now =>
      cases hexec
      have hsame : t.userRows userId = t'.userRows userId := h
      exact ⟨t', by rw [getUnreadCount_congr hsame]; rfl, h⟩
    | fail e =>
      cases hexec
      exact ⟨t', rfl, h⟩
    | lost | listed => cases hexec
  | markAsRead id userId =>
    cases o with
    | done now | lost now e =>
      cases hexec
      exact ⟨_, rfl, hread now (.markAsRead id userId)⟩
    | fail e =>
      cases hexec
      exact ⟨t', rfl, h⟩
    | listed => cases hexec
  | markAllAsRead userId =>
    cases o with
    | done now | lost now e =>
      cases hexec
      exact ⟨_, rfl, hread now (.markAllAsRead userId)⟩
    | fail e =>
      cases hexec
      exact ⟨t', rfl, h⟩
    | listed => cases hexec

theorem execUser_other (h : op.user ≠ user) (hexec : execUser o op t = some (answer, t₁)) :
    t₁.userRows user = t.userRows user := by
  cases op with
  | listByUser userId limit offset =>
    cases o with
    | listed ids =>
      obtain ⟨rows, -, heq⟩ := Option.map_eq_some_iff.mp hexec
      obtain ⟨-, rfl⟩ := Prod.mk.inj heq
      rfl
    | fail e =>
      cases hexec
      rfl
    | done | lost => cases hexec
  | getUnreadCount userId => cases o <;> cases hexec <;> rfl
  | markAsRead id userId =>
    cases o with
    | done now | lost now e =>
      cases hexec
      exact userRows_readBy_of_ne (c := .markAsRead id userId) h now
    | fail e =>
      cases hexec
      rfl
    | listed => cases hexec
  | markAllAsRead userId =>
    cases o with
    | done now | lost now e =>
      cases hexec
      exact userRows_readBy_of_ne (c := .markAllAsRead userId) h now
    | fail e =>
      cases hexec
      rfl
    | listed => cases hexec

end NotificationTable

/-- Leaving out every request of other users, a user gets the same answers in the same steps, and
her notifications are the same. -/
theorem users_isolated {Role : Type} (roles : Roles Role) (parseStr : String → Option Uuid)
    (upper : Uppercase) (T : Tera) (t₀ : NotificationTable) (user : Uuid)
    {ls : List (SessionLabel (Option Uuid) (UserApiRequest Role × Int) UserOutcome)}
    {s : Sessions (Option Uuid) (Program UserOp UserAnswer) NotificationTable}
    (hrun : (userSessions roles parseStr upper T).run ⟨t₀, fun _ => []⟩ ls = some s) :
    ∃ s', (userSessions roles parseStr upper T).run ⟨t₀, fun _ => []⟩
        (ls.filter (SessionLabel.isOf (UserApiRequest.caller parseStr) (some user))) = some s' ∧
      s'.running (some user) = s.running (some user) ∧
      s'.shared.userRows user = s.shared.userRows user := by
  have start : SameFor OfCaller (fun t => t.userRows user) (some user)
      (⟨t₀, fun _ => []⟩ : Sessions (Option Uuid) (Program UserOp UserAnswer) NotificationTable)
      ⟨t₀, fun _ => []⟩ := ⟨rfl, rfl, by simp⟩
  have hown : ∀ {β : Type} (op : UserOp β) o (t t' : NotificationTable) (answer : β) t₁,
      OfCaller (some user) op → t.userRows user = t'.userRows user →
        execUser o op t = some (answer, t₁) → ∃ t₁', execUser o op t' = some (answer, t₁') ∧
          t₁.userRows user = t₁'.userRows user := by
    intro β op o t t' answer t₁ hop h hexec
    obtain rfl : user = op.user := Option.some.inj hop
    exact execUser_own h hexec
  have hother : ∀ {β : Type} (op : UserOp β) o (t : NotificationTable) (answer : β) t₁ caller,
      caller ≠ some user → OfCaller caller op → execUser o op t = some (answer, t₁) →
        t₁.userRows user = t.userRows user := by
    intro β op o t answer t₁ caller hne hop hexec
    refine execUser_other (fun heq => hne ?_) hexec
    rw [show caller = _ from hop, heq]
  obtain ⟨s', hs', hsame⟩ := run_without_others handle_asks hown hother start hrun
  exact ⟨s', hs', hsame.running.symm, hsame.view.symm⟩

def parseUser (text : String) : Option Uuid :=
  if text = "7" then some ⟨7⟩ else if text = "8" then some ⟨8⟩ else none

/-- User 8 marks all read between the two statements of a list of user 7. -/
def interleaved : List (SessionLabel (Option Uuid) (UserApiRequest String × Int) UserOutcome) :=
  [.start (⟨"admin", some "7", .list none none⟩, 9),
    .start (⟨"admin", some "8", .markAllAsRead⟩, 9), .step (some ⟨7⟩) 0 (.listed [⟨2⟩, ⟨1⟩]),
    .step (some ⟨8⟩) 0 (.lost 9 (.database "reset")), .step (some ⟨7⟩) 0 (.done 10)]

theorem users_isolated_interleaved : ∃ s s',
    (userSessions sampleRoles parseUser sampleUpper .sample).run ⟨.twoRows 5, fun _ => []⟩
      interleaved = some s ∧
    (userSessions sampleRoles parseUser sampleUpper .sample).run ⟨.twoRows 5, fun _ => []⟩
      (interleaved.filter (SessionLabel.isOf (UserApiRequest.caller parseUser) (some ⟨7⟩))) =
        some s' ∧
    (s.running (some ⟨7⟩)).map Program.isDone = [true] ∧
    s'.running (some ⟨7⟩) = s.running (some ⟨7⟩) ∧
    s'.shared.userRows ⟨7⟩ = s.shared.userRows ⟨7⟩ := by
  obtain ⟨s, hs, hdone⟩ : ∃ s, (userSessions sampleRoles parseUser sampleUpper .sample).run
      ⟨.twoRows 5, fun _ => []⟩ interleaved = some s ∧
      (s.running (some ⟨7⟩)).map Program.isDone = [true] := ⟨_, rfl, rfl⟩
  obtain ⟨s', hs', hsame⟩ := users_isolated sampleRoles parseUser sampleUpper .sample (.twoRows 5)
    ⟨7⟩ hs
  exact ⟨s, s', hs, hs', hdone, hsame⟩

end NotiService
