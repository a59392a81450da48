import NotiService.UserHandlers

/-! A walk over the pages of `list_notifications`. Every page is a query of its own, ordered by
`created_at` alone. -/

namespace NotiService
open Foundation NotificationTable

section Pages

variable {Role : Type} (roles : Roles Role) (upper : Uppercase) (T : Tera) (role : Role)
  (t : NotificationTable) (user : Uuid) (limit : Nat)

/-- An answer to the request for page `k`, at some time and in some order of equal rows. -/
def PageAnswer (k : Nat) (response : ListNotificationsResponse) : Prop :=
  ∃ clock script, Program.play execUser (UserHandlers.listNotifications roles upper T clock role
    user (some limit) (some (k * limit))) script t = some (.ok (.listed response), t)

/-- Whatever the answers, the pages before the first empty one have each row of the user once,
and no other. -/
def Covers : Prop :=
  ∀ answers : Nat → ListNotificationsResponse,
    (∀ k, PageAnswer roles upper T role t user limit k (answers k)) →
    ∃ n, (answers n).notifications = [] ∧ (∀ k < n, (answers k).notifications ≠ []) ∧
      (((List.range n).flatMap fun k => (answers k).notifications).map
        NotificationView.notification).Perm (t.userRows user)

end Pages

section Walk

variable {Role : Type} {roles : Roles Role} {upper : Uppercase} {T : Tera} {role : Role}
  {t : NotificationTable} {user : Uuid} {limit : Nat}

theorem clamp_limit (hlow : 1 ≤ limit) (hhigh : limit ≤ 100) :
    min (max (limit : Int) 1) 100 = limit := by omega

theorem clamp_offset (k limit : Nat) : max ((k : Int) * limit) 0 = (k * limit : Nat) := by
  rw [← Int.natCast_mul]
  exact max_eq_left (Int.natCast_nonneg _)

theorem of_pageAnswer (hlow : 1 ≤ limit) (hhigh : limit ≤ 100) {k : Nat}
    {response : ListNotificationsResponse}
    (h : PageAnswer roles upper T role t user limit k response) :
    ∃ s, Paging.Ordering Notification.createdAt (t.userRows user) s ∧
      response.notifications.map NotificationView.notification = Paging.page limit s k := by
  obtain ⟨clock, script, h⟩ := h
  unfold UserHandlers.listNotifications at h
  split at h
  · cases ((Program.play_done_eq_some _).mp h).2.1
  · obtain ⟨o, script, listed, t₁, rfl, hexec, hrest⟩ := (Program.play_call_eq_some _).mp h
    simp only [Program.bind] at hrest
    cases listed with
    | error e => cases ((Program.play_done_eq_some _).mp hrest).2.1
    | ok rows =>
      cases o with
      | listed ids =>
        obtain ⟨_, hlisted, heq⟩ := Option.map_eq_some_iff.mp hexec
        cases heq
        obtain ⟨-, -, s, hs, -, rfl⟩ := listByUser_eq_ok.mp hlisted
        obtain ⟨o, script, count, t₂, rfl, -, hrest⟩ := (Program.play_call_eq_some _).mp hrest
        refine ⟨s, hs, ?_⟩
        cases count with
        | error e => cases ((Program.play_done_eq_some _).mp hrest).2.1
        | ok count =>
          obtain ⟨-, hanswer, -⟩ := (Program.play_done_eq_some _).mp hrest
          cases hanswer
          rw [List.map_map, Option.getD_some, Option.getD_some, clamp_limit hlow hhigh,
            clamp_offset, Int.toNat_natCast, Int.toNat_natCast]
          exact List.map_id _
      | fail e => cases hexec
      | done | lost => cases hexec

theorem exists_pageAnswer (hrole : Devices.requireRole roles role = .ok ()) (hlow : 1 ≤ limit)
    (hhigh : limit ≤ 100) (k : Nat) {s : List Notification}
    (hs : Paging.Ordering Notification.createdAt (t.userRows user) s) :
    ∃ response, PageAnswer roles upper T role t user limit k response ∧
      response.notifications.map NotificationView.notification = Paging.page limit s k := by
  have hlisted : t.listByUser user limit (k * limit) (s.map Notification.id) =
      some (.ok (Paging.page limit s k)) := by
    refine listByUser_eq_ok.mpr ⟨Int.natCast_nonneg _, ?_, s, hs, rfl, ?_⟩
    · exact Int.mul_nonneg (Int.natCast_nonneg k) (Int.natCast_nonneg limit)
    · rw [← Int.natCast_mul, Int.toNat_natCast, Int.toNat_natCast]
      rfl
  have hrequest : t.listByUser user (min (max ((some (limit : Int)).getD 20) 1) 100)
      (max ((some ((k : Int) * limit)).getD 0) 0) (s.map Notification.id) =
        some (.ok (Paging.page limit s k)) := by
    rwa [Option.getD_some, Option.getD_some, clamp_limit hlow hhigh, clamp_offset, Int.natCast_mul]
  obtain ⟨response, hplay, hrows⟩ := play_listNotifications upper T 0 hrole hrequest
  exact ⟨response, ⟨0, _, hplay⟩, hrows⟩

theorem map_pages {answers : Nat → ListNotificationsResponse} {orders : Nat → List Notification}
    (h : ∀ k, (answers k).notifications.map NotificationView.notification =
      Paging.page limit (orders k) k) (n : Nat) :
    ((List.range n).flatMap fun k => (answers k).notifications).map
      NotificationView.notification = Paging.shown limit orders n := by
  rw [List.map_flatMap, Paging.shown]
  exact congrArg (List.flatMap · (List.range n)) (funext h)

theorem nil_iff_page {response : ListNotificationsResponse} {s : List Notification} {k : Nat}
    (h : response.notifications.map NotificationView.notification = Paging.page limit s k) :
    response.notifications = [] ↔ Paging.page limit s k = [] := by
  rw [← h, List.map_eq_nil_iff]

theorem covers_iff_shown (hrole : Devices.requireRole roles role = .ok ()) (hlow : 1 ≤ limit)
    (hhigh : limit ≤ 100) : Covers roles upper T role t user limit ↔
      ∀ orders : Nat → List Notification,
        (∀ k, Paging.Ordering Notification.createdAt (t.userRows user) (orders k)) →
        ∃ n, Paging.page limit (orders n) n = [] ∧
          (∀ k < n, Paging.page limit (orders k) k ≠ []) ∧
          (Paging.shown limit orders n).Perm (t.userRows user) := by
  constructor
  · intro hcovers orders horders
    have hpage : ∀ k, ∃ response, PageAnswer roles upper T role t user limit k response ∧
        response.notifications.map NotificationView.notification =
          Paging.page limit (orders k) k := fun k =>
      exists_pageAnswer hrole hlow hhigh k (horders k)
    choose answers hanswers hrows using hpage
    obtain ⟨n, hempty, hbefore, hperm⟩ := hcovers answers hanswers
    exact ⟨n, (nil_iff_page (hrows n)).mp hempty,
      fun k hk => mt (nil_iff_page (hrows k)).mpr (hbefore k hk), map_pages hrows n ▸ hperm⟩
  · intro hpages answers hanswers
    choose orders horders hrows using fun k => of_pageAnswer hlow hhigh (hanswers k)
    obtain ⟨n, hempty, hbefore, hperm⟩ := hpages orders horders
    exact ⟨n, (nil_iff_page (hrows n)).mpr hempty,
      fun k hk => mt (nil_iff_page (hrows k)).mp (hbefore k hk), (map_pages hrows n).symm ▸ hperm⟩

theorem nodup_userRows : (t.userRows user).Nodup := t.table.nodup.of_map.filter _

end Walk

/-- A walk covers the list, whatever the orders of equal rows, exactly if no group of rows
created at one time reaches over the end of a page. -/
theorem pagination_covers_iff {Role : Type} {roles : Roles Role} {role : Role}
    (upper : Uppercase) (T : Tera) (t : NotificationTable) (user : Uuid) {limit : Nat}
    (hrole : Devices.requireRole roles role = .ok ()) (hlow : 1 ≤ limit) (hhigh : limit ≤ 100) :
    Covers roles upper T role t user limit ↔ ∀ (createdAt : Int) (k : Nat),
      ¬ ((t.userRows user).countP (createdAt < ·.createdAt) < k * limit ∧
        k * limit < (t.userRows user).countP (createdAt ≤ ·.createdAt)) := by
  rw [covers_iff_shown hrole hlow hhigh, Paging.shown_perm_iff nodup_userRows hlow]
  constructor
  · intro h createdAt k hk
    exact h k ⟨createdAt, hk⟩
  · rintro h k ⟨createdAt, hk⟩
    exact h createdAt k hk

def sampleRoles : Roles String :=
  ⟨"api-gateway", "admin", fun role allowed =>
    if role ∈ allowed then .ok () else .error (403, "role not permitted")⟩

def NotificationTable.twoRows (later : Int) : NotificationTable where
  table := ⟨[{ Request.sample.notification ⟨1⟩ 0 0 0 with userId := some ⟨7⟩ },
    { Request.sample.notification ⟨2⟩ 0 later 0 with userId := some ⟨7⟩ }], by
      simp [Request.notification]⟩
  keysUnique := by simp [Request.notification, Request.sample]

theorem pagination_covers_apart :
    Covers sampleRoles sampleUpper .sample "admin" (.twoRows 5) ⟨7⟩ 1 := by
  refine (pagination_covers_iff sampleUpper .sample (.twoRows 5) ⟨7⟩ rfl le_rfl (by decide)).mpr
    fun createdAt k => ?_
  have hapart : ((twoRows 5).userRows ⟨7⟩ |>.map Notification.createdAt).Nodup := by decide
  exact fun hk => Paging.not_straddles_of_nodup hapart _ ⟨createdAt, hk⟩

/-- Two rows created at one time, one row a page: the same row can stand on both. -/
theorem pagination_repeats : ¬ ∀ (t : NotificationTable) (user : Uuid) (limit : Nat), 1 ≤ limit →
    limit ≤ 100 → Covers sampleRoles sampleUpper .sample "admin" t user limit := by
  intro h
  have hcovers := (covers_iff_shown rfl le_rfl (by decide)).mp
    (h (.twoRows 0) ⟨7⟩ 1 le_rfl (by decide))
  exact (Paging.shown_perm_iff nodup_userRows one_pos).mp hcovers 1 ⟨0, by decide, by decide⟩

end NotiService
