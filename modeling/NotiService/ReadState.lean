import NotiService.Pagination

/-! What reading does to the rows. A call touches the unread rows of its user and nothing else,
the count agrees with the list, and marking a row read moves the `updated_at` by which
`reset_stuck_processing` tells a stuck row. -/

namespace NotiService
open Foundation NotificationTable

inductive ReadCall where
  | markAsRead (id userId : Uuid)
  | markAllAsRead (userId : Uuid)
deriving DecidableEq, Repr

def ReadCall.user : ReadCall → Uuid
  | .markAsRead _ userId | .markAllAsRead userId => userId

/-- The row is in the WHERE of the call. -/
def ReadCall.guard : ReadCall → Notification → Bool
  | .markAsRead id userId, n => n.id = id ∧ n.userId = some userId ∧ n.readAt = none
  | .markAllAsRead userId, n => n.userId = some userId ∧ n.readAt = none

namespace NotificationTable

def readBy (t : NotificationTable) (now : Int) : ReadCall → NotificationTable
  | .markAsRead id userId => t.markAsRead now id userId
  | .markAllAsRead userId => t.markAllAsRead now userId

/-- `reset_stuck_processing` at `now` moves the row from `Processing` to `Pending`. -/
def Moves (t : NotificationTable) (now secs : Int) (id : Uuid) : Prop :=
  ∃ n n', t.getById id = some n ∧ (t.resetStuckProcessing now secs).getById id = some n' ∧
    n.status = .processing ∧ n'.status = .pending

def IsDue (t : NotificationTable) (now : Int) (id : Uuid) : Prop :=
  ∃ n ∈ t.dueRows now, n.id = id

variable {t : NotificationTable} {now now' t₁ t₂ secs : Int} {c : ReadCall} {id user : Uuid}
  {n : Notification}

theorem ReadCall.guard_spec (h : c.guard n) : n.userId = some c.user ∧ n.readAt = none := by
  cases c <;> simp_all [ReadCall.guard, ReadCall.user]

theorem ReadCall.guard_read : c.guard (read now n) = false := by
  cases c <;> simp [ReadCall.guard, read]

theorem rows_readBy (t : NotificationTable) (now : Int) (c : ReadCall) :
    (t.readBy now c).rows = t.rows.map fun n => if c.guard n then read now n else n := by
  cases c <;> rfl

theorem getById_readBy (t : NotificationTable) (now : Int) (c : ReadCall) (k : Uuid) :
    (t.readBy now c).getById k =
      (t.getById k).map fun n => if c.guard n then read now n else n := by
  cases c with
  | markAsRead id userId => exact getById_markAsRead ..
  | markAllAsRead userId => exact getById_markAllAsRead ..

theorem moves_iff : t.Moves now secs id ↔ ∃ n, t.getById id = some n ∧ stuck now secs n := by
  constructor
  · rintro ⟨n, n', hn, hn', hprocessing, hpending⟩
    refine ⟨n, hn, ?_⟩
    rw [getById_resetStuckProcessing, hn, Option.map_some] at hn'
    obtain rfl := Option.some.inj hn'
    by_contra hstuck
    rw [if_neg hstuck, hprocessing] at hpending
    cases hpending
  · rintro ⟨n, hn, hstuck⟩
    refine ⟨n, reset now n, hn, ?_, ?_, rfl⟩
    · rw [getById_resetStuckProcessing, hn, Option.map_some, if_pos hstuck]
    · rw [stuck, decide_eq_true_iff] at hstuck
      exact hstuck.1

theorem isDue_iff : t.IsDue now id ↔ ∃ n, t.getById id = some n ∧ due now n := by
  constructor
  · rintro ⟨n, hn, rfl⟩
    exact ⟨n, mem_dueRows.mp hn⟩
  · rintro ⟨n, hn, hdue⟩
    obtain rfl := id_of_getById hn
    exact ⟨n, mem_dueRows.mpr ⟨hn, hdue⟩, rfl⟩

theorem isDue_readBy : (t.readBy t₁ c).IsDue t₂ id ↔ t.IsDue t₂ id := by
  rw [isDue_iff, isDue_iff, getById_readBy]
  cases t.getById id with
  | none => simp
  | some n => by_cases h : c.guard n <;> simp [h, due, read]

theorem stuck_read : stuck t₂ secs (read t₁ n) ↔
    n.status = .processing ∧ t₁ < t₂ - secs * 1000 := by
  exact decide_eq_true_iff

theorem moves_readBy : ((t.readBy t₁ c).Moves t₂ secs id ↔ t.Moves t₂ secs id) ↔
    ∀ n, t.getById id = some n → c.guard n → n.status = .processing →
      (n.updatedAt < t₂ - secs * 1000 ↔ t₁ < t₂ - secs * 1000) := by
  rw [moves_iff, moves_iff, getById_readBy]
  cases t.getById id with
  | none => simp
  | some n =>
    by_cases hguard : c.guard n
    · simp only [Option.map_some, hguard, if_true, Option.some.injEq, exists_eq_left',
        stuck_read]
      rw [stuck, decide_eq_true_iff]
      constructor
      · rintro h _ rfl - hprocessing
        simpa [hprocessing] using h.symm
      · intro h
        by_cases hprocessing : n.status = .processing
        · simpa [hprocessing] using (h n rfl hguard hprocessing).symm
        · simp [hprocessing]
    · simp [hguard]

end NotificationTable

def NotificationTable.crashed : NotificationTable where
  table := ⟨[{ Request.sample.notification ⟨1⟩ 0 0 0 with
    userId := some ⟨7⟩, status := .processing }], by decide⟩
  keysUnique := by simp

/-- Reading never changes which rows are due. It leaves what a reset moves to `Pending` as it
is, exactly if no processing row that it marks is on one side of the reset's cut-off by its own
`updated_at` and on the other by the time of the call. -/
theorem reading_keeps_recovery_iff (t : NotificationTable) (c : ReadCall) (t₁ t₂ secs : Int) :
    (∀ id, ((t.readBy t₁ c).Moves t₂ secs id ↔ t.Moves t₂ secs id) ∧
      ((t.readBy t₁ c).IsDue t₂ id ↔ t.IsDue t₂ id)) ↔
    ∀ n ∈ t.rows, c.guard n → n.status = .processing →
      (n.updatedAt < t₂ - secs * 1000 ↔ t₁ < t₂ - secs * 1000) := by
  constructor
  · intro h n hn
    exact moves_readBy.mp (h n.id).1 n (mem_rows_iff.mp hn)
  · intro h id
    refine ⟨moves_readBy.mpr fun n hn => ?_, isDue_readBy⟩
    have hmem : n ∈ t.rows := mem_rows_iff.mpr (id_of_getById hn ▸ hn)
    exact h n hmem

/-- A row stuck since 0 is not reset at 500 s with a threshold of 300 s, once it is read at
400 s. -/
theorem reading_hides_stuck : ¬ ∀ (t : NotificationTable) (c : ReadCall) (t₁ t₂ secs : Int),
    t₁ ≤ t₂ → ∀ id, ((t.readBy t₁ c).Moves t₂ secs id ↔ t.Moves t₂ secs id) ∧
      ((t.readBy t₁ c).IsDue t₂ id ↔ t.IsDue t₂ id) := by
  intro h
  have hsame := (h .crashed (.markAllAsRead ⟨7⟩) 400000 500000 300 (by decide) ⟨1⟩).1
  have hcut := moves_readBy.mp hsame _ rfl rfl rfl
  exact absurd (hcut.mp (by decide)) (by decide)

def UserRequest.readCall (userId : Uuid) : UserRequest → Option ReadCall
  | .list _ _ => none
  | .markAsRead id => some (.markAsRead id userId)
  | .markAllAsRead => some (.markAllAsRead userId)

section Effects

variable {Role : Type} {roles : Roles Role} {parseStr : String → Option Uuid} {upper : Uppercase}
  {T : Tera} {role : Role} {user id : Uuid} {clock : Int} {script : List UserOutcome}
  {t t' : NotificationTable} {r : UserApiRequest Role} {answer : UserAnswer}

/-- What a request did: nothing that counts or that it calls a success, or the call of its user
at the time of its statement. -/
def Effect (parseStr : String → Option Uuid) (r : UserApiRequest Role)
    (script : List UserOutcome) (answer : UserAnswer) (t t' : NotificationTable) : Prop :=
  (t' = t ∧ answer ≠ .ok .success ∧ ∀ userId c, Devices.userContext parseStr r.userId = .ok userId →
      r.request.readCall userId = some c → script.findSome? UserOutcome.committed = none) ∨
    ∃ userId c now, Devices.userContext parseStr r.userId = .ok userId ∧
      r.request.readCall userId = some c ∧
      script.findSome? UserOutcome.committed = some now ∧ t' = t.readBy now c

theorem listNotifications_effect {limit offset : Option Int}
    (h : Program.play execUser
      (UserHandlers.listNotifications roles upper T clock role user limit offset) script t =
        some (answer, t')) :
    t' = t ∧ answer ≠ .ok .success ∧ ∀ response, answer = .ok (.listed response) →
      response.unreadCount = t.getUnreadCount user := by
  unfold UserHandlers.listNotifications at h
  split at h
  · obtain ⟨-, rfl, rfl⟩ := (Program.play_done_eq_some _).mp h
    exact ⟨rfl, by simp, by simp⟩
  · obtain ⟨o, script, rows, t₁, rfl, hexec, hrest⟩ := (Program.play_call_eq_some _).mp h
    have hsame : t₁ = t := by
      cases o with
      | listed ids =>
        obtain ⟨_, -, heq⟩ := Option.map_eq_some_iff.mp hexec
        exact (Prod.mk.inj heq).2.symm
      | fail e => exact (Prod.mk.inj (Option.some.inj hexec)).2.symm
      | done | lost => cases hexec
    subst hsame
    simp only [Program.bind] at hrest
    cases hviews : listUserNotificationViews upper T clock rows with
    | error e =>
      rw [hviews] at hrest
      obtain ⟨-, rfl, rfl⟩ := (Program.play_done_eq_some _).mp hrest
      exact ⟨rfl, by simp, by simp⟩
    | ok views =>
      rw [hviews] at hrest
      obtain ⟨o, script, count, t₂, rfl, hexec, hrest⟩ := (Program.play_call_eq_some _).mp hrest
      cases o with
      | done now =>
        cases hexec
        obtain ⟨-, rfl, rfl⟩ := (Program.play_done_eq_some _).mp hrest
        refine ⟨rfl, by simp, fun response hlisted => ?_⟩
        cases hlisted
        rfl
      | fail e =>
        cases hexec
        obtain ⟨-, rfl, rfl⟩ := (Program.play_done_eq_some _).mp hrest
        exact ⟨rfl, by simp, by simp⟩
      | lost | listed => cases hexec

theorem of_play_mark {op : UserOp (Except NotiError Unit)} {rest : Except NotiError Unit →
      Program UserOp UserAnswer} {c : ReadCall}
    (hop : ∀ o, execUser o op t = match o with
      | .done now => some (.ok (), t.readBy now c)
      | .lost now e => some (.error e, t.readBy now c)
      | .fail e => some (.error e, t)
      | .listed _ => none)
    (hrest : ∀ result, ∃ value, rest result = .done value ∧
      (value = .ok .success → result = .ok ()))
    (h : Program.play execUser (.call op rest) script t = some (answer, t')) :
    (t' = t ∧ answer ≠ .ok .success ∧ script.findSome? UserOutcome.committed = none) ∨
      ∃ now, script.findSome? UserOutcome.committed = some now ∧ t' = t.readBy now c := by
  obtain ⟨o, script, result, t₁, rfl, hexec, h⟩ := (Program.play_call_eq_some _).mp h
  obtain ⟨value, hp, hsuccess⟩ := hrest result
  rw [hp] at h
  obtain ⟨rfl, rfl, rfl⟩ := (Program.play_done_eq_some _).mp h
  rw [hop] at hexec
  cases o with
  | done now | lost now _ =>
    cases hexec
    exact .inr ⟨now, rfl, rfl⟩
  | fail e =>
    cases hexec
    exact .inl ⟨rfl, fun hanswer => absurd (hsuccess hanswer) (by simp), rfl⟩
  | listed ids => cases hexec

theorem markNotificationAsRead_effect
    (h : Program.play execUser (UserHandlers.markNotificationAsRead roles role user id) script t =
      some (answer, t')) :
    (t' = t ∧ answer ≠ .ok .success ∧ script.findSome? UserOutcome.committed = none) ∨
      ∃ now, script.findSome? UserOutcome.committed = some now ∧
        t' = t.readBy now (.markAsRead id user) := by
  unfold UserHandlers.markNotificationAsRead at h
  split at h
  · obtain ⟨rfl, rfl, rfl⟩ := (Program.play_done_eq_some _).mp h
    exact .inl ⟨rfl, by simp, rfl⟩
  · refine of_play_mark (fun o => by cases o <;> rfl) (fun result => ?_) h
    cases result with
    | error e => exact ⟨_, rfl, by simp⟩
    | ok => exact ⟨_, rfl, fun _ => rfl⟩

theorem markAllNotificationsAsRead_effect
    (h : Program.play execUser (UserHandlers.markAllNotificationsAsRead roles role user) script t =
      some (answer, t')) :
    (t' = t ∧ answer ≠ .ok .success ∧ script.findSome? UserOutcome.committed = none) ∨
      ∃ now, script.findSome? UserOutcome.committed = some now ∧
        t' = t.readBy now (.markAllAsRead user) := by
  unfold UserHandlers.markAllNotificationsAsRead at h
  split at h
  · obtain ⟨rfl, rfl, rfl⟩ := (Program.play_done_eq_some _).mp h
    exact .inl ⟨rfl, by simp, rfl⟩
  · refine of_play_mark (fun o => by cases o <;> rfl) (fun result => ?_) h
    cases result with
    | error e => exact ⟨_, rfl, by simp⟩
    | ok => exact ⟨_, rfl, fun _ => rfl⟩

theorem handle_effect
    (h : Program.play execUser (UserHandlers.handle roles parseStr upper T clock r) script t =
      some (answer, t')) : Effect parseStr r script answer t t' := by
  unfold UserHandlers.handle at h
  split at h
  · next e huser =>
    obtain ⟨-, rfl, rfl⟩ := (Program.play_done_eq_some _).mp h
    refine .inl ⟨rfl, by simp, fun userId _ hok => ?_⟩
    rw [huser] at hok
    cases hok
  · next user huser =>
    have hcall : ∀ c, r.request.readCall user = some c →
        ((t' = t ∧ answer ≠ .ok .success ∧ script.findSome? UserOutcome.committed = none) ∨
          ∃ now, script.findSome? UserOutcome.committed = some now ∧ t' = t.readBy now c) →
        Effect parseStr r script answer t t' := by
      rintro c hc (⟨rfl, hanswer, hnone⟩ | ⟨now, hnow, rfl⟩)
      · exact .inl ⟨rfl, hanswer, fun _ _ _ _ => hnone⟩
      · exact .inr ⟨user, c, now, huser, hc, hnow, rfl⟩
    split at h
    · next hr =>
      obtain ⟨hsame, hanswer, -⟩ := listNotifications_effect h
      refine .inl ⟨hsame, hanswer, fun userId c _ hc => ?_⟩
      rw [hr] at hc
      cases hc
    · next id hr => exact hcall _ (by rw [hr]; rfl) (markNotificationAsRead_effect h)
    · next hr => exact hcall _ (by rw [hr]; rfl) (markAllNotificationsAsRead_effect h)

end Effects

namespace NotificationTable

variable {t t' : NotificationTable} {c c' : ReadCall} {now : Int} {user : Uuid}

theorem eq_of_rows (h : t.rows = t'.rows) : t = t' := by
  obtain ⟨⟨rows, _⟩, _⟩ := t
  obtain ⟨⟨rows', _⟩, _⟩ := t'
  cases (show rows = rows' from h)
  rfl

def Settled (t : NotificationTable) (c : ReadCall) : Prop := ∀ n ∈ t.rows, c.guard n = false

theorem settled_readBy : (t.readBy now c).Settled c := by
  intro n hn
  rw [rows_readBy] at hn
  obtain ⟨m, -, rfl⟩ := List.mem_map.mp hn
  by_cases hguard : c.guard m
  · rw [if_pos hguard, ReadCall.guard_read]
  · rw [if_neg hguard, Bool.eq_false_iff.mpr hguard]

theorem Settled.readBy (h : t.Settled c) : (t.readBy now c').Settled c := by
  intro n hn
  rw [rows_readBy] at hn
  obtain ⟨m, hm, rfl⟩ := List.mem_map.mp hn
  by_cases hguard : c'.guard m
  · rw [if_pos hguard, ReadCall.guard_read]
  · rw [if_neg hguard, h m hm]

theorem Settled.readBy_self (h : t.Settled c) : t.readBy now c = t := by
  apply eq_of_rows
  rw [rows_readBy]
  refine (List.map_congr_left fun n hn => ?_).trans (List.map_id t.rows)
  rw [h n hn]
  rfl

theorem getUnreadCount_eq {rows : List Notification} {limit : Int} {ids : List Uuid}
    (h : t.listByUser user limit 0 ids = some (.ok rows))
    (hwhole : (t.userRows user).length ≤ limit) :
    t.getUnreadCount user = rows.countP fun n => !n.readAt.isSome := by
  obtain ⟨-, -, s, ⟨hperm, -⟩, -, rfl⟩ := listByUser_eq_ok.mp h
  rw [Int.toNat_zero, List.drop_zero, List.take_of_length_le (by rw [hperm.length_eq]; omega),
    hperm.countP_eq, userRows, List.countP_filter, getUnreadCount]
  congr 1
  refine List.countP_congr fun n _ => ?_
  cases n.readAt <;> simp

theorem getUnreadCount_of_settled (h : t.Settled (.markAllAsRead user)) :
    t.getUnreadCount user = 0 := by
  rw [getUnreadCount, List.countP_eq_zero.mpr fun n hn => ?_]
  · rfl
  · exact Bool.eq_false_iff.mp (h n hn)

def OnlyReads (t t' : NotificationTable) (user : Uuid) (now : Int) : Prop :=
  ∀ id, (t.getById id = none → t'.getById id = none) ∧ ∀ n, t.getById id = some n →
    t'.getById id = some n ∨ n.userId = some user ∧ n.readAt = none ∧
      t'.getById id = some { n with readAt := some now, updatedAt := now }

theorem onlyReads_readBy : t.OnlyReads (t.readBy now c) c.user now := by
  intro id
  rw [getById_readBy]
  refine ⟨fun h => by rw [h]; rfl, fun n hn => ?_⟩
  rw [hn, Option.map_some]
  by_cases hguard : c.guard n
  · rw [if_pos hguard]
    exact .inr ⟨(ReadCall.guard_spec hguard).1, (ReadCall.guard_spec hguard).2, rfl⟩
  · exact .inl (by rw [if_neg hguard])

end NotificationTable

theorem UserRequest.user_readCall {request : UserRequest} {userId : Uuid} {c : ReadCall}
    (h : request.readCall userId = some c) : c.user = userId := by
  cases request <;> cases h <;> rfl

section System

variable {Role : Type} {roles : Roles Role} {parseStr : String → Option Uuid} {upper : Uppercase}
  {T : Tera} {t₀ t t' : NotificationTable} {c : ReadCall} {r : UserApiRequest Role}
  {l : UserApiRequest Role × Int × List UserOutcome}
  {ls : List (UserApiRequest Role × Int × List UserOutcome)}

theorem Effect.settled {script : List UserOutcome} {answer : UserAnswer}
    (h : Effect parseStr r script answer t t')
    (hsettled : t.Settled c) : t'.Settled c := by
  rcases h with ⟨rfl, -⟩ | ⟨_, _, _, -, -, -, rfl⟩
  · exact hsettled
  · exact hsettled.readBy

theorem settled_run (hsettled : t.Settled c)
    (h : (userSystem roles parseStr upper T t₀).run t ls = some t') : t'.Settled c := by
  refine System.run_invariant (P := fun t => t.Settled c) ?_ hsettled
    (show ∀ l ∈ ls, True from fun _ _ => trivial) h
  rintro t ⟨r, clock, script⟩ t' ht - hs
  obtain ⟨⟨answer, t''⟩, hplay, rfl⟩ := Option.map_eq_some_iff.mp hs
  exact (handle_effect hplay).settled ht

theorem handle_answers (hrole : Devices.requireRole roles r.role = .ok ()) {user : Uuid}
    (huser : Devices.userContext parseStr r.userId = .ok user) (clock : Int) :
    (∀ limit offset, r.request = .list limit offset → ∃ script response, Program.play execUser
      (UserHandlers.handle roles parseStr upper T clock r) script t =
        some (.ok (.listed response), t)) ∧
    ∀ c, r.request.readCall user = some c → ∀ now, Program.play execUser
      (UserHandlers.handle roles parseStr upper T clock r) [.done now] t =
        some (.ok .success, t.readBy now c) := by
  unfold UserHandlers.handle
  rw [huser]
  cases hr : r.request with
  | list limit offset =>
    refine ⟨fun _ _ h => ?_, fun c hc => absurd hc (by simp [UserRequest.readCall])⟩
    cases h
    obtain ⟨ids, rows, hlisted⟩ := exists_listByUser t user
      (show 0 ≤ min (max (limit.getD 20) 1) 100 by omega) (le_max_right (offset.getD 0) 0)
    obtain ⟨response, hplay, -⟩ := play_listNotifications upper T clock hrole hlisted
    exact ⟨_, response, hplay⟩
  | markAsRead id =>
    refine ⟨fun _ _ h => UserRequest.noConfusion h, fun c hc now => ?_⟩
    cases hc
    simp only [UserHandlers.markNotificationAsRead, hrole]
    rfl
  | markAllAsRead =>
    refine ⟨fun _ _ h => UserRequest.noConfusion h, fun c hc now => ?_⟩
    cases hc
    simp only [UserHandlers.markAllNotificationsAsRead, hrole]
    rfl

end System

/-- At every point of every sequence of requests: the count is the number of unread views in
the whole list, which some order of its rows makes the query answer; a permitted request is
answered; a request changes only rows of its user, and of those only their read state; a list
answers the count; a success is a statement that has committed, and behind it the row is read,
or the count is 0; and a request that has been carried out changes nothing when it comes again,
whatever came between. -/
theorem read_state_consistent {Role : Type} (roles : Roles Role)
    (parseStr : String → Option Uuid) (upper : Uppercase) (T : Tera) (t₀ : NotificationTable) :
    (∀ t, (userSystem roles parseStr upper T t₀).Reachable System.always t →
      ∀ user (limit : Int), (t.userRows user).length ≤ limit →
        (∃ ids, ∀ clock, ∃ views, (t.listByUser user limit 0 ids).map
          (listUserNotificationViews upper T clock) = some (.ok views)) ∧
        ∀ ids clock views, (t.listByUser user limit 0 ids).map
            (listUserNotificationViews upper T clock) = some (.ok views) →
          t.getUnreadCount user = views.countP fun v => !v.isRead) ∧
    (∀ t, (userSystem roles parseStr upper T t₀).Reachable System.always t →
      ∀ r clock user, Devices.requireRole roles r.role = .ok () →
        Devices.userContext parseStr r.userId = .ok user →
        (∀ limit offset, r.request = .list limit offset → ∃ script response,
          Program.play execUser (UserHandlers.handle roles parseStr upper T clock r) script t =
            some (.ok (.listed response), t)) ∧
        ∀ c, r.request.readCall user = some c → ∀ now, Program.play execUser
          (UserHandlers.handle roles parseStr upper T clock r) [.done now] t =
            some (.ok .success, t.readBy now c)) ∧
    ∀ t, (userSystem roles parseStr upper T t₀).Reachable System.always t →
      ∀ r clock script answer t', Program.play execUser
          (UserHandlers.handle roles parseStr upper T clock r) script t = some (answer, t') →
        (t' = t ∨ ∃ user now, Devices.userContext parseStr r.userId = .ok user ∧
          script.findSome? UserOutcome.committed = some now ∧ t.OnlyReads t' user now) ∧
        (∀ user limit offset response, Devices.userContext parseStr r.userId = .ok user →
          r.request = .list limit offset → answer = .ok (.listed response) →
          response.unreadCount = t'.getUnreadCount user) ∧
        (answer = .ok .success → (script.findSome? UserOutcome.committed).isSome) ∧
        ((script.findSome? UserOutcome.committed).isSome →
          (∀ user, Devices.userContext parseStr r.userId = .ok user →
            (∀ id n, r.request = .markAsRead id → t'.getById id = some n →
              n.userId = some user → n.readAt.isSome) ∧
            (r.request = .markAllAsRead → t'.getUnreadCount user = 0)) ∧
          ∀ ls t₁, (userSystem roles parseStr upper T t₀).run t' ls = some t₁ →
            ∀ clock₁ script₁ answer₁ t₂, Program.play execUser
              (UserHandlers.handle roles parseStr upper T clock₁ r) script₁ t₁ =
                some (answer₁, t₂) → t₂ = t₁) := by
  refine ⟨fun t _ user limit hwhole => ⟨?_, fun ids clock views hviews => ?_⟩,
    fun t _ r clock user hrole huser => handle_answers hrole huser clock,
    fun t _ r clock script answer t' hplay => ⟨?_, ?_, ?_, ?_⟩⟩
  · obtain ⟨ids, rows, hlisted⟩ := exists_listByUser t user
      (show 0 ≤ limit by omega) (le_refl (0 : Int))
    exact ⟨ids, fun clock => ⟨_, by rw [hlisted]; rfl⟩⟩
  · obtain ⟨listed, hlisted, hmap⟩ := Option.map_eq_some_iff.mp hviews
    cases listed with
    | error e => cases hmap
    | ok rows =>
      cases hmap
      rw [getUnreadCount_eq hlisted hwhole, List.countP_map]
      rfl
  · rcases handle_effect hplay with ⟨rfl, -⟩ | ⟨user, c, now, huser, hc, hnow, rfl⟩
    · exact .inl rfl
    · exact .inr ⟨user, now, huser, hnow, UserRequest.user_readCall hc ▸ onlyReads_readBy⟩
  · intro user limit offset response huser hr hanswer
    unfold UserHandlers.handle at hplay
    rw [huser, hr] at hplay
    obtain ⟨rfl, -, hcount⟩ := listNotifications_effect hplay
    exact hcount response hanswer
  · intro hanswer
    rcases handle_effect hplay with ⟨-, hother, -⟩ | ⟨user, c, now, -, -, hnow, -⟩
    · exact absurd hanswer hother
    · rw [hnow]
      rfl
  · intro hcommitted
    have heffect := handle_effect hplay
    have hsettled : ∀ user c, Devices.userContext parseStr r.userId = .ok user →
        r.request.readCall user = some c → t'.Settled c := by
      intro user c huser hc
      rcases heffect with ⟨-, -, hnone⟩ | ⟨user', c', now, huser', hc', -, rfl⟩
      · rw [hnone user c huser hc] at hcommitted
        cases hcommitted
      · obtain rfl : user' = user := Except.ok.inj (huser'.symm.trans huser)
        obtain rfl : c' = c := Option.some.inj (hc'.symm.trans hc)
        exact settled_readBy
    refine ⟨fun user huser => ⟨fun id n hr hn howner => ?_, fun hr => ?_⟩,
      fun ls t₁ hrun clock₁ script₁ answer₁ t₂ hplay₁ => ?_⟩
    · have hguard := hsettled user (.markAsRead id user) huser (by rw [hr]; rfl) n
        (mem_rows_iff.mpr (id_of_getById hn ▸ hn))
      rw [Option.isSome_iff_ne_none]
      intro hunread
      simp [ReadCall.guard, id_of_getById hn, howner, hunread] at hguard
    · exact getUnreadCount_of_settled (hsettled user _ huser (by rw [hr]; rfl))
    · rcases handle_effect hplay₁ with ⟨rfl, -⟩ | ⟨user, c, now, huser, hc, -, rfl⟩
      · rfl
      · exact (settled_run (hsettled user c huser hc) hrun).readBy_self

/-- User 7 has two unread rows, marks all read at 9, and has none. -/
theorem read_state_consistent_marked : ∃ ids views t',
    ((twoRows 0).listByUser ⟨7⟩ 2 0 ids).map (listUserNotificationViews sampleUpper .sample 0) =
      some (.ok views) ∧ views.countP (fun v => !v.isRead) = 2 ∧
    Program.play execUser (UserHandlers.handle sampleRoles (fun _ => some ⟨7⟩) sampleUpper .sample 0
      ⟨"admin", some "7", .markAllAsRead⟩) [.done 9] (.twoRows 0) = some (.ok .success, t') ∧
    t'.getUnreadCount ⟨7⟩ = 0 := by
  obtain ⟨hlists, hanswers, hrequests⟩ := read_state_consistent sampleRoles
    (fun _ => some ⟨7⟩) sampleUpper .sample (.twoRows 0)
  have hstart : (userSystem sampleRoles (fun _ => some ⟨7⟩) sampleUpper .sample
      (.twoRows 0)).Reachable System.always (.twoRows 0) := .start rfl
  obtain ⟨⟨ids, hids⟩, hcount⟩ := hlists _ hstart ⟨7⟩ 2 (by decide)
  obtain ⟨views, hviews⟩ := hids 0
  have hunread : (twoRows 0).getUnreadCount ⟨7⟩ = 2 := by decide
  rw [hcount _ _ _ hviews] at hunread
  have hplay := (hanswers _ hstart ⟨"admin", some "7", .markAllAsRead⟩ 0 ⟨7⟩ rfl rfl).2 _ rfl 9
  obtain ⟨-, -, hsuccess, hcommitted⟩ := hrequests _ hstart _ _ _ _ _ hplay
  have hzero := ((hcommitted (hsuccess rfl)).1 ⟨7⟩ rfl).2 rfl
  exact ⟨ids, views, _, hviews, Int.ofNat_inj.mp hunread, hplay, hzero⟩

end NotiService
