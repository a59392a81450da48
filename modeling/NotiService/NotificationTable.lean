import NotiService.Domain
import NotiService.Foundation.KeyedTable

/-! The `notifications` table and the SQL of `NotificationRepository`, one definition
a statement. `now` is NOW() and the service clock alike. The primary key and the
UNIQUE constraint on `idempotency_key` are fields of the table type. -/

namespace NotiService
open Foundation

structure NotificationTable where
  table : KeyedTable Notification.id
  keysUnique : ∀ m ∈ table.rows, ∀ n ∈ table.rows, ∀ key,
    m.idempotencyKey = some key → n.idempotencyKey = some key → m = n

namespace NotificationTable

def empty : NotificationTable := ⟨.empty, by simp [KeyedTable.empty]⟩

def rows (t : NotificationTable) : List Notification := t.table.rows

def getById (t : NotificationTable) (id : Uuid) : Option Notification := t.table.get id

def getByIdempotencyKey (t : NotificationTable) (key : String) : Option Notification :=
  t.rows.find? fun n => n.idempotencyKey = some key

theorem getByIdempotencyKey_eq_none {t : NotificationTable} {key : String} :
    t.getByIdempotencyKey key = none ↔ ∀ n ∈ t.rows, n.idempotencyKey ≠ some key := by
  simp [getByIdempotencyKey]

theorem mem_rows_iff {t : NotificationTable} {n : Notification} :
    n ∈ t.rows ↔ t.getById n.id = some n := t.table.mem_iff_get

theorem id_of_getById {t : NotificationTable} {id : Uuid} {n : Notification}
    (h : t.getById id = some n) : n.id = id := t.table.key_of_get h

def updateWhere (t : NotificationTable) (p : Notification → Bool)
    (f : Notification → Notification) (hid : ∀ n, (f n).id = n.id)
    (hkey : ∀ n, (f n).idempotencyKey = n.idempotencyKey) : NotificationTable where
  table := t.table.updateWhere p f hid
  keysUnique := by
    have same : ∀ n, (if p n then f n else n).idempotencyKey = n.idempotencyKey := by
      intro n
      by_cases h : p n <;> simp [h, hkey]
    intro m hm n hn key hmk hnk
    obtain ⟨m₀, hm₀, rfl⟩ := List.mem_map.mp hm
    obtain ⟨n₀, hn₀, rfl⟩ := List.mem_map.mp hn
    rw [same] at hmk hnk
    rw [t.keysUnique m₀ hm₀ n₀ hn₀ key hmk hnk]

theorem getById_updateWhere (t : NotificationTable) (p : Notification → Bool)
    (f : Notification → Notification) (hid : ∀ n, (f n).id = n.id)
    (hkey : ∀ n, (f n).idempotencyKey = n.idempotencyKey) (id : Uuid) :
    (t.updateWhere p f hid hkey).getById id =
      (t.getById id).map fun n => if p n then f n else n :=
  t.table.get_updateWhere p f hid id

theorem getById_updateId (t : NotificationTable) (id : Uuid)
    (f : Notification → Notification) (hid : ∀ n, (f n).id = n.id)
    (hkey : ∀ n, (f n).idempotencyKey = n.idempotencyKey) (k : Uuid) :
    (t.updateWhere (fun n => n.id = id) f hid hkey).getById k =
      if k = id then (t.getById id).map f else t.getById k := by
  rw [getById_updateWhere]
  cases h : t.getById k with
  | none =>
    by_cases hk : k = id
    · simp [hk, hk ▸ h]
    · simp [hk]
  | some n =>
    have hn := id_of_getById h
    by_cases hk : k = id
    · simp [hk, hk ▸ h, hn]
    · simp [hk, hn]

/-- The columns the INSERT binds; the others take their defaults. -/
def insertedRow (n : Notification) : Notification :=
  { n with
    providerId := none
    providerRef := none
    retryCount := 0
    errorMessage := none
    sentAt := none
    readAt := none }

/-- `INSERT … ON CONFLICT (idempotency_key) DO UPDATE SET idempotency_key =
EXCLUDED.idempotency_key RETURNING …`. A conflict writes the key it already has,
so the stored row comes back unchanged. An id that exists already is an error. -/
def create (t : NotificationTable) (n : Notification) :
    Except NotiError (Notification × NotificationTable) :=
  match h : n.idempotencyKey.bind t.getByIdempotencyKey with
  | some existing => .ok (existing, t)
  | none =>
    if hid : t.getById n.id = none then
      .ok (insertedRow n,
        { table := t.table.insert (insertedRow n) hid
          keysUnique := by
            have fresh : ∀ m ∈ t.rows, ∀ key, n.idempotencyKey = some key →
                m.idempotencyKey ≠ some key := by
              intro m hm key hkey
              rw [hkey] at h
              simpa using List.find?_eq_none.mp h m hm
            intro a ha b hb key hak hbk
            rcases List.mem_append.mp ha with ha | ha <;>
              rcases List.mem_append.mp hb with hb | hb
            · exact t.keysUnique a ha b hb key hak hbk
            · obtain rfl := List.mem_singleton.mp hb
              exact absurd hak (fresh a ha key hbk)
            · obtain rfl := List.mem_singleton.mp ha
              exact absurd hbk (fresh b hb key hak)
            · rw [List.mem_singleton.mp ha, List.mem_singleton.mp hb] })
    else
      .error (.database
        "duplicate key value violates unique constraint \"notifications_pkey\"")

def withStatus (now : Int) (status : NotificationStatus) (error providerRef : Option String)
    (n : Notification) : Notification :=
  { n with
    status
    errorMessage := error
    providerRef
    sentAt := (if status = .sent then some now else none).or n.sentAt
    updatedAt := now }

def updateStatus (t : NotificationTable) (now : Int) (id : Uuid)
    (status : NotificationStatus) (error providerRef : Option String) : NotificationTable :=
  t.updateWhere (fun n => n.id = id) (withStatus now status error providerRef)
    (fun _ => rfl) (fun _ => rfl)

def withRetry (now nextRetryAt : Int) (n : Notification) : Notification :=
  { n with retryCount := n.retryCount + 1, nextRetryAt, updatedAt := now }

def incrementRetry (t : NotificationTable) (now : Int) (id : Uuid) (nextRetryAt : Int) :
    NotificationTable :=
  t.updateWhere (fun n => n.id = id) (withRetry now nextRetryAt) (fun _ => rfl) (fun _ => rfl)

def stuck (now stuckThresholdSecs : Int) (n : Notification) : Bool :=
  n.status = .processing ∧ n.updatedAt < now - stuckThresholdSecs * 1000

def reset (now : Int) (n : Notification) : Notification :=
  { n with status := .pending, nextRetryAt := now, updatedAt := now }

def resetStuckProcessing (t : NotificationTable) (now stuckThresholdSecs : Int) :
    NotificationTable :=
  t.updateWhere (stuck now stuckThresholdSecs) (reset now) (fun _ => rfl) (fun _ => rfl)

def stuckCount (t : NotificationTable) (now stuckThresholdSecs : Int) : Nat :=
  t.rows.countP (stuck now stuckThresholdSecs)

def read (now : Int) (n : Notification) : Notification :=
  { n with readAt := some now, updatedAt := now }

def markAsRead (t : NotificationTable) (now : Int) (id userId : Uuid) : NotificationTable :=
  t.updateWhere (fun n => n.id = id ∧ n.userId = some userId ∧ n.readAt = none) (read now)
    (fun _ => rfl) (fun _ => rfl)

def markAllAsRead (t : NotificationTable) (now : Int) (userId : Uuid) : NotificationTable :=
  t.updateWhere (fun n => n.userId = some userId ∧ n.readAt = none) (read now)
    (fun _ => rfl) (fun _ => rfl)

/-- The tolerance of the sweep for clock skew: 5 seconds. -/
def skewTolerance : Int := 5000

def due (now : Int) (n : Notification) : Bool :=
  n.status = .pending ∧ n.nextRetryAt ≤ now + skewTolerance

def dueRows (t : NotificationTable) (now : Int) : List Notification :=
  t.rows.filter (due now)

/-- The rows of `SELECT … LIMIT $1` when the database returns those with `ids`, in
that order. There is no ORDER BY: any `limit` of the due rows may come, in any
order, and all of them when there are no more than that. -/
def getPendingForRetry (t : NotificationTable) (now : Int) (limit : Int) (ids : List Uuid) :
    Option (List Notification) :=
  if 0 ≤ limit ∧ ids.Nodup ∧ ids.length = min limit.toNat (t.dueRows now).length ∧
      ∀ id ∈ ids, id ∈ (t.dueRows now).map Notification.id then
    some (ids.filterMap t.getById)
  else none

@[simp] theorem getById_empty (id : Uuid) : empty.getById id = none := rfl

@[simp] theorem getById_updateStatus (t : NotificationTable) (now : Int) (id : Uuid)
    (status : NotificationStatus) (error providerRef : Option String) (k : Uuid) :
    (t.updateStatus now id status error providerRef).getById k =
      if k = id then (t.getById id).map (withStatus now status error providerRef)
      else t.getById k := getById_updateId ..

@[simp] theorem getById_incrementRetry (t : NotificationTable) (now : Int) (id : Uuid)
    (nextRetryAt : Int) (k : Uuid) :
    (t.incrementRetry now id nextRetryAt).getById k =
      if k = id then (t.getById id).map (withRetry now nextRetryAt) else t.getById k :=
  getById_updateId ..

theorem getById_resetStuckProcessing (t : NotificationTable) (now secs : Int) (k : Uuid) :
    (t.resetStuckProcessing now secs).getById k =
      (t.getById k).map fun n => if stuck now secs n then reset now n else n :=
  getById_updateWhere ..

theorem getById_markAsRead (t : NotificationTable) (now : Int) (id userId k : Uuid) :
    (t.markAsRead now id userId).getById k = (t.getById k).map fun n =>
      if decide (n.id = id ∧ n.userId = some userId ∧ n.readAt = none) then read now n else n :=
  getById_updateWhere ..

theorem getById_markAllAsRead (t : NotificationTable) (now : Int) (userId k : Uuid) :
    (t.markAllAsRead now userId).getById k = (t.getById k).map fun n =>
      if decide (n.userId = some userId ∧ n.readAt = none) then read now n else n :=
  getById_updateWhere ..

theorem create_cases (t : NotificationTable) (n : Notification) :
    (∃ key existing, n.idempotencyKey = some key ∧ existing ∈ t.rows ∧
      existing.idempotencyKey = some key ∧ t.create n = .ok (existing, t)) ∨
    ((∀ m ∈ t.rows, ∀ key, n.idempotencyKey = some key → m.idempotencyKey ≠ some key) ∧
      t.getById n.id = none ∧ ∃ t', t.create n = .ok (insertedRow n, t') ∧
        t'.rows = t.rows ++ [insertedRow n] ∧
        ∀ k, t'.getById k = if k = n.id then some (insertedRow n) else t.getById k) ∨
    (t.getById n.id ≠ none ∧ ∃ e, t.create n = .error e) := by
  unfold create
  split
  · next existing h =>
    left
    obtain ⟨key, hkey, hfind⟩ := Option.bind_eq_some_iff.mp h
    exact ⟨key, existing, hkey, List.mem_of_find?_eq_some hfind,
      by simpa using List.find?_some hfind, rfl⟩
  · next h =>
    right
    by_cases hid : t.getById n.id = none
    · left
      refine ⟨?_, hid, _, dif_pos hid, rfl,
        fun k => KeyedTable.get_insert t.table (insertedRow n) hid k⟩
      intro m hm key hkey
      rw [hkey] at h
      simpa using List.find?_eq_none.mp h m hm
    · right
      exact ⟨hid, _, dif_neg hid⟩

theorem mem_dueRows {t : NotificationTable} {now : Int} {n : Notification} :
    n ∈ t.dueRows now ↔ t.getById n.id = some n ∧ due now n = true := by
  rw [dueRows, List.mem_filter, mem_rows_iff]

theorem getPendingForRetry_eq_some {t : NotificationTable} {now : Int} {limit : Int}
    {ids : List Uuid} {chosen : List Notification}
    (h : t.getPendingForRetry now limit ids = some chosen) :
    chosen.map Notification.id = ids ∧ ids.Nodup ∧
      (∀ id ∈ ids, ∃ n, t.getById id = some n ∧ due now n = true) ∧
      ids.length = min limit.toNat (t.dueRows now).length := by
  unfold getPendingForRetry at h
  split at h
  · next hc =>
    obtain ⟨-, hnodup, hlen, hdue⟩ := hc
    have found : ∀ id ∈ ids, ∃ n, t.getById id = some n ∧ due now n = true := by
      intro id hid
      obtain ⟨n, hn, rfl⟩ := List.mem_map.mp (hdue id hid)
      exact ⟨n, mem_dueRows.mp hn⟩
    obtain rfl := Option.some.inj h
    exact ⟨t.table.map_key_filterMap_get fun id hid => (found id hid).imp fun _ hn => hn.1,
      hnodup, found, hlen⟩
  · cases h

end NotificationTable

end NotiService
