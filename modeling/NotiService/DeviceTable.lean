import NotiService.Domain
import NotiService.Foundation.KeyedTable
import NotiService.Foundation.Program
import Mathlib.Data.List.Perm.Basic

/-! The `device_tokens` table and the SQL of `PgDeviceTokenRepository`. A token has one row,
the user it was last registered for owns it, and it is active until it is revoked. The
constraints of the migration are fields of the table type. -/

namespace NotiService
open Foundation

inductive DevicePlatform where
  | android | ios | web
deriving DecidableEq, Repr

namespace DevicePlatform

def asStr : DevicePlatform → String
  | .android => "android"
  | .ios => "ios"
  | .web => "web"

def fromDb : String → Option DevicePlatform
  | "android" => some .android
  | "ios" => some .ios
  | "web" => some .web
  | _ => none

@[simp] theorem fromDb_asStr (p : DevicePlatform) : fromDb p.asStr = some p := by
  cases p <;> rfl

end DevicePlatform

structure DeviceToken where
  id : Uuid
  userId : Uuid
  token : String
  platform : DevicePlatform
  createdAt : Int
  lastSeenAt : Int
deriving DecidableEq, Repr

structure DeviceTokenRow where
  id : Uuid
  userId : Uuid
  token : String
  platform : String
  createdAt : Int
  lastSeenAt : Int
  revokedAt : Option Int
deriving DecidableEq, Repr

namespace DeviceTokenRow

def intoDomain (row : DeviceTokenRow) : Except NotiError DeviceToken :=
  match DevicePlatform.fromDb row.platform with
  | none => .error (.internal ("unknown device platform in DB: " ++ row.platform))
  | some platform =>
    .ok ⟨row.id, row.userId, row.token, platform, row.createdAt, row.lastSeenAt⟩

def active (row : DeviceTokenRow) : Bool := row.revokedAt.isNone

theorem intoDomain_of_checked {row : DeviceTokenRow}
    (h : (DevicePlatform.fromDb row.platform).isSome) :
    ∃ d, row.intoDomain = .ok d ∧ d.token = row.token ∧ d.userId = row.userId := by
  obtain ⟨platform, hp⟩ := Option.isSome_iff_exists.mp h
  exact ⟨_, by rw [intoDomain, hp], rfl, rfl⟩

end DeviceTokenRow

/-- `checked` is the CHECK on `platform`. -/
structure DeviceTable where
  table : KeyedTable DeviceTokenRow.token
  idsUnique : (table.rows.map DeviceTokenRow.id).Nodup
  checked : ∀ row ∈ table.rows, (DevicePlatform.fromDb row.platform).isSome

namespace DeviceTable

def empty : DeviceTable := ⟨.empty, List.nodup_nil, fun _ hrow => nomatch hrow⟩

def rows (t : DeviceTable) : List DeviceTokenRow := t.table.rows

def get (t : DeviceTable) (token : String) : Option DeviceTokenRow := t.table.get token

def updateWhere (t : DeviceTable) (p : DeviceTokenRow → Bool) (f : DeviceTokenRow → DeviceTokenRow)
    (htoken : ∀ row, (f row).token = row.token) (hid : ∀ row, (f row).id = row.id)
    (hplatform : ∀ row, (DevicePlatform.fromDb row.platform).isSome →
      (DevicePlatform.fromDb (f row).platform).isSome) : DeviceTable where
  table := t.table.updateWhere p f htoken
  idsUnique := by
    have same : (t.table.rows.map fun row => if p row then f row else row).map DeviceTokenRow.id =
        t.table.rows.map DeviceTokenRow.id := by
      rw [List.map_map]
      refine List.map_congr_left fun row _ => ?_
      by_cases h : p row <;> simp [h, hid]
    exact same ▸ t.idsUnique
  checked row hrow := by
    obtain ⟨row₀, hrow₀, rfl⟩ := List.mem_map.mp hrow
    by_cases h : p row₀
    · rw [if_pos h]
      exact hplatform row₀ (t.checked row₀ hrow₀)
    · rw [if_neg h]
      exact t.checked row₀ hrow₀

theorem get_updateWhere {t : DeviceTable} {p : DeviceTokenRow → Bool}
    {f : DeviceTokenRow → DeviceTokenRow} {htoken hid hplatform} (token : String) :
    (t.updateWhere p f htoken hid hplatform).get token =
      (t.get token).map fun row => if p row then f row else row :=
  t.table.get_updateWhere p f htoken token

def reregistered (now : Int) (userId : Uuid) (platform : DevicePlatform) (row : DeviceTokenRow) :
    DeviceTokenRow :=
  { row with userId, platform := platform.asStr, lastSeenAt := now, revokedAt := none }

/-- `INSERT … ON CONFLICT (token) DO UPDATE …`. `newId` is what `gen_random_uuid()` gives. -/
def upsert (t : DeviceTable) (now : Int) (newId userId : Uuid) (token : String)
    (platform : DevicePlatform) : Except NotiError (DeviceTokenRow × DeviceTable) :=
  match h : t.table.get token with
  | some row => .ok (reregistered now userId platform row,
      t.updateWhere (fun row => row.token = token) (reregistered now userId platform)
        (fun _ => rfl) (fun _ => rfl) (fun _ _ => by simp [reregistered]))
  | none =>
    let row : DeviceTokenRow := ⟨newId, userId, token, platform.asStr, now, now, none⟩
    if hid : newId ∈ t.table.rows.map DeviceTokenRow.id then
      .error (.database "duplicate key value violates unique constraint \"device_tokens_pkey\"")
    else
      .ok (row,
        { table := t.table.insert row h
          idsUnique := by
            simp only [KeyedTable.insert, List.map_append, List.map_cons, List.map_nil]
            refine List.nodup_append.mpr ⟨t.idsUnique, List.nodup_singleton _, ?_⟩
            rintro a ha b hb rfl
            obtain rfl : a = newId := List.mem_singleton.mp hb
            exact hid ha
          checked := by
            refine List.forall_mem_append.mpr ⟨t.checked, ?_⟩
            simp [row] })

def register (t : DeviceTable) (now : Int) (newId userId : Uuid) (token : String)
    (platform : DevicePlatform) : Except NotiError (DeviceToken × DeviceTable) :=
  (t.upsert now newId userId token platform).bind fun (row, t') =>
    row.intoDomain.map fun device => (device, t')

def activeRows (t : DeviceTable) (userId : Uuid) : List DeviceTokenRow :=
  t.rows.filter fun row => row.userId = userId ∧ row.active

/-- The SELECT when the database returns the rows with `tokens`, in that order. There is
no ORDER BY. -/
def activeForUser (t : DeviceTable) (userId : Uuid) (tokens : List String) :
    Option (Except NotiError (List DeviceToken)) :=
  if tokens.Perm ((t.activeRows userId).map DeviceTokenRow.token) then
    some ((tokens.filterMap t.get).mapM DeviceTokenRow.intoDomain)
  else none

def revoke (t : DeviceTable) (now : Int) (token : String) : DeviceTable :=
  t.updateWhere (fun row => row.token = token ∧ row.active)
    (fun row => { row with revokedAt := some now })
    (fun _ => rfl) (fun _ => rfl) (fun _ h => h)

/-- What an active token is registered as. -/
def activeDevice (t : DeviceTable) (token : String) : Option DeviceToken :=
  (t.get token).bind fun row => if row.active then row.intoDomain.toOption else none

def owner (t : DeviceTable) (token : String) : Option Uuid :=
  (t.activeDevice token).map DeviceToken.userId

def Active (t : DeviceTable) (user : Uuid) (d : DeviceToken) : Prop :=
  t.activeDevice d.token = some d ∧ d.userId = user

variable {t t' : DeviceTable} {user : Uuid} {token : String} {d : DeviceToken}

theorem checked_of_get {row : DeviceTokenRow} (h : t.get token = some row) :
    row.token = token ∧ (DevicePlatform.fromDb row.platform).isSome :=
  have hrow := (t.table.get_eq_some_iff.mp h)
  ⟨hrow.2, t.checked row hrow.1⟩

theorem activeDevice_eq_some : t.activeDevice token = some d ↔
    ∃ row, t.get token = some row ∧ row.active ∧ row.intoDomain = .ok d := by
  unfold activeDevice
  rw [Option.bind_eq_some_iff]
  refine exists_congr fun row => and_congr_right fun _ => ?_
  rw [Option.ite_none_right_eq_some]
  refine and_congr_right fun _ => ?_
  cases row.intoDomain <;> simp [Except.toOption]

theorem token_of_activeDevice (h : t.activeDevice token = some d) : d.token = token := by
  obtain ⟨row, hget, -, hd⟩ := activeDevice_eq_some.mp h
  obtain ⟨htoken, hchecked⟩ := checked_of_get hget
  obtain ⟨d', hd', htoken', -⟩ := DeviceTokenRow.intoDomain_of_checked hchecked
  rw [hd] at hd'
  cases hd'
  exact htoken'.trans htoken

theorem owner_eq_some : t.owner token = some user ↔
    ∃ d, t.activeDevice token = some d ∧ d.userId = user := Option.map_eq_some_iff

theorem mem_activeRows {row : DeviceTokenRow} : row ∈ t.activeRows user ↔
    t.get row.token = some row ∧ row.userId = user ∧ row.active := by
  rw [activeRows, List.mem_filter, decide_eq_true_eq]
  exact and_congr_left fun _ => t.table.mem_iff_get

private theorem mapM_intoDomain {rows : List DeviceTokenRow}
    (h : ∀ row ∈ rows, (DevicePlatform.fromDb row.platform).isSome) :
    ∃ ds, rows.mapM DeviceTokenRow.intoDomain = .ok ds ∧
      ds.map DeviceToken.token = rows.map DeviceTokenRow.token ∧
      ∀ d, d ∈ ds ↔ ∃ row ∈ rows, row.intoDomain = .ok d := by
  induction rows with
  | nil => exact ⟨[], rfl, rfl, fun d => by simp⟩
  | cons row rows ih =>
    obtain ⟨hrow, hrows⟩ := List.forall_mem_cons.mp h
    obtain ⟨d, hd, htoken, -⟩ := DeviceTokenRow.intoDomain_of_checked hrow
    obtain ⟨ds, hds, htokens, hmem⟩ := ih hrows
    refine ⟨d :: ds, ?_, by rw [List.map_cons, List.map_cons, htoken, htokens], fun d' => ?_⟩
    · rw [List.mapM_cons, hd, hds]
      rfl
    · rw [List.mem_cons, hmem, List.exists_mem_cons_iff, hd, Except.ok.injEq, eq_comm]

theorem activeForUser_eq_some {tokens : List String} {r : Except NotiError (List DeviceToken)}
    (h : t.activeForUser user tokens = some r) :
    ∃ ds, r = .ok ds ∧ ds.map DeviceToken.token = tokens ∧ tokens.Nodup ∧
      ∀ d, d ∈ ds ↔ t.Active user d := by
  obtain ⟨hperm, h⟩ := Option.ite_none_right_eq_some.mp h
  cases h
  have hfound : ∀ token ∈ tokens, ∃ row, t.get token = some row := by
    intro token htoken
    obtain ⟨row, hrow, rfl⟩ := List.mem_map.mp (hperm.mem_iff.mp htoken)
    exact ⟨row, (mem_activeRows.mp hrow).1⟩
  have hrows : ∀ row, row ∈ tokens.filterMap t.get ↔ row ∈ t.activeRows user := by
    intro row
    rw [List.mem_filterMap]
    constructor
    · rintro ⟨token, htoken, hget⟩
      obtain ⟨row', hrow', rfl⟩ := List.mem_map.mp (hperm.mem_iff.mp htoken)
      rw [(mem_activeRows.mp hrow').1] at hget
      exact Option.some.inj hget ▸ hrow'
    · intro hrow
      exact ⟨row.token, hperm.mem_iff.mpr (List.mem_map_of_mem hrow), (mem_activeRows.mp hrow).1⟩
  obtain ⟨ds, hds, htokens, hmem⟩ := mapM_intoDomain fun row hrow =>
    (checked_of_get (mem_activeRows.mp ((hrows row).mp hrow)).1).2
  refine ⟨ds, hds, htokens.trans (t.table.map_key_filterMap_get hfound), ?_, fun d => ?_⟩
  · exact hperm.nodup_iff.mpr (t.table.nodup.sublist (List.filter_sublist.map _))
  · rw [hmem, Active, activeDevice_eq_some]
    constructor
    · rintro ⟨row, hrow, hd⟩
      obtain ⟨hget, huser, hactive⟩ := mem_activeRows.mp ((hrows row).mp hrow)
      obtain ⟨d', hd', htoken, huser'⟩ := DeviceTokenRow.intoDomain_of_checked
        (checked_of_get hget).2
      rw [hd] at hd'
      cases hd'
      exact ⟨⟨row, htoken ▸ hget, hactive, hd⟩, huser'.trans huser⟩
    · rintro ⟨⟨row, hget, hactive, hd⟩, huser⟩
      obtain ⟨htoken, hchecked⟩ := checked_of_get hget
      obtain ⟨d', hd', -, huser'⟩ := DeviceTokenRow.intoDomain_of_checked hchecked
      rw [hd] at hd'
      cases hd'
      exact ⟨row, (hrows row).mpr (mem_activeRows.mpr
        ⟨htoken ▸ hget, huser'.symm.trans huser, hactive⟩), hd⟩

theorem exists_activeForUser (t : DeviceTable) (user : Uuid) :
    ∃ tokens ds, t.activeForUser user tokens = some (.ok ds) := by
  have hanswer : t.activeForUser user ((t.activeRows user).map DeviceTokenRow.token) =
      some _ := if_pos (List.Perm.refl _)
  obtain ⟨ds, hds, -⟩ := activeForUser_eq_some hanswer
  exact ⟨_, ds, hanswer.trans (congrArg some hds)⟩

theorem activeDevice_revoke (now : Int) (k : String) :
    (t.revoke now token).activeDevice k = if k = token then none else t.activeDevice k := by
  unfold activeDevice revoke
  rw [get_updateWhere]
  cases hget : t.get k with
  | none => by_cases hk : k = token <;> simp [hk]
  | some row =>
    obtain rfl := (checked_of_get hget).1
    by_cases hk : row.token = token
    · cases hactive : row.active with
      | true =>
        have hnone : row.revokedAt = none := Option.isNone_iff_eq_none.mp hactive
        simp [hk, DeviceTokenRow.active, hnone]
      | false => simp [hk, hactive]
    · simp [hk]

theorem upsert_eq_ok {now : Int} {newId : Uuid} {platform : DevicePlatform} {row : DeviceTokenRow}
    (h : t.upsert now newId user token platform = .ok (row, t')) :
    row.token = token ∧ row.userId = user ∧ row.platform = platform.asStr ∧ row.active ∧
      ∀ k, t'.get k = if k = token then some row else t.get k := by
  unfold upsert at h
  split at h
  · next row₀ hget =>
    cases h
    have htoken := t.table.key_of_get hget
    refine ⟨htoken, rfl, rfl, rfl, fun k => (get_updateWhere k).trans ?_⟩
    by_cases hk : k = token
    · subst hk
      rw [if_pos rfl, show t.get k = some row₀ from hget, Option.map_some,
        if_pos (decide_eq_true htoken)]
    · rw [if_neg hk]
      cases hget' : t.get k with
      | none => rfl
      | some row' =>
        have hne : ¬row'.token = token := fun heq => hk ((checked_of_get hget').1.symm.trans heq)
        rw [Option.map_some, if_neg (by simpa using hne)]
  · next hget =>
    simp only at h
    split at h
    · cases h
    · cases h
      exact ⟨rfl, rfl, rfl, rfl, fun k => t.table.get_insert _ hget k⟩

theorem register_eq_ok {now : Int} {newId : Uuid} {platform : DevicePlatform}
    (h : t.register now newId user token platform = .ok (d, t')) :
    d.token = token ∧ d.userId = user ∧ d.platform = platform ∧
      ∀ k, t'.activeDevice k = if k = token then some d else t.activeDevice k := by
  unfold register at h
  cases hupsert : t.upsert now newId user token platform with
  | error e =>
    rw [hupsert] at h
    cases h
  | ok result =>
    obtain ⟨row, t₁⟩ := result
    obtain ⟨htoken, huser, hplatform, hactive, hget⟩ := upsert_eq_ok hupsert
    have hdomain : row.intoDomain =
        .ok ⟨row.id, row.userId, row.token, platform, row.createdAt, row.lastSeenAt⟩ := by
      rw [DeviceTokenRow.intoDomain, hplatform, DevicePlatform.fromDb_asStr]
    simp only [hupsert, Except.bind, hdomain, Except.map, Except.ok.injEq, Prod.mk.injEq] at h
    obtain ⟨rfl, rfl⟩ := h
    refine ⟨htoken, huser, rfl, fun k => ?_⟩
    rw [activeDevice, hget]
    by_cases hk : k = token
    · rw [if_pos hk, if_pos hk, Option.bind_some, if_pos hactive, hdomain]
      rfl
    · rw [if_neg hk, if_neg hk]
      rfl

end DeviceTable

end NotiService
