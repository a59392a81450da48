import NotiService.DeviceTable
import NotiService.Foundation.Transition

/-! The device registry against the history of its calls: who a token is registered for and on
what platform is told by the last call for it, its id and `created_at` by the first
registration. -/

namespace NotiService
open Foundation

/-- `newId` is what `gen_random_uuid()` gives. -/
inductive DeviceCall where
  | register (newId userId : Uuid) (token : String) (platform : DevicePlatform)
  | revoke (token : String)
deriving DecidableEq, Repr

def DeviceCall.token : DeviceCall → String
  | .register _ _ token _ | .revoke token => token

def registrySystem : System DeviceTable (Int × DeviceCall) where
  init t := t = .empty
  step t := fun (now, call) =>
    match call with
    | .register newId userId token platform =>
      (t.register now newId userId token platform).toOption.map Prod.snd
    | .revoke token => some (t.revoke now token)

namespace DeviceCall

/-- What a call leaves a token registered as: its owner and platform, or nothing. -/
def registers : DeviceCall → Option (Uuid × DevicePlatform)
  | .register _ userId _ platform => some (userId, platform)
  | .revoke _ => none

def creates (now : Int) : DeviceCall → Option (Uuid × Int)
  | .register newId _ _ _ => some (newId, now)
  | .revoke _ => none

def last (history : List (Int × DeviceCall)) (token : String) : Option DeviceCall :=
  ((history.map Prod.snd).filter fun call => call.token = token).getLast?

def first (history : List (Int × DeviceCall)) (token : String) : Option (Uuid × Int) :=
  history.findSome? fun (now, call) => if call.token = token then call.creates now else none

variable {history : List (Int × DeviceCall)} {now : Int} {call : DeviceCall} {token : String}

theorem last_concat : last (history ++ [(now, call)]) token =
    if call.token = token then some call else last history token := by
  unfold last
  rw [List.map_append, List.filter_append]
  by_cases h : call.token = token <;> simp [h]

theorem first_concat : first (history ++ [(now, call)]) token =
    (first history token).or (if call.token = token then call.creates now else none) := by
  unfold first
  rw [List.findSome?_append, List.findSome?_singleton]

end DeviceCall

theorem DeviceCall.registers_last {history : List (Int × DeviceCall)} {token : String}
    {user : Uuid} {platform : DevicePlatform} :
    (DeviceCall.last history token).bind DeviceCall.registers = some (user, platform) ↔
      ∃ newId, DeviceCall.last history token = some (.register newId user token platform) := by
  rw [Option.bind_eq_some_iff]
  constructor
  · rintro ⟨call, hlast, hregisters⟩
    have hmem : call ∈ (history.map Prod.snd).filter fun call => call.token = token :=
      List.mem_of_getLast? hlast
    have htoken : call.token = token := of_decide_eq_true (List.mem_filter.mp hmem).2
    cases call with
    | register newId user' token' platform' =>
      obtain rfl : token' = token := htoken
      cases hregisters
      exact ⟨newId, hlast⟩
    | revoke => cases hregisters
  · rintro ⟨newId, hlast⟩
    exact ⟨_, hlast, rfl⟩

namespace DeviceTable

variable {t t' : DeviceTable} {user : Uuid} {token : String} {d : DeviceToken} {now : Int}
  {newId : Uuid} {platform : DevicePlatform} {row : DeviceTokenRow}
  {history : List (Int × DeviceCall)} {call : DeviceCall}

def registration (t : DeviceTable) (token : String) : Option (Uuid × DevicePlatform) :=
  (t.activeDevice token).map fun d => (d.userId, d.platform)

def origin (t : DeviceTable) (token : String) : Option (Uuid × Int) :=
  (t.get token).map fun row => (row.id, row.createdAt)

theorem registration_register (h : t.register now newId user token platform = .ok (d, t'))
    (k : String) : t'.registration k =
      if k = token then some (user, platform) else t.registration k := by
  obtain ⟨-, rfl, rfl, hactive⟩ := register_eq_ok h
  unfold registration
  rw [hactive]
  by_cases hk : k = token <;> simp [hk]

theorem registration_revoke (k : String) : (t.revoke now token).registration k =
    if k = token then none else t.registration k := by
  unfold registration
  rw [activeDevice_revoke]
  by_cases hk : k = token <;> simp [hk]

theorem origin_updateWhere {p : DeviceTokenRow → Bool} {f : DeviceTokenRow → DeviceTokenRow}
    {htoken hid hplatform} (hcreated : ∀ row, (f row).createdAt = row.createdAt) (k : String) :
    (t.updateWhere p f htoken hid hplatform).origin k = t.origin k := by
  unfold origin
  rw [get_updateWhere, Option.map_map]
  congr 1
  funext row
  by_cases hp : p row <;> simp [hp, hid, hcreated]

theorem origin_revoke (k : String) : (t.revoke now token).origin k = t.origin k :=
  origin_updateWhere (f := fun row => { row with revokedAt := some now }) (fun _ => rfl) k

theorem origin_upsert (h : t.upsert now newId user token platform = .ok (row, t')) (k : String) :
    t'.origin k = (t.origin k).or (if token = k then some (newId, now) else none) := by
  unfold upsert at h
  split at h
  · next row₀ hget =>
    cases h
    refine (origin_updateWhere (f := reregistered now user platform) (fun _ => rfl) k).trans ?_
    by_cases hk : token = k
    · subst hk
      have hsome : t.origin token = some (row₀.id, row₀.createdAt) := congrArg (Option.map _) hget
      rw [hsome, Option.some_or]
    · rw [if_neg hk, Option.or_none]
  · next hget =>
    simp only at h
    split at h
    · cases h
    · cases h
      refine (congrArg (Option.map _) (t.table.get_insert _ hget k)).trans ?_
      by_cases hk : k = token
      · subst hk
        have hnone : t.origin k = none := congrArg (Option.map _) hget
        rw [hnone, Option.none_or, if_pos rfl, if_pos rfl]
        rfl
      · rw [if_neg hk, if_neg (Ne.symm hk), Option.or_none]
        rfl

theorem origin_register (h : t.register now newId user token platform = .ok (d, t'))
    (k : String) : t'.origin k = (t.origin k).or
      (if token = k then some (newId, now) else none) := by
  unfold register at h
  cases hupsert : t.upsert now newId user token platform with
  | error e =>
    rw [hupsert] at h
    cases h
  | ok result =>
    obtain ⟨row, t₁⟩ := result
    simp only [hupsert, Except.bind] at h
    cases hdomain : row.intoDomain with
    | error e =>
      rw [hdomain] at h
      cases h
    | ok device =>
      rw [hdomain] at h
      cases h
      exact origin_upsert hupsert k

structure Refines (t : DeviceTable) (history : List (Int × DeviceCall)) : Prop where
  registration : ∀ token, t.registration token =
    (DeviceCall.last history token).bind DeviceCall.registers
  origin : ∀ token, t.origin token = DeviceCall.first history token

theorem Refines.step (h : t.Refines history) (hs : registrySystem.step t (now, call) = some t') :
    t'.Refines (history ++ [(now, call)]) := by
  cases call with
  | register newId userId token platform =>
    obtain ⟨⟨d, t'⟩, hregister, rfl⟩ := Option.map_eq_some_iff.mp hs
    have hok : t.register now newId userId token platform = .ok (d, t') := by
      cases hr : t.register now newId userId token platform with
      | error e => rw [hr] at hregister; cases hregister
      | ok r => rw [hr] at hregister; exact congrArg Except.ok (Option.some.inj hregister)
    constructor
    · intro k
      rw [registration_register hok, DeviceCall.last_concat, h.registration]
      by_cases hk : k = token
      · simp [hk, DeviceCall.token, DeviceCall.registers]
      · simp [hk, Ne.symm hk, DeviceCall.token]
    · intro k
      rw [origin_register hok, DeviceCall.first_concat, h.origin]
      rfl
  | revoke token =>
    cases hs
    constructor
    · intro k
      rw [registration_revoke, DeviceCall.last_concat, h.registration]
      by_cases hk : k = token
      · simp [hk, DeviceCall.token, DeviceCall.registers]
      · simp [hk, Ne.symm hk, DeviceCall.token]
    · intro k
      rw [origin_revoke, DeviceCall.first_concat, h.origin, DeviceCall.creates, ite_self,
        Option.or_none]

theorem refines_run (h : registrySystem.run .empty history = some t) : t.Refines history := by
  refine System.run_history ⟨fun _ => rfl, fun _ => rfl⟩ ?_ h
  intro t history l t' ht hs
  exact ht.step hs

theorem eq_of_rows (h : t.rows = t'.rows) : t = t' := by
  obtain ⟨⟨rows, _⟩, _, _⟩ := t
  obtain ⟨⟨rows', _⟩, _, _⟩ := t'
  cases (show rows = rows' from h)
  rfl

theorem registration_eq_none : t.registration token = none ↔ t.activeDevice token = none :=
  Option.map_eq_none_iff

theorem revoke_of_inactive (h : t.activeDevice token = none) : t.revoke now token = t := by
  apply eq_of_rows
  refine (List.map_congr_left fun row hrow => if_neg fun hmatch => ?_).trans (List.map_id t.rows)
  obtain ⟨rfl, hactive⟩ := of_decide_eq_true hmatch
  have hget : t.get row.token = some row := t.table.mem_iff_get.mp hrow
  obtain ⟨d, hd, -⟩ := DeviceTokenRow.intoDomain_of_checked (t.checked row hrow)
  have hsome := activeDevice_eq_some.mpr ⟨row, hget, hactive, hd⟩
  rw [h] at hsome
  cases hsome

def drawn (history : List (Int × DeviceCall)) : List Uuid :=
  history.filterMap fun (now, call) => (call.creates now).map Prod.fst

theorem ids_updateWhere {p : DeviceTokenRow → Bool} {f : DeviceTokenRow → DeviceTokenRow}
    {htoken hid hplatform} : (t.updateWhere p f htoken hid hplatform).rows.map DeviceTokenRow.id =
      t.rows.map DeviceTokenRow.id := by
  change (t.rows.map fun row => if p row then f row else row).map DeviceTokenRow.id = _
  rw [List.map_map]
  refine List.map_congr_left fun row _ => ?_
  by_cases h : p row <;> simp [h, hid]

theorem upsert_of_fresh (hfresh : newId ∉ t.rows.map DeviceTokenRow.id) (now : Int)
    (user : Uuid) (token : String) (platform : DevicePlatform) :
    ∃ row t', t.upsert now newId user token platform = .ok (row, t') ∧
      t'.rows.map DeviceTokenRow.id ⊆ newId :: t.rows.map DeviceTokenRow.id := by
  unfold upsert
  split
  · refine ⟨_, _, rfl, ?_⟩
    exact fun id hid => List.mem_cons_of_mem newId ((List.Perm.of_eq ids_updateWhere).subset hid)
  · refine ⟨_, _, dif_neg hfresh, fun id hid => ?_⟩
    obtain ⟨row, hrow, rfl⟩ := List.mem_map.mp hid
    rcases List.mem_append.mp hrow with hrow | hrow
    · exact List.mem_cons_of_mem _ (List.mem_map_of_mem hrow)
    · obtain rfl := List.mem_singleton.mp hrow
      exact List.mem_cons_self ..

theorem step_of_fresh (t : DeviceTable) (now : Int) (call : DeviceCall)
    (hfresh : ∀ id time, call.creates now = some (id, time) →
    id ∉ t.rows.map DeviceTokenRow.id) :
    ∃ t', registrySystem.step t (now, call) = some t' ∧ t'.rows.map DeviceTokenRow.id ⊆
      t.rows.map DeviceTokenRow.id ++ ((call.creates now).map Prod.fst).toList := by
  cases call with
  | register newId user token platform =>
    obtain ⟨row, t', hupsert, hids⟩ :=
      upsert_of_fresh (hfresh newId now rfl) now user token platform
    obtain ⟨-, -, hplatform, -⟩ := upsert_eq_ok hupsert
    have hchecked : (DevicePlatform.fromDb row.platform).isSome := by
      rw [hplatform, DevicePlatform.fromDb_asStr]
      rfl
    obtain ⟨d, hd, -⟩ := DeviceTokenRow.intoDomain_of_checked hchecked
    refine ⟨t', ?_, fun id hid => ?_⟩
    · simp only [registrySystem, register, hupsert, Except.bind, hd]
      rfl
    · rcases List.mem_cons.mp (hids hid) with rfl | hmem
      · exact List.mem_append_right _ (List.mem_singleton_self _)
      · exact List.mem_append_left _ hmem
  | revoke token =>
    refine ⟨_, rfl, ?_⟩
    exact fun id hid => List.mem_append_left _ ((List.Perm.of_eq ids_updateWhere).subset hid)

theorem run_of_fresh (h : (drawn history).Nodup) : ∃ t, registrySystem.run .empty history = some t ∧
    t.rows.map DeviceTokenRow.id ⊆ drawn history := by
  induction history using List.reverseRecOn with
  | nil => exact ⟨.empty, rfl, List.nil_subset _⟩
  | append_singleton history l ih =>
    obtain ⟨now, call⟩ := l
    have hdrawn : drawn (history ++ [(now, call)]) =
        drawn history ++ ((call.creates now).map Prod.fst).toList := by
      unfold drawn
      rw [List.filterMap_append]
      cases call <;> rfl
    rw [hdrawn, List.nodup_append] at h
    obtain ⟨t, hrun, hids⟩ := ih h.1
    obtain ⟨t', hstep, hids'⟩ := step_of_fresh t now call
      fun id time hcreates hmem => h.2.2 id (hids hmem) id (by rw [hcreates]; exact .head _) rfl
    refine ⟨t', ?_, fun id hid => ?_⟩
    · rw [System.run_concat, hrun]
      exact hstep
    · rw [hdrawn]
      rcases List.mem_append.mp (hids' hid) with hmem | hmem
      · exact List.mem_append_left _ (hids hmem)
      · exact List.mem_append_right _ hmem

end DeviceTable

/-- After any calls: the list of a user, in some order, is answered, and has one entry for each
token whose last call registers it for them, on that platform, and no other; a token has the id and
the `created_at` of its first registration; and revoking a token whose last call does not register
it changes nothing. While the drawn ids are distinct, every call returns. -/
theorem registry_refines_history :
    (∀ history t, registrySystem.run .empty history = some t →
      (∀ user, ∃ tokens ds, t.activeForUser user tokens = some (.ok ds)) ∧
      (∀ user tokens listed, t.activeForUser user tokens = some listed →
        ∃ ds, listed = .ok ds ∧ (ds.map DeviceToken.token).Nodup ∧
          ∀ token platform, (∃ d ∈ ds, d.token = token ∧ d.platform = platform) ↔
            ∃ newId, DeviceCall.last history token =
              some (.register newId user token platform)) ∧
      (∀ token, (t.get token).map (fun row => (row.id, row.createdAt)) =
        DeviceCall.first history token) ∧
      ∀ now token, (∀ newId user platform, DeviceCall.last history token ≠
        some (.register newId user token platform)) → t.revoke now token = t) ∧
    ∀ history, (DeviceTable.drawn history).Nodup →
      (registrySystem.run .empty history).isSome := by
  refine ⟨fun history t hrun => ?_, fun history hfresh => ?_⟩
  · have href := DeviceTable.refines_run hrun
    refine ⟨t.exists_activeForUser, fun user tokens listed hlisted => ?_, href.origin,
      fun now token hlast => ?_⟩
    · obtain ⟨ds, rfl, htokens, hnodup, hmem⟩ := DeviceTable.activeForUser_eq_some hlisted
      refine ⟨ds, rfl, htokens ▸ hnodup, fun token platform => ?_⟩
      rw [← DeviceCall.registers_last, ← href.registration, DeviceTable.registration,
        Option.map_eq_some_iff]
      constructor
      · rintro ⟨d, hd, rfl, rfl⟩
        obtain ⟨hactive, rfl⟩ := (hmem d).mp hd
        exact ⟨d, hactive, rfl⟩
      · rintro ⟨d, hactive, heq⟩
        cases heq
        have htoken := DeviceTable.token_of_activeDevice hactive
        exact ⟨d, (hmem d).mpr ⟨htoken.symm ▸ hactive, rfl⟩, htoken, rfl⟩
    · refine DeviceTable.revoke_of_inactive (DeviceTable.registration_eq_none.mp ?_)
      rw [href.registration]
      refine Option.eq_none_iff_forall_ne_some.mpr fun (user, platform) hsome => ?_
      obtain ⟨newId, hcall⟩ := DeviceCall.registers_last.mp hsome
      exact hlast newId user platform hcall
  · obtain ⟨t, hrun, -⟩ := DeviceTable.run_of_fresh hfresh
    rw [hrun]
    rfl

end NotiService
