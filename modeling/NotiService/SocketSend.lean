import NotiService.Connections

/-! One call of `send_to_user` with nothing else running: every open connection of the
user gets the message once, if none of their channels is full. Otherwise the call does
not end. -/

namespace NotiService
open Foundation ConnectionManager

namespace Hub

def accepts (h : Hub) (connection : Uuid) : Bool :=
  match h.channels connection with
  | none => true
  | some ch => !ch.isOpen || ch.hasRoom

def alive (h : Hub) (connection : Uuid) : Bool :=
  match h.channels connection with
  | none => false
  | some ch => ch.isOpen

def pushed (h : Hub) (ids : List Uuid) (message : String) (connection : Uuid) : Option Channel :=
  (h.channels connection).map fun ch =>
    if connection ∈ ids ∧ ch.isOpen then { ch with queue := ch.queue ++ [message] } else ch

variable {h h' : Hub} {user connection : Uuid} {message : String}

theorem accepts_congr (hch : h'.channels connection = h.channels connection) :
    h'.accepts connection = h.accepts connection := by
  rw [accepts, hch, accepts]

theorem alive_congr (hch : h'.channels connection = h.channels connection) :
    h'.alive connection = h.alive connection := by
  rw [alive, hch, alive]

theorem guards_acquire_release (u : Uuid) : ((h.acquire user).release user).guards u =
    h.guards u := by
  by_cases hu : u = user
  · subst hu
    simp [acquire, release]
  · simp [acquire, release]

end Hub

section Alone

variable {h h' : Hub} {user connection : Uuid} {message : String} {delivered r : Bool}

abbrev Hub.Completes {α : Type} (h : Hub) (p : Program HubOp α) (r : α) (h' : Hub) : Prop :=
  Program.Completes (fun choice => Hub.exec choice) p h r h'

/-- What `remove_connection` leaves when nothing comes between its calls. -/
def Hub.without (h : Hub) (user connection : Uuid) : Hub :=
  if (h.connections user).isSome then
    let left := ((h.acquire user).eraseConnection user connection).release user
    if (left.members user).isEmpty then left.removeEntry user else left
  else h

theorem Hub.channels_without : (h.without user connection).channels = h.channels := by
  unfold Hub.without
  split
  · dsimp only
    split <;> rfl
  · rfl

theorem Hub.guards_without (u : Uuid) : (h.without user connection).guards u = h.guards u := by
  unfold Hub.without
  split
  · dsimp only
    split <;> exact Hub.guards_acquire_release u
  · rfl

theorem removeConnection_eq : removeConnection user connection =
    .call (.get user) fun present =>
      if present then
        .call (.innerRemove user connection) fun _ => .call (.isEmpty user) fun isEmpty =>
          .call (.drop user) fun _ => if isEmpty then .call (.outerRemove user) .done else .done ()
      else .done () := rfl

/-- `remove_connection` would find the entry empty. -/
def Hub.vacates (h : Hub) (user connection : Uuid) : Bool :=
  (h.connections user).isSome && ((h.eraseConnection user connection).members user).isEmpty

theorem completes_removeConnection {a : Unit} :
    h.Completes (removeConnection user connection) a h' ↔
      (h.vacates user connection → h.guards user = 0) ∧ h' = h.without user connection := by
  let left := ((h.acquire user).eraseConnection user connection).release user
  have hleft : left.guards user = h.guards user := Hub.guards_acquire_release user
  have hunit : ∀ h₁ : Hub, (a = () ∧ h' = h₁) ↔ h' = h₁ := fun _ => and_iff_right rfl
  unfold Hub.Completes Hub.without Hub.vacates
  rw [removeConnection_eq]
  cases hentry : (h.connections user).isSome with
  | true =>
    rw [Program.completes_call_of_eq _ (fun _ => if_pos hentry), if_pos rfl, if_pos rfl,
      Program.completes_call_of_eq _ (fun _ => rfl), Program.completes_call_of_eq _ (fun _ => rfl),
      Program.completes_call_of_eq _ (fun _ => rfl), Bool.true_and]
    cases hempty : ((h.eraseConnection user connection).members user).isEmpty with
    | true =>
      have herased : (((h.acquire user).eraseConnection user connection).members user).isEmpty :=
        hempty
      have hafter : (left.members user).isEmpty := hempty
      rw [if_pos herased, if_pos hafter, Program.completes_call]
      simp only [Hub.exec, Option.ite_none_right_eq_some, forall_const, Program.completes_done,
        true_and]
      constructor
      · rintro ⟨_, _, _, ⟨hfree, ⟨⟩⟩, rfl⟩
        exact ⟨hleft ▸ hfree, rfl⟩
      · rintro ⟨hfree, rfl⟩
        exact ⟨default, _, _, ⟨hleft.trans hfree, rfl⟩, rfl⟩
    | false =>
      have herased : (((h.acquire user).eraseConnection user connection).members user).isEmpty
          = false := hempty
      have hafter : ¬(left.members user).isEmpty := Bool.eq_false_iff.mp hempty
      rw [herased, if_neg Bool.false_ne_true, if_neg hafter, Program.completes_done, hunit]
      exact (and_iff_right fun hdrop => absurd hdrop Bool.false_ne_true).symm
  | false =>
    have hnone : ¬(h.connections user).isSome := by simp [hentry]
    rw [Program.completes_call_of_eq _ (fun _ => if_neg hnone), if_neg Bool.false_ne_true,
      if_neg Bool.false_ne_true, Program.completes_done, hunit]
    exact (and_iff_right fun hdrop => absurd hdrop Bool.false_ne_true).symm

def Hub.afterSend (h : Hub) (connection : Uuid) (message : String) : Hub :=
  match h.channels connection with
  | none => h
  | some ch =>
    if ch.isOpen then h.setChannel connection { ch with queue := ch.queue ++ [message] } else h

theorem txSend_eq (hch : (h.channels connection).isSome) : h.txSend connection message =
    if h.accepts connection then some (h.alive connection, h.afterSend connection message)
    else none := by
  obtain ⟨ch, hch⟩ := Option.isSome_iff_exists.mp hch
  simp only [Hub.txSend, Hub.accepts, Hub.alive, Hub.afterSend, hch]
  cases hopen : ch.isOpen with
  | true => cases hroom : ch.hasRoom <;> simp
  | false => rfl

theorem channels_afterSend : (h.afterSend connection message).channels =
    h.pushed [connection] message := by
  funext c
  unfold Hub.afterSend
  by_cases hc : c = connection
  · subst hc
    cases hch : h.channels c with
    | none => simp [Hub.pushed, hch]
    | some ch => cases hopen : ch.isOpen <;> simp [Hub.pushed, Hub.setChannel, hch, hopen]
  · cases hch : h.channels connection with
    | none => simp [Hub.pushed, hc]
    | some ch => cases hopen : ch.isOpen <;> simp [Hub.pushed, Hub.setChannel, hopen, hc]

theorem afterSend_dead (hdead : h.alive connection = false) :
    h.afterSend connection message = h := by
  unfold Hub.afterSend
  unfold Hub.alive at hdead
  split
  · rfl
  · next ch hch =>
    rw [hch] at hdead
    exact if_neg (Bool.not_eq_true _ ▸ hdead)

theorem guards_afterSend : (h.afterSend connection message).guards = h.guards := by
  unfold Hub.afterSend
  split
  · rfl
  · split <;> rfl

theorem pushed_closed (hclosed : h.alive connection = false) :
    h.pushed [connection] message = h.channels := by
  funext c
  by_cases hc : c = connection
  · subst hc
    cases hch : h.channels c with
    | none => simp [Hub.pushed, hch]
    | some ch =>
      have hopen : ch.isOpen = false := by simpa [Hub.alive, hch] using hclosed
      simp [Hub.pushed, hch, hopen]
  · simp [Hub.pushed, hc]

theorem pushed_cons {ids : List Uuid} (hnew : connection ∉ ids)
    (hch : h'.channels = h.pushed [connection] message) :
    h'.pushed ids message = h.pushed (connection :: ids) message := by
  funext c
  rw [Hub.pushed, hch, Hub.pushed, Hub.pushed, Option.map_map]
  congr 1
  funext ch
  by_cases hc : c = connection
  · subst hc
    cases hopen : ch.isOpen <;> simp [hopen, hnew]
  · simp [hc]

theorem channels_pushed_of_ne {c : Uuid} (hc : c ≠ connection)
    (hch : h'.channels = h.pushed [connection] message) : h'.channels c = h.channels c := by
  simp [hch, Hub.pushed, hc]

theorem sendEach_cons {ids : List Uuid} : sendEach user message delivered (connection :: ids) =
    .call (.txSend connection message) fun sent =>
      if sent then sendEach user message true ids
      else (removeConnection user connection).bind fun _ => sendEach user message delivered ids :=
  rfl

def Hub.afterTry (h : Hub) (user connection : Uuid) (message : String) : Hub :=
  if h.alive connection then h.afterSend connection message else h.without user connection

theorem channels_afterTry : (h.afterTry user connection message).channels =
    h.pushed [connection] message := by
  unfold Hub.afterTry
  split
  · exact channels_afterSend
  · next hdead => rw [Hub.channels_without, pushed_closed (by simpa using hdead)]

theorem channels_afterTry_of_mem {ids : List Uuid} (hnew : connection ∉ ids) :
    ∀ c ∈ ids, (h.afterTry user connection message).channels c = h.channels c :=
  fun _ hc => channels_pushed_of_ne (ne_of_mem_of_not_mem hc hnew) channels_afterTry

theorem guards_afterTry (u : Uuid) : (h.afterTry user connection message).guards u =
    h.guards u := by
  unfold Hub.afterTry
  split
  · exact congrFun guards_afterSend u
  · exact Hub.guards_without u

theorem completes_sendEach_cons {ids : List Uuid} (hch : (h.channels connection).isSome) :
    h.Completes (sendEach user message delivered (connection :: ids)) r h' ↔
      h.accepts connection ∧
      (h.alive connection = false → h.vacates user connection → h.guards user = 0) ∧
      (h.afterTry user connection message).Completes
        (sendEach user message (delivered || h.alive connection) ids) r h' := by
  have hsend : h.txSend connection message = _ := txSend_eq hch
  unfold Hub.Completes Hub.afterTry
  rw [sendEach_cons]
  cases haccepts : h.accepts connection with
  | false =>
    rw [haccepts, if_neg Bool.false_ne_true] at hsend
    refine iff_of_false (fun hc => ?_) fun hc => Bool.false_ne_true hc.1
    obtain ⟨_, _, _, hexec, -⟩ := (Program.completes_call _).mp hc
    exact Option.some_ne_none _ (hexec.symm.trans hsend)
  | true =>
    rw [haccepts, if_pos rfl] at hsend
    rw [Program.completes_call_of_eq _ (fun _ => hsend), and_iff_right rfl]
    cases halive : h.alive connection with
    | true =>
      rw [if_pos rfl, if_pos rfl, Bool.or_true]
      exact (and_iff_right nofun).symm
    | false =>
      rw [if_neg Bool.false_ne_true, if_neg Bool.false_ne_true, Bool.or_false,
        afterSend_dead halive,
        Program.completes_bind]
      constructor
      · rintro ⟨_, h₁, hremove, hrest⟩
        obtain ⟨hfree, rfl⟩ := completes_removeConnection.mp hremove
        exact ⟨fun _ => hfree, hrest⟩
      · rintro ⟨hfree, hrest⟩
        exact ⟨(), _, completes_removeConnection.mpr ⟨hfree rfl, rfl⟩, hrest⟩

theorem completes_sendEach_iff {ids : List Uuid} (hnodup : ids.Nodup) (hfree : h.guards user = 0)
    (hch : ∀ c ∈ ids, (h.channels c).isSome) :
    (∃ r h', h.Completes (sendEach user message delivered ids) r h') ↔ ∀ c ∈ ids, h.accepts c := by
  induction ids generalizing h delivered with
  | nil => exact iff_of_true ⟨delivered, h, (Program.completes_done _).mpr ⟨rfl, rfl⟩⟩ nofun
  | cons c ids ih =>
    obtain ⟨hnew, hnodup⟩ := List.nodup_cons.mp hnodup
    obtain ⟨hc, hids⟩ := List.forall_mem_cons.mp hch
    have hother : ∀ c' ∈ ids, (h.afterTry user c message).channels c' = h.channels c' :=
      channels_afterTry_of_mem hnew
    have hrest : (∃ r h', (h.afterTry user c message).Completes
        (sendEach user message (delivered || h.alive c) ids) r h') ↔
          ∀ c' ∈ ids, (h.afterTry user c message).accepts c' := ih hnodup
      ((guards_afterTry user).trans hfree) fun c' hc' => (hother c' hc').symm ▸ hids c' hc'
    have haccepts : (∀ c' ∈ ids, (h.afterTry user c message).accepts c') ↔
        ∀ c' ∈ ids, h.accepts c' :=
      forall₂_congr fun c' hc' => by rw [Hub.accepts_congr (hother c' hc')]
    simp only [completes_sendEach_cons hc, exists_and_left, hrest, haccepts, List.forall_mem_cons,
      hfree, implies_true, true_and]

theorem of_completes_sendEach {ids : List Uuid} (hnodup : ids.Nodup)
    (hch : ∀ c ∈ ids, (h.channels c).isSome)
    (hcompletes : h.Completes (sendEach user message delivered ids) r h') :
    h'.channels = h.pushed ids message ∧ r = (delivered || ids.any h.alive) := by
  induction ids generalizing h delivered with
  | nil =>
    obtain ⟨rfl, rfl⟩ := (Program.completes_done _).mp hcompletes
    refine ⟨?_, (Bool.or_false _).symm⟩
    funext c
    simp [Hub.pushed]
  | cons c ids ih =>
    obtain ⟨hnew, hnodup⟩ := List.nodup_cons.mp hnodup
    obtain ⟨hc, hids⟩ := List.forall_mem_cons.mp hch
    have hother : ∀ c' ∈ ids, (h.afterTry user c message).channels c' = h.channels c' :=
      channels_afterTry_of_mem hnew
    obtain ⟨hchannels, hr⟩ := ih hnodup (fun c' hc' => (hother c' hc').symm ▸ hids c' hc')
      ((completes_sendEach_cons hc).mp hcompletes).2.2
    have halive : ids.any (h.afterTry user c message).alive = ids.any h.alive :=
      Bool.eq_iff_iff.mpr (by
        simp only [List.any_eq_true]
        exact exists_congr fun c' => and_congr_right fun hc' => by
          rw [Hub.alive_congr (hother c' hc')])
    exact ⟨hchannels.trans (pushed_cons hnew channels_afterTry),
      by rw [hr, halive, List.any_cons, Bool.or_assoc]⟩

theorem sendToUser_eq : sendToUser user message =
    .call (.get user) fun present =>
      if present then
        .call (.collect user) fun senders => .call (.drop user) fun _ =>
          sendEach user message false senders
      else .done false := rfl

theorem completes_sendToUser :
    h.Completes (sendToUser user message) r h' ↔
      if (h.connections user).isSome then
        ∃ choice : HubChoice, ((h.acquire user).release user).Completes
          (sendEach user message false (choice.order (h.members user))) r h'
      else r = false ∧ h' = h := by
  unfold Hub.Completes
  rw [sendToUser_eq]
  cases hentry : (h.connections user).isSome with
  | true =>
    rw [Program.completes_call_of_eq _ (fun _ => if_pos hentry), if_pos rfl, if_pos rfl,
      Program.completes_call]
    constructor
    · rintro ⟨choice, _, _, ⟨⟩, hrest⟩
      rw [Program.completes_call_of_eq _ fun _ => rfl] at hrest
      exact ⟨choice, hrest⟩
    · rintro ⟨choice, hrest⟩
      refine ⟨choice, _, _, rfl, ?_⟩
      rw [Program.completes_call_of_eq _ fun _ => rfl]
      exact hrest
  | false =>
    have hnone : ¬(h.connections user).isSome := by simp [hentry]
    rw [Program.completes_call_of_eq _ (fun _ => if_neg hnone), if_neg Bool.false_ne_true,
      if_neg Bool.false_ne_true, Program.completes_done]

theorem members_of_isNone (hnone : ¬(h.connections user).isSome) : h.members user = [] := by
  rw [Hub.members, Option.not_isSome_iff_eq_none.mp hnone]
  rfl

theorem mem_order {choice : HubChoice} {ids : List Uuid} : connection ∈ choice.order ids ↔
    connection ∈ ids := (choice.perm ids).mem_iff

theorem completes_sendToUser_iff (message : String) (hfree : h.guards user = 0) :
    (∃ r h', h.Completes (sendToUser user message) r h') ↔
      ∀ c ∈ h.members user, h.accepts c := by
  simp only [completes_sendToUser]
  by_cases hentry : (h.connections user).isSome
  · simp only [if_pos hentry]
    have hends : ∀ choice : HubChoice, (∃ r h', ((h.acquire user).release user).Completes
        (sendEach user message false (choice.order (h.members user))) r h') ↔
          ∀ c ∈ h.members user, h.accepts c := by
      intro choice
      refine (completes_sendEach_iff ((choice.perm _).nodup_iff.mpr (h.nodup user))
        ((Hub.guards_acquire_release user).trans hfree) fun c hc => ?_).trans ?_
      · exact h.backed user c (mem_order.mp hc)
      · exact forall_congr' fun c => by rw [mem_order]; rfl
    constructor
    · rintro ⟨r, h', choice, hc⟩
      exact (hends choice).mp ⟨r, h', hc⟩
    · intro haccepts
      obtain ⟨r, h', hc⟩ := (hends .plain).mpr haccepts
      exact ⟨r, h', _, hc⟩
  · simp only [if_neg hentry, members_of_isNone hentry]
    exact iff_of_true ⟨false, h, rfl, rfl⟩ nofun

theorem of_completes_sendToUser
    (hcompletes : h.Completes (sendToUser user message) r h') :
    h'.channels = h.pushed (h.members user) message ∧ r = (h.members user).any h.alive := by
  rw [completes_sendToUser] at hcompletes
  split at hcompletes
  · obtain ⟨choice, hcompletes⟩ := hcompletes
    have hbacked : ∀ c ∈ choice.order (h.members user),
        (((h.acquire user).release user).channels c).isSome :=
      fun c hc => h.backed user c (mem_order.mp hc)
    obtain ⟨hchannels, hr⟩ := of_completes_sendEach ((choice.perm _).nodup_iff.mpr (h.nodup user))
      hbacked hcompletes
    refine ⟨hchannels.trans ?_, hr.trans ?_⟩
    · funext c
      simp only [Hub.pushed, mem_order]
      rfl
    · exact (Bool.false_or _).trans ((choice.perm _).any_eq)
  · next hentry =>
    obtain ⟨rfl, rfl⟩ := hcompletes
    rw [members_of_isNone hentry]
    refine ⟨?_, rfl⟩
    funext c
    simp [Hub.pushed]

end Alone

end NotiService
