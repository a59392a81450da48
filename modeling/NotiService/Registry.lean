import NotiService.SocketSend

/-! Which connections the registry keeps. `remove_connection` drops its guard before it
removes an entry it has found empty; a connection that is added in between is lost with
the entry. While none is, every open connection stays registered until its own removal
begins. -/

namespace NotiService
open Foundation ConnectionManager

/-- The entry that the next call of a program removes. -/
def HubOp.clears {α : Type} : HubOp α → Option Uuid
  | .outerRemove user => some user
  | _ => none

def clears {α : Type} (p : Program HubOp α) : Option Uuid := (p.peek HubOp.clears).join

/-- No connection of a user is added while a call of `remove_connection` has found the
user's entry empty and not removed it yet. -/
def AvoidsGap (s : HubState) : HubLabel → Prop
  | .connect user _ => ∀ p ∈ s.tasks, clears p ≠ some user
  | _ => True

def Hub.receiver (h : Hub) (connection : Uuid) : Option (Uuid × Bool) :=
  (h.channels connection).map fun ch => (ch.user, ch.isOpen)

namespace Registry

inductive RemovePc where
  | get | innerRemove | test | drop (isEmpty : Bool) | outerRemove | finished

/-- What is left of `remove_connection`, and then `rest`. -/
def RemovePc.prog {α : Type} (user connection : Uuid) (rest : Program HubOp α) :
    RemovePc → Program HubOp α
  | .get => do
    removeConnection user connection
    rest
  | .innerRemove => .call (.innerRemove user connection) fun _ => .call (.isEmpty user)
      fun isEmpty => .call (.drop user) fun _ =>
        if isEmpty then .call (.outerRemove user) fun _ => rest else rest
  | .test => .call (.isEmpty user) fun isEmpty => .call (.drop user) fun _ =>
      if isEmpty then .call (.outerRemove user) fun _ => rest else rest
  | .drop isEmpty => .call (.drop user) fun _ =>
      if isEmpty then .call (.outerRemove user) fun _ => rest else rest
  | .outerRemove => .call (.outerRemove user) fun _ => rest
  | .finished => rest

theorem RemovePc.prog_get {α : Type} (user connection : Uuid) (rest : Program HubOp α) :
    RemovePc.get.prog user connection rest = .call (.get user) fun present =>
      (if present then RemovePc.innerRemove else .finished).prog user connection rest := by
  refine Program.call_congr fun present => ?_
  cases present with
  | false => rfl
  | true =>
    refine Program.call_congr fun _ => Program.call_congr fun isEmpty =>
      Program.call_congr fun _ => ?_
    cases isEmpty <;> rfl

inductive TaskPc where
  | start (message : String)
  | collect (message : String)
  | drop (message : String) (senders : List Uuid)
  | push (message : String) (delivered : Bool) (connection : Uuid) (senders : List Uuid)
  | remove (connection : Uuid) (pc : RemovePc) (after : Option (String × Bool × List Uuid))
  | done

namespace TaskPc

variable (user : Uuid)

def ignore {α : Type} (p : Program HubOp α) : Program HubOp Unit := p.map fun _ => ()

def rest : Option (String × Bool × List Uuid) → Program HubOp Unit
  | none => .done ()
  | some (message, delivered, senders) => ignore (sendEach user message delivered senders)

def prog : TaskPc → Program HubOp Unit
  | .start message => ignore (sendToUser user message)
  | .collect message => .call (.collect user) fun senders => .call (.drop user) fun _ =>
      ignore (sendEach user message false senders)
  | .drop message senders => .call (.drop user) fun _ =>
      ignore (sendEach user message false senders)
  | .push message delivered connection senders =>
      ignore (sendEach user message delivered (connection :: senders))
  | .remove connection pc after => pc.prog user connection (rest user after)
  | .done => .done ()

def next (message : String) (delivered : Bool) : List Uuid → TaskPc
  | [] => .done
  | connection :: senders => .push message delivered connection senders

def after : Option (String × Bool × List Uuid) → TaskPc
  | none => .done
  | some (message, delivered, senders) => next message delivered senders

theorem prog_next (message : String) (delivered : Bool) (senders : List Uuid) :
    (next message delivered senders).prog user =
      ignore (sendEach user message delivered senders) := by
  cases senders <;> rfl

theorem prog_after (a : Option (String × Bool × List Uuid)) :
    (after a).prog user = rest user a := by
  cases a with
  | none => rfl
  | some a => exact prog_next user ..

theorem prog_start (message : String) : (start message).prog user =
    .call (.get user) fun present =>
      (if present then TaskPc.collect message else .done).prog user := by
  refine Program.call_congr fun present => ?_
  cases present <;> rfl

theorem prog_drop (message : String) (senders : List Uuid) : (drop message senders).prog user =
    .call (.drop user) fun _ => (next message false senders).prog user :=
  Program.call_congr fun _ => (prog_next user ..).symm

theorem prog_push (message : String) (delivered : Bool) (connection : Uuid)
    (senders : List Uuid) : (push message delivered connection senders).prog user =
      .call (.txSend connection message) fun sent =>
        (if sent then next message true senders
          else remove connection .get (some (message, delivered, senders))).prog user := by
  refine Program.call_congr fun sent => ?_
  cases sent with
  | true => exact (prog_next user ..).symm
  | false => exact Program.bind_assoc (removeConnection user connection) _ _

end TaskPc

inductive RemoveStep (user connection : Uuid) : Hub → RemovePc → Hub → RemovePc → Prop where
  | getMissing {h : Hub} : h.connections user = none →
      RemoveStep user connection h .get h .finished
  | get {h : Hub} : (h.connections user).isSome →
      RemoveStep user connection h .get (h.acquire user) .innerRemove
  | innerRemove {h : Hub} :
      RemoveStep user connection h .innerRemove (h.eraseConnection user connection) .test
  | test {h : Hub} : RemoveStep user connection h .test h (.drop (h.members user).isEmpty)
  | dropEmpty {h : Hub} : RemoveStep user connection h (.drop true) (h.release user) .outerRemove
  | dropFilled {h : Hub} : RemoveStep user connection h (.drop false) (h.release user) .finished
  | outerRemove {h : Hub} : h.guards user = 0 →
      RemoveStep user connection h .outerRemove (h.removeEntry user) .finished

inductive TaskStep (choice : HubChoice) (user : Uuid) : Hub → TaskPc → Hub → TaskPc → Prop where
  | startMissing {h : Hub} {message} : h.connections user = none →
      TaskStep choice user h (.start message) h .done
  | start {h : Hub} {message} : (h.connections user).isSome →
      TaskStep choice user h (.start message) (h.acquire user) (.collect message)
  | collect {h : Hub} {message} :
      TaskStep choice user h (.collect message) h (.drop message (choice.order (h.members user)))
  | drop {h : Hub} {message senders} : TaskStep choice user h (.drop message senders)
      (h.release user) (.next message false senders)
  | push {h : Hub} {message delivered connection senders ch} :
      h.channels connection = some ch → ch.isOpen → ch.hasRoom →
      TaskStep choice user h (.push message delivered connection senders)
        (h.setChannel connection { ch with queue := ch.queue ++ [message] })
        (.next message true senders)
  | pushClosed {h : Hub} {message delivered connection senders ch} :
      h.channels connection = some ch → ch.isOpen = false →
      TaskStep choice user h (.push message delivered connection senders) h
        (.remove connection .get (some (message, delivered, senders)))
  | remove {h h' : Hub} {connection pc pc' after} : RemoveStep user connection h pc h' pc' →
      pc' ≠ .finished →
      TaskStep choice user h (.remove connection pc after) h' (.remove connection pc' after)
  | removed {h h' : Hub} {connection pc after} : RemoveStep user connection h pc h' .finished →
      TaskStep choice user h (.remove connection pc after) h' (.after after)

section Steps

variable {choice : HubChoice} {user connection : Uuid} {h h' : Hub}

theorem removeStep_of_step {α : Type} {pc : RemovePc} {rest p : Program HubOp α}
    (hpc : pc ≠ .finished)
    (hs : Program.step (Hub.exec choice) (pc.prog user connection rest) h = some (p, h')) :
    ∃ pc', p = pc'.prog user connection rest ∧ RemoveStep user connection h pc h' pc' := by
  cases pc with
  | get =>
    rw [RemovePc.prog_get, Program.step_call_eq_some] at hs
    obtain ⟨present, hr, rfl⟩ := hs
    simp only [Hub.exec] at hr
    split at hr
    · next hsome =>
      cases hr
      exact ⟨_, rfl, .get hsome⟩
    · next hnone =>
      cases hr
      exact ⟨_, rfl, .getMissing (by simpa using hnone)⟩
  | innerRemove =>
    obtain ⟨_, hr, rfl⟩ := (Program.step_call_eq_some _ _ _ _ _ _).mp hs
    cases hr
    exact ⟨.test, rfl, .innerRemove⟩
  | test =>
    obtain ⟨_, hr, rfl⟩ := (Program.step_call_eq_some _ _ _ _ _ _).mp hs
    cases hr
    exact ⟨.drop _, rfl, .test⟩
  | drop empty =>
    obtain ⟨_, hr, rfl⟩ := (Program.step_call_eq_some _ _ _ _ _ _).mp hs
    cases hr
    cases empty with
    | true => exact ⟨.outerRemove, rfl, .dropEmpty⟩
    | false => exact ⟨.finished, rfl, .dropFilled⟩
  | outerRemove =>
    obtain ⟨_, hr, rfl⟩ := (Program.step_call_eq_some _ _ _ _ _ _).mp hs
    obtain ⟨hfree, hr⟩ := Option.ite_none_right_eq_some.mp hr
    cases hr
    exact ⟨.finished, rfl, .outerRemove hfree⟩
  | finished => exact absurd rfl hpc

/-- A removal within a task does not stand at its end. -/
def TaskPc.Normal : TaskPc → Prop
  | .remove _ .finished _ => False
  | _ => True

theorem taskStep_of_step {pc : TaskPc} {p : Program HubOp Unit} (hpc : pc.Normal)
    (hs : Program.step (Hub.exec choice) (pc.prog user) h = some (p, h')) :
    ∃ pc', p = pc'.prog user ∧ TaskStep choice user h pc h' pc' := by
  cases pc with
  | start message =>
    rw [TaskPc.prog_start, Program.step_call_eq_some] at hs
    obtain ⟨present, hr, rfl⟩ := hs
    simp only [Hub.exec] at hr
    split at hr
    · next hsome =>
      cases hr
      exact ⟨_, rfl, .start hsome⟩
    · next hnone =>
      cases hr
      exact ⟨_, rfl, .startMissing (by simpa using hnone)⟩
  | collect message =>
    obtain ⟨_, hr, rfl⟩ := (Program.step_call_eq_some _ _ _ _ _ _).mp hs
    cases hr
    exact ⟨.drop message _, rfl, .collect⟩
  | drop message senders =>
    rw [TaskPc.prog_drop, Program.step_call_eq_some] at hs
    obtain ⟨_, hr, rfl⟩ := hs
    cases hr
    exact ⟨_, rfl, .drop⟩
  | push message delivered connection senders =>
    rw [TaskPc.prog_push, Program.step_call_eq_some] at hs
    obtain ⟨sent, hr, rfl⟩ := hs
    refine ⟨_, rfl, ?_⟩
    simp only [Hub.exec, Hub.txSend] at hr
    split at hr
    · cases hr
    · next ch hch =>
      split at hr
      · next hopen =>
        obtain ⟨hroom, hr⟩ := Option.ite_none_right_eq_some.mp hr
        cases hr
        exact .push hch hopen hroom
      · next hclosed =>
        cases hr
        exact .pushClosed hch (by simpa using hclosed)
  | remove connection pc after =>
    have hne : pc ≠ .finished := by
      rintro rfl
      exact hpc
    obtain ⟨pc', rfl, hr⟩ := removeStep_of_step hne hs
    by_cases hfin : pc' = .finished
    · subst hfin
      exact ⟨.after after, (TaskPc.prog_after user after).symm, .removed hr⟩
    · exact ⟨.remove connection pc' after, rfl, .remove hr hfin⟩
  | done => cases hs

theorem TaskPc.normal_after (a : Option (String × Bool × List Uuid)) :
    (TaskPc.after a).Normal := by
  rcases a with _ | ⟨message, delivered, _ | _⟩ <;> trivial

theorem TaskPc.normal_remove {pc : RemovePc} (hpc : pc ≠ .finished)
    (after : Option (String × Bool × List Uuid)) :
    (TaskPc.remove connection pc after).Normal := by
  cases pc with
  | finished => exact absurd rfl hpc
  | _ => trivial

theorem TaskStep.normal {pc pc' : TaskPc} (hs : TaskStep choice user h pc h' pc') :
    pc'.Normal := by
  cases hs with
  | drop => exact TaskPc.normal_after (some (_, false, _))
  | push => exact TaskPc.normal_after (some (_, true, _))
  | removed => exact TaskPc.normal_after _
  | remove _ hne => exact TaskPc.normal_remove hne _
  | _ => trivial

def RemovePc.holds : RemovePc → Bool
  | .innerRemove | .test | .drop _ => true
  | _ => false

def TaskPc.holds : TaskPc → Bool
  | .collect _ | .drop _ _ => true
  | .remove _ pc _ => pc.holds
  | _ => false

def TaskPc.removes : TaskPc → Option Uuid
  | .remove connection _ _ => some connection
  | _ => none

/-- The task has found the entry empty and will remove it. -/
def RemovePc.vacates : RemovePc → Bool
  | .drop true | .outerRemove => true
  | _ => false

def TaskPc.vacates : TaskPc → Bool
  | .remove _ pc _ => pc.vacates
  | _ => false

theorem TaskPc.holds_after (a : Option (String × Bool × List Uuid)) :
    (TaskPc.after a).holds = false := by
  rcases a with _ | ⟨message, delivered, _ | _⟩ <;> rfl

theorem TaskPc.removes_after (a : Option (String × Bool × List Uuid)) :
    (TaskPc.after a).removes = none := by
  rcases a with _ | ⟨message, delivered, _ | _⟩ <;> rfl

theorem TaskPc.vacates_after (a : Option (String × Bool × List Uuid)) :
    (TaskPc.after a).vacates = false := by
  rcases a with _ | ⟨message, delivered, _ | _⟩ <;> rfl

theorem members_erase (u : Uuid) : (h.eraseConnection user connection).members u =
    if u = user then (h.members user).erase connection else h.members u := by
  by_cases hu : u = user
  · subst hu
    rw [if_pos rfl]
    simp only [Hub.members, Hub.eraseConnection, Function.update_self]
    cases h.connections u <;> rfl
  · rw [if_neg hu]
    simp only [Hub.members, Hub.eraseConnection, Function.update_of_ne hu]

theorem members_removeEntry (u : Uuid) :
    (h.removeEntry user).members u = if u = user then [] else h.members u := by
  by_cases hu : u = user
  · subst hu
    simp [Hub.members, Hub.removeEntry]
  · simp [Hub.members, Hub.removeEntry, hu]

theorem receiver_setChannel {ch ch' : Channel} (hch : h.channels connection = some ch)
    (huser : ch'.user = ch.user) (hopen : ch'.isOpen = ch.isOpen) :
    (h.setChannel connection ch').receiver = h.receiver := by
  funext c
  by_cases hc : c = connection
  · subst hc
    simp [Hub.receiver, Hub.setChannel, hch, huser, hopen]
  · simp [Hub.receiver, Hub.setChannel, Function.update_of_ne hc]

def ind (b : Bool) : Nat := if b then 1 else 0

/-- What a step of a task of `user` does: to the guards, the members and the channels. -/
structure Effect (user : Uuid) (h : Hub) (pc : TaskPc) (h' : Hub) (pc' : TaskPc) : Prop where
  guards : ∀ u, h'.guards u + (if u = user then ind pc.holds else 0) =
    h.guards u + (if u = user then ind pc'.holds else 0)
  receiver : h'.receiver = h.receiver
  gone : ∀ u, h'.members u ⊆ h.members u
  kept : ∀ u c, c ∈ h.members u → c ∈ h'.members u ∨ pc.removes = some c ∨
    (u = user ∧ pc.vacates)
  removes : ∀ c, pc'.removes = some c → pc.removes = some c ∨ ∃ u, h.receiver c = some (u, false)
  vacates : pc'.vacates → pc.vacates ∨ h'.members user = []

theorem guards_acquire (u : Uuid) : (h.acquire user).guards u + (if u = user then 0 else 0) =
    h.guards u + (if u = user then 1 else 0) := by
  by_cases hu : u = user
  · subst hu
    simp [Hub.acquire]
  · simp [Hub.acquire, hu]

theorem guards_release (hpos : 0 < h.guards user) (u : Uuid) :
    (h.release user).guards u + (if u = user then 1 else 0) =
      h.guards u + (if u = user then 0 else 0) := by
  by_cases hu : u = user
  · subst hu
    simp [Hub.release]
    omega
  · simp [Hub.release, hu]

theorem Effect.of_same {pc pc' : TaskPc} (hholds : pc'.holds = pc.holds)
    (hremoves : ∀ c, pc'.removes = some c → pc.removes = some c)
    (hvacates : pc'.vacates → pc.vacates) : Effect user h pc h pc' where
  guards _ := by rw [hholds]
  receiver := rfl
  gone _ := fun _ hc => hc
  kept _ _ hc := .inl hc
  removes c hc := .inl (hremoves c hc)
  vacates hv := .inl (hvacates hv)

theorem removeStep_effect {pc pc' : RemovePc} {after : Option (String × Bool × List Uuid)}
    (hpos : pc.holds → 0 < h.guards user) (hs : RemoveStep user connection h pc h' pc') :
    Effect user h (.remove connection pc after) h' (.remove connection pc' after) := by
  cases hs with
  | getMissing => exact .of_same rfl (fun _ hc => hc) nofun
  | get => exact ⟨guards_acquire, rfl, fun _ _ hc => hc, fun _ _ hc => .inl hc,
      fun _ hc => .inl hc, nofun⟩
  | test =>
    refine ⟨fun _ => rfl, rfl, fun _ _ hc => hc, fun _ _ hc => .inl hc,
      fun _ hc => .inl hc, fun hv => .inr ?_⟩
    cases hempty : (h.members user).isEmpty with
    | true => simpa using hempty
    | false => simp [TaskPc.vacates, RemovePc.vacates, hempty] at hv
  | innerRemove =>
    refine ⟨fun _ => rfl, rfl, fun u c hc => ?_, fun u c hc => ?_,
      fun _ hc => .inl hc, nofun⟩
    · rw [members_erase] at hc
      split at hc
      · next hu => exact hu ▸ List.mem_of_mem_erase hc
      · exact hc
    · rw [members_erase]
      by_cases hcc : c = connection
      · exact .inr (.inl (congrArg some hcc.symm))
      · left
        split
        · next hu => exact (List.mem_erase_of_ne hcc).mpr (hu ▸ hc)
        · exact hc
  | dropEmpty => exact ⟨guards_release (hpos rfl), rfl, fun _ _ hc => hc,
      fun _ _ hc => .inl hc, fun _ hc => .inl hc, fun _ => .inl rfl⟩
  | dropFilled => exact ⟨guards_release (hpos rfl), rfl, fun _ _ hc => hc,
      fun _ _ hc => .inl hc, fun _ hc => .inl hc, nofun⟩
  | outerRemove =>
    refine ⟨fun _ => rfl, rfl, fun u c hc => ?_, fun u c hc => ?_,
      fun _ hc => .inl hc, nofun⟩
    · rw [members_removeEntry] at hc
      split at hc
      · cases hc
      · exact hc
    · rw [members_removeEntry]
      by_cases hu : u = user
      · exact .inr (.inr ⟨hu, rfl⟩)
      · rw [if_neg hu]
        exact .inl hc

theorem taskStep_effect {pc pc' : TaskPc} (hpos : pc.holds → 0 < h.guards user)
    (hs : TaskStep choice user h pc h' pc') : Effect user h pc h' pc' := by
  cases hs with
  | startMissing | collect => exact .of_same rfl nofun nofun
  | start => exact ⟨guards_acquire, rfl, fun _ _ hc => hc, fun _ _ hc => .inl hc,
      nofun, nofun⟩
  | @drop message senders =>
    have hafter : TaskPc.next message false senders = .after (some (message, false, senders)) := rfl
    rw [hafter]
    refine ⟨?_, rfl, fun _ _ hc => hc, fun _ _ hc => .inl hc, ?_, ?_⟩
    · rw [TaskPc.holds_after]
      exact guards_release (hpos rfl)
    · rw [TaskPc.removes_after]
      nofun
    · rw [TaskPc.vacates_after]
      nofun
  | @push message delivered c senders ch hch hopen hroom =>
    have hafter : TaskPc.next message true senders = .after (some (message, true, senders)) := rfl
    rw [hafter]
    refine ⟨fun u => ?_, ?_, fun _ _ hc => hc, fun _ _ hc => .inl hc, ?_, ?_⟩
    · rw [TaskPc.holds_after]
      rfl
    · exact receiver_setChannel hch rfl rfl
    · rw [TaskPc.removes_after]
      exact fun _ hc => nomatch hc
    · rw [TaskPc.vacates_after]
      exact fun hv => nomatch hv
  | @pushClosed message delivered c senders ch hch hclosed =>
    refine ⟨fun _ => rfl, rfl, fun _ _ hc => hc, fun _ _ hc => .inl hc,
      fun c hc => .inr ⟨ch.user, ?_⟩, nofun⟩
    rw [← Option.some.inj hc, Hub.receiver, hch, ← hclosed]
    rfl
  | remove hr => exact removeStep_effect hpos hr
  | @removed _ c pc after hr =>
    have heff : Effect user h (.remove c pc after) h' (.remove c .finished after) :=
      removeStep_effect hpos hr
    refine ⟨?_, heff.receiver, heff.gone, heff.kept, ?_, ?_⟩
    · rw [TaskPc.holds_after]
      exact heff.guards
    · rw [TaskPc.removes_after]
      nofun
    · rw [TaskPc.vacates_after]
      nofun

end Steps

abbrev Task := Uuid × TaskPc

def Task.prog (t : Task) : Program HubOp Unit := t.2.prog t.1

theorem prog_removeConnection (user connection : Uuid) :
    Task.prog (user, .remove connection .get none) = removeConnection user connection :=
  Program.bind_done (removeConnection user connection)

def Task.holdsOf (u : Uuid) (t : Task) : Bool := t.1 = u && t.2.holds

/-- `dead`: a connection that is being removed is one that `handle_socket` has left or
whose receiver is gone. -/
structure Inv (s : HubState) (ts : List Task) : Prop where
  tasks : s.tasks = ts.map Task.prog
  normal : ∀ t ∈ ts, t.2.Normal
  guards : ∀ u, s.hub.guards u = ts.countP (Task.holdsOf u)
  dead : ∀ t ∈ ts, ∀ c, t.2.removes = some c →
    c ∈ s.removed ∨ ∃ u, s.hub.receiver c = some (u, false)
  vacant : ∀ t ∈ ts, t.2.vacates → s.hub.members t.1 = []
  registered : ∀ c u, s.hub.receiver c = some (u, true) → c ∉ s.removed → c ∈ s.hub.members u

section Invariant

variable {s s' : HubState} {ts : List Task}

theorem inv_start : Inv HubState.start [] where
  tasks := rfl
  normal _ ht := nomatch ht
  guards _ := rfl
  dead _ ht := nomatch ht
  vacant _ ht := nomatch ht
  registered _ _ hr := nomatch hr

theorem Inv.start_task (hinv : Inv s ts) {t : Task} (hnormal : t.2.Normal)
    (hholds : t.2.holds = false) (hvacates : t.2.vacates = false) {removed : List Uuid}
    (hsub : s.removed ⊆ removed) (hdead : ∀ c, t.2.removes = some c → c ∈ removed) :
    Inv { s with tasks := s.tasks ++ [t.prog], removed := removed } (ts ++ [t]) where
  tasks := by
    rw [List.map_append, ← hinv.tasks]
    rfl
  normal := List.forall_mem_append.mpr ⟨hinv.normal, by simpa using hnormal⟩
  guards u := by
    have hno : Task.holdsOf u t = false := by simp [Task.holdsOf, hholds]
    simp [List.countP_append, hinv.guards u, hno]
  dead := by
    refine List.forall_mem_append.mpr ⟨fun t' ht' c hc => ?_, ?_⟩
    · exact (hinv.dead t' ht' c hc).imp_left fun hmem => hsub hmem
    · rw [List.forall_mem_singleton]
      exact fun c hc => .inl (hdead c hc)
  vacant := by
    refine List.forall_mem_append.mpr ⟨hinv.vacant, ?_⟩
    rw [List.forall_mem_singleton, hvacates]
    exact fun hv => nomatch hv
  registered c u hr hc := hinv.registered c u hr fun hmem => hc (hsub hmem)

theorem Inv.setChannel (hinv : Inv s ts) {c : Uuid} {ch ch' : Channel}
    (hch : s.hub.channels c = some ch) (huser : ch'.user = ch.user)
    (hopen : ch'.isOpen → ch.isOpen) : Inv { s with hub := s.hub.setChannel c ch' } ts := by
  have hother : ∀ {d}, d ≠ c → (s.hub.setChannel c ch').receiver d = s.hub.receiver d := by
    intro d hd
    simp [Hub.receiver, Hub.setChannel, Function.update_of_ne hd]
  have hself : (s.hub.setChannel c ch').receiver c = some (ch.user, ch'.isOpen) := by
    simp [Hub.receiver, Hub.setChannel, huser]
  have hbefore : s.hub.receiver c = some (ch.user, ch.isOpen) := by
    simp [Hub.receiver, hch]
  refine ⟨hinv.tasks, hinv.normal, hinv.guards, fun t ht d hd => ?_, hinv.vacant, fun d u hr hd =>
    ?_⟩
  · refine (hinv.dead t ht d hd).imp_right ?_
    rintro ⟨u, hu⟩
    by_cases hdc : d = c
    · subst hdc
      rw [hbefore] at hu
      obtain ⟨rfl, hclosed⟩ := Prod.mk.inj (Option.some.inj hu)
      refine ⟨ch.user, hself.trans ?_⟩
      cases hopen' : ch'.isOpen with
      | true => rw [hopen hopen'] at hclosed; cases hclosed
      | false => rfl
    · exact ⟨u, (hother hdc).trans hu⟩
  · by_cases hdc : d = c
    · subst hdc
      obtain ⟨rfl, hopen'⟩ := Prod.mk.inj (Option.some.inj (hself.symm.trans hr))
      exact hinv.registered d ch.user (by rw [hbefore, hopen hopen']) hd
    · exact hinv.registered d u ((hother hdc).symm.trans hr) hd

theorem Inv.no_vacating (hinv : Inv s ts) {user : Uuid} (hfree : s.hub.guards user = 0)
    (hclear : ∀ p ∈ s.tasks, clears p ≠ some user) : ∀ t ∈ ts, t.2.vacates → t.1 ≠ user := by
  rintro ⟨u, pc⟩ ht hv rfl
  have hnone : Task.holdsOf u (u, pc) = false := by
    have := List.countP_eq_zero.mp ((hinv.guards u).symm.trans hfree) (u, pc) ht
    simpa using this
  have hmem : Task.prog (u, pc) ∈ s.tasks := hinv.tasks ▸ List.mem_map_of_mem ht
  cases pc with
  | remove connection pc after =>
    cases pc with
    | drop empty =>
      simp [Task.holdsOf, TaskPc.holds, RemovePc.holds] at hnone
    | outerRemove => exact hclear _ hmem rfl
    | _ => cases hv
  | _ => cases hv

theorem Inv.connect (hinv : Inv s ts) {user c : Uuid} {hub : Hub}
    (hclear : ∀ p ∈ s.tasks, clears p ≠ some user)
    (hadd : s.hub.addConnection user c = some hub) : Inv { s with hub } ts := by
  obtain ⟨⟨hfree, hnew⟩, hadd⟩ := Option.ite_none_right_eq_some.mp hadd
  cases hadd
  have hnone : s.hub.receiver c = none := by
    rw [Option.isNone_iff_eq_none] at hnew
    simp [Hub.receiver, hnew]
  have hother : ∀ {d}, d ≠ c → (s.hub.insertConnection user c
      ⟨user, [], socketCapacity, true⟩).receiver d = s.hub.receiver d := by
    intro d hd
    simp [Hub.receiver, Hub.insertConnection, Function.update_of_ne hd]
  have hself : (s.hub.insertConnection user c
      ⟨user, [], socketCapacity, true⟩).receiver c = some (user, true) := by
    simp [Hub.receiver, Hub.insertConnection]
  have hmembers : ∀ u, (s.hub.insertConnection user c
      ⟨user, [], socketCapacity, true⟩).members u =
        if u = user then (s.hub.members user).insert c else s.hub.members u := by
    intro u
    by_cases hu : u = user
    · subst hu
      simp [Hub.members, Hub.insertConnection]
    · simp [Hub.members, Hub.insertConnection, hu]
  refine ⟨hinv.tasks, hinv.normal, hinv.guards, fun t ht d hd => ?_, fun t ht hv => ?_,
    fun d u hr hd => ?_⟩
  · refine (hinv.dead t ht d hd).imp_right ?_
    rintro ⟨u, hu⟩
    refine ⟨u, ?_⟩
    have hdc : d ≠ c := by
      rintro rfl
      rw [hnone] at hu
      cases hu
    exact (hother hdc).trans hu
  · refine (hmembers t.1).trans ?_
    rw [if_neg (hinv.no_vacating hfree hclear t ht hv)]
    exact hinv.vacant t ht hv
  · refine (hmembers u).symm ▸ ?_
    by_cases hdc : d = c
    · subst hdc
      obtain ⟨rfl, -⟩ := Prod.mk.inj (Option.some.inj (hself.symm.trans hr))
      simp
    · have hmem := hinv.registered d u ((hother hdc).symm.trans hr) hd
      split
      · next hu => exact List.mem_insert_of_mem (hu ▸ hmem)
      · exact hmem

theorem Inv.task (hinv : Inv s ts) {i : Nat} {choice : HubChoice} {user : Uuid} {pc pc' : TaskPc}
    {hub : Hub} (ht : ts[i]? = some (user, pc)) (hs : TaskStep choice user s.hub pc hub pc') :
    Inv { s with hub, tasks := s.tasks.set i (pc'.prog user) } (ts.set i (user, pc')) := by
  have hmem := List.mem_of_getElem? ht
  have hpos : pc.holds → 0 < s.hub.guards user := by
    intro hholds
    rw [hinv.guards, List.countP_pos_iff]
    exact ⟨_, hmem, by simp [Task.holdsOf, hholds]⟩
  have heff := taskStep_effect hpos hs
  refine ⟨?_, ?_, fun u => ?_, ?_, ?_, fun c u hr hc => ?_⟩
  · rw [List.map_set, ← hinv.tasks]
    rfl
  · exact Slots.forall_mem_set hs.normal hinv.normal
  · have hcount := Slots.countP_set (a := (user, pc')) ht (Task.holdsOf u)
    have hguards := heff.guards u
    have hbefore := hinv.guards u
    by_cases hu : u = user
    · subst hu
      simp only [if_true, ind] at hguards
      simp only [Task.holdsOf, decide_true, Bool.true_and] at hcount
      exact Nat.add_right_cancel (hguards.trans (by rw [hbefore, hcount]))
    · simp only [if_neg hu] at hguards
      simp only [Task.holdsOf, decide_eq_false (Ne.symm hu), Bool.false_and] at hcount
      exact hguards.trans (hbefore.trans (Nat.add_right_cancel hcount).symm)
  · refine Slots.forall_mem_set (fun c hc => ?_) fun t ht c hc => ?_
    · rcases heff.removes c hc with hc | ⟨u, hu⟩
      · rw [heff.receiver]
        exact hinv.dead _ hmem c hc
      · exact .inr ⟨u, (congrFun heff.receiver c).trans hu⟩
    · rw [heff.receiver]
      exact hinv.dead t ht c hc
  · refine Slots.forall_mem_set (fun hv => ?_) fun t ht hv => ?_
    · rcases heff.vacates hv with hv | hempty
      · exact List.eq_nil_of_subset_nil (hinv.vacant _ hmem hv ▸ heff.gone user)
      · exact hempty
    · exact List.eq_nil_of_subset_nil (hinv.vacant t ht hv ▸ heff.gone t.1)
  · have hr' : s.hub.receiver c = some (u, true) := (congrFun heff.receiver c).symm.trans hr
    have hc' := hinv.registered c u hr' hc
    rcases heff.kept u c hc' with hkept | hrem | ⟨rfl, hv⟩
    · exact hkept
    · rcases hinv.dead _ hmem c hrem with hmem | ⟨w, hw⟩
      · exact absurd hmem hc
      · rw [hr'] at hw
        cases hw
    · rw [hinv.vacant _ hmem hv] at hc'
      cases hc'

theorem Inv.step (hinv : Inv s ts) {l : HubLabel} (hok : AvoidsGap s l)
    (hs : hubSystem.step s l = some s') : ∃ ts', Inv s' ts' := by
  cases l with
  | connect user c =>
    obtain ⟨hub, hadd, rfl⟩ := Option.map_eq_some_iff.mp hs
    exact ⟨ts, hinv.connect hok hadd⟩
  | drain c =>
    obtain ⟨ch, hch, rfl⟩ := Option.map_eq_some_iff.mp hs
    exact ⟨ts, hinv.setChannel hch rfl fun ho => ho⟩
  | close c =>
    obtain ⟨ch, hch, rfl⟩ := Option.map_eq_some_iff.mp hs
    exact ⟨ts, hinv.setChannel hch rfl nofun⟩
  | disconnect c =>
    obtain ⟨ch, hch, rfl⟩ := Option.map_eq_some_iff.mp hs
    have hnormal : (TaskPc.remove c .get none).Normal := trivial
    rw [← prog_removeConnection]
    refine ⟨_, hinv.start_task hnormal rfl rfl (List.subset_cons_self ..) ?_⟩
    rintro _ ⟨⟩
    exact List.mem_cons_self ..
  | send user message =>
    cases hs
    have hnormal : (TaskPc.start message).Normal := trivial
    exact ⟨_, hinv.start_task (t := ⟨user, _⟩) hnormal rfl rfl (fun _ hc => hc)
      fun _ hc => nomatch hc⟩
  | task i choice =>
    obtain ⟨p, hp, hs⟩ := Option.bind_eq_some_iff.mp hs
    obtain ⟨⟨p', hub⟩, hstep, rfl⟩ := Option.map_eq_some_iff.mp hs
    rw [hinv.tasks, List.getElem?_map] at hp
    obtain ⟨⟨user, pc⟩, ht, rfl⟩ := Option.map_eq_some_iff.mp hp
    obtain ⟨pc', rfl, htask⟩ := taskStep_of_step (hinv.normal _ (List.mem_of_getElem? ht)) hstep
    exact ⟨_, hinv.task ht htask⟩

theorem inv_reachable (h : hubSystem.Reachable AvoidsGap s) : ∃ ts, Inv s ts := by
  refine h.invariant (P := fun s => ∃ ts, Inv s ts) ?_ ?_
  · rintro _ rfl
    exact ⟨[], inv_start⟩
  · rintro s l t ⟨ts, hinv⟩ hok hs
    exact hinv.step hok hs

end Invariant

end Registry

/-- While no connection of a user is added in the gap that `remove_connection` leaves, every
open connection that has not been given up is in the registry under its user, and the next
`send_to_user` puts its message on its channel. -/
theorem registry_keeps {s : HubState} (h : hubSystem.Reachable AvoidsGap s) {c : Uuid}
    {ch : Channel} (hch : s.hub.channels c = some ch) (hopen : ch.isOpen) (hkept : c ∉ s.removed) :
    (∃ ids, s.hub.connections ch.user = some ids ∧ c ∈ ids) ∧
    ∀ message r hub, s.hub.Completes (sendToUser ch.user message) r hub →
      r = true ∧ hub.channels c = some { ch with queue := ch.queue ++ [message] } := by
  obtain ⟨ts, hinv⟩ := Registry.inv_reachable h
  have hreceiver : s.hub.receiver c = some (ch.user, true) := by
    rw [Hub.receiver, hch, ← hopen]
    rfl
  have hmem := hinv.registered c ch.user hreceiver hkept
  refine ⟨?_, fun message r hub hcompletes => ?_⟩
  · rw [Hub.members] at hmem
    cases hids : s.hub.connections ch.user with
    | none =>
      rw [hids] at hmem
      cases hmem
    | some ids =>
      rw [hids] at hmem
      exact ⟨ids, rfl, hmem⟩
  · obtain ⟨hchannels, hr⟩ := of_completes_sendToUser hcompletes
    refine ⟨?_, ?_⟩
    · rw [hr, List.any_eq_true]
      refine ⟨c, hmem, ?_⟩
      rw [Hub.alive, hch]
      exact hopen
    · simp [hchannels, Hub.pushed, hch, hmem, hopen]

def avoidsGap (s : HubState) : HubLabel → Bool
  | .connect user _ => s.tasks.all fun p => clears p ≠ some user
  | _ => true

theorem avoidsGap_of_check (s : HubState) (l : HubLabel) (h : avoidsGap s l = true) :
    AvoidsGap s l := by
  cases l with
  | connect user => exact fun p hp => of_decide_eq_true (List.all_eq_true.mp h p hp)
  | _ => trivial

/-- While the entry of user 7 is about to be removed, user 8 connects, and then user 7 again. -/
theorem registry_keeps_reconnected : ∃ s : HubState,
    s.hub.channels ⟨3⟩ = some ⟨⟨7⟩, [], 100, true⟩ ∧ s.removed = [⟨1⟩] ∧
    (∃ ids, s.hub.connections ⟨7⟩ = some ids ∧ ⟨3⟩ ∈ ids) ∧
    ∀ message r hub, s.hub.Completes (sendToUser ⟨7⟩ message) r hub →
      r = true ∧ hub.channels ⟨3⟩ = some ⟨⟨7⟩, [] ++ [message], 100, true⟩ := by
  obtain ⟨s, hrun, hch, hremoved⟩ : ∃ s, hubSystem.runWhen avoidsGap HubState.start
      [.connect ⟨7⟩ ⟨1⟩, .disconnect ⟨1⟩, .task 0 .plain, .task 0 .plain, .task 0 .plain,
        .task 0 .plain, .connect ⟨8⟩ ⟨2⟩, .task 0 .plain, .connect ⟨7⟩ ⟨3⟩] = some s ∧
      s.hub.channels ⟨3⟩ = some ⟨⟨7⟩, [], 100, true⟩ ∧ s.removed = [⟨1⟩] := ⟨_, rfl, rfl, rfl⟩
  have hstart : hubSystem.Reachable AvoidsGap HubState.start := System.Reachable.start rfl
  have hreach := hstart.runWhen avoidsGap_of_check hrun
  exact ⟨s, hch, hremoved, registry_keeps hreach hch rfl (by rw [hremoved]; decide)⟩

/-- A connection that arrives while `remove_connection` is about to remove the entry it
has found empty is lost with it. -/
theorem registry_loses : ¬∀ s : HubState, hubSystem.Reachable System.always s → ∀ c ch,
    s.hub.channels c = some ch → ch.isOpen → c ∉ s.removed →
      ∃ ids, s.hub.connections ch.user = some ids ∧ c ∈ ids := by
  intro hclaim
  obtain ⟨s, hrun, hch, hentry, hremoved⟩ : ∃ s, hubSystem.run HubState.start
      [.connect ⟨7⟩ ⟨1⟩, .disconnect ⟨1⟩, .task 0 .plain, .task 0 .plain, .task 0 .plain,
        .task 0 .plain, .connect ⟨7⟩ ⟨2⟩, .task 0 .plain] = some s ∧
      s.hub.channels ⟨2⟩ = some ⟨⟨7⟩, [], 100, true⟩ ∧ s.hub.connections ⟨7⟩ = none ∧
      s.removed = [⟨1⟩] := ⟨_, rfl, rfl, rfl, rfl⟩
  have hstart : hubSystem.Reachable System.always HubState.start := System.Reachable.start rfl
  have hreach := hstart.run hrun
  obtain ⟨ids, hids, -⟩ := hclaim s hreach ⟨2⟩ _ hch rfl (by rw [hremoved]; decide)
  cases hentry.symm.trans hids

end NotiService
