import NotiService.HandleSocket

/-! What the clients get. Every call of `send_to_user` puts its message on a channel at most
once, and `handle_socket` sends what is on the channel in order. -/

namespace NotiService
open Foundation ConnectionManager

def Hub.owner (h : Hub) (connection : Uuid) : Option Uuid :=
  (h.channels connection).map Channel.user

namespace Registry

namespace TaskPc

/-- The connections that a call of `send_to_user` has found and not tried yet. -/
def senders : TaskPc → List Uuid
  | .drop _ senders => senders
  | .push _ _ connection senders => connection :: senders
  | .remove _ _ after => (after.map fun rest => rest.2.2).getD []
  | _ => []

def undecided : TaskPc → Bool
  | .start _ | .collect _ => true
  | _ => false

def Untried (pc : TaskPc) (connection : Uuid) : Prop := pc.undecided ∨ connection ∈ pc.senders

def pushing : TaskPc → Option Uuid
  | .push _ _ connection _ => some connection
  | _ => none

def Sends (message : String) : TaskPc → Prop
  | .start m | .collect m | .drop m _ | .push m _ _ _ => m = message
  | .remove _ _ after => after.map Prod.fst = some message
  | .done => True

def Removes (connection : Uuid) : TaskPc → Prop
  | .remove c _ after => c = connection ∧ after = none
  | .done => True
  | _ => False

end TaskPc

section Steps

variable {choice : HubChoice} {user connection : Uuid} {h h' : Hub} {pc pc' : TaskPc}

theorem pushes_prog {t : Task} (ht : t.2.Normal) : pushes t.prog = t.2.pushing := by
  obtain ⟨user, pc⟩ := t
  cases pc with
  | remove c pc after =>
    cases pc with
    | finished => cases ht
    | _ => rfl
  | _ => rfl

theorem RemoveStep.channels {pc pc' : RemovePc} (hs : RemoveStep user connection h pc h' pc') :
    h'.channels = h.channels := by
  cases hs <;> rfl

theorem members_insert (u : Uuid) {ch : Channel} :
    (h.insertConnection user connection ch).members u =
      if u = user then (h.members user).insert connection else h.members u := by
  by_cases hu : u = user
  · subst hu
    simp [Hub.members, Hub.insertConnection]
  · simp [Hub.members, Hub.insertConnection, hu]

theorem RemoveStep.members {pc pc' : RemovePc} (hs : RemoveStep user connection h pc h' pc')
    (u : Uuid) : h'.members u ⊆ h.members u := by
  intro c hc
  cases hs with
  | innerRemove =>
    rw [members_erase] at hc
    split at hc
    · next hu => exact hu ▸ List.mem_of_mem_erase hc
    · exact hc
  | outerRemove =>
    rw [members_removeEntry] at hc
    split at hc
    · cases hc
    · exact hc
  | _ => exact hc

theorem TaskStep.members (hs : TaskStep choice user h pc h' pc') (u : Uuid) :
    h'.members u ⊆ h.members u := by
  cases hs with
  | remove hr _ | removed hr => exact hr.members u
  | _ => exact fun _ hc => hc

theorem TaskStep.channels (hs : TaskStep choice user h pc h' pc') :
    (∃ message delivered c senders ch, pc = .push message delivered c senders ∧
      pc' = .next message true senders ∧ h.channels c = some ch ∧ ch.isOpen ∧ ch.hasRoom ∧
      h'.channels =
        Function.update h.channels c (some { ch with queue := ch.queue ++ [message] })) ∨
    h'.channels = h.channels ∧ ∀ c, pc.pushing = some c → h.alive c = false := by
  cases hs with
  | push hch hopen hroom => exact .inl ⟨_, _, _, _, _, rfl, rfl, hch, hopen, hroom, rfl⟩
  | @pushClosed message delivered c senders ch hch hclosed =>
    refine .inr ⟨rfl, fun c' hc' => ?_⟩
    obtain rfl : c = c' := Option.some.inj hc'
    rw [Hub.alive, hch]
    exact hclosed
  | remove hr _ | removed hr => exact .inr ⟨hr.channels, fun _ hc => by cases hc⟩
  | _ => exact .inr ⟨rfl, fun _ hc => by cases hc⟩

theorem TaskPc.next_eq {message : String} {delivered : Bool} {ids : List Uuid} :
    TaskPc.next message delivered ids = .after (some (message, delivered, ids)) := rfl

theorem TaskPc.senders_after (a : Option (String × Bool × List Uuid)) :
    (TaskPc.after a).senders = (a.map fun rest => rest.2.2).getD [] := by
  rcases a with _ | ⟨message, delivered, _ | _⟩ <;> rfl

theorem TaskPc.undecided_after (a : Option (String × Bool × List Uuid)) :
    (TaskPc.after a).undecided = false := by
  rcases a with _ | ⟨message, delivered, _ | _⟩ <;> rfl

theorem TaskPc.sends_after {message : String} {a : Option (String × Bool × List Uuid)}
    (ha : a.map Prod.fst = some message) : (TaskPc.after a).Sends message := by
  rcases a with _ | ⟨_, delivered, _ | _⟩
  · cases ha
  · trivial
  · exact Option.some.inj ha

theorem TaskStep.senders (hs : TaskStep choice user h pc h' pc') :
    pc'.senders <:+ pc.senders ∨ pc.undecided ∧ h' = h ∧
      pc'.senders = choice.order (h.members user) := by
  cases hs with
  | collect => exact .inr ⟨rfl, rfl, rfl⟩
  | startMissing | start | remove => exact .inl (List.suffix_refl _)
  | drop =>
    rw [TaskPc.next_eq, TaskPc.senders_after]
    exact .inl (List.suffix_refl _)
  | push =>
    rw [TaskPc.next_eq, TaskPc.senders_after]
    exact .inl (List.suffix_cons ..)
  | pushClosed => exact .inl (List.suffix_cons ..)
  | removed =>
    rw [TaskPc.senders_after]
    exact .inl (List.suffix_refl _)

theorem TaskStep.undecided (hs : TaskStep choice user h pc h' pc') (hpc : pc'.undecided) :
    pc.undecided := by
  cases hs with
  | drop | push => rw [TaskPc.next_eq, TaskPc.undecided_after] at hpc; cases hpc
  | removed => rw [TaskPc.undecided_after] at hpc; cases hpc
  | start => rfl
  | _ => cases hpc

theorem TaskStep.untried_of (hs : TaskStep choice user h pc h' pc')
    (hpc : pc'.Untried connection) : pc.Untried connection := by
  rcases hpc with hpc | hpc
  · exact .inl (hs.undecided hpc)
  · rcases hs.senders with hsuffix | ⟨hpc, -, -⟩
    · exact .inr (hsuffix.subset hpc)
    · exact .inl hpc

theorem TaskStep.sends {message : String} (hs : TaskStep choice user h pc h' pc')
    (hpc : pc.Sends message) : pc'.Sends message := by
  cases hs with
  | startMissing => trivial
  | start | collect | remove => exact hpc
  | drop | push =>
    rw [TaskPc.next_eq]
    exact TaskPc.sends_after (congrArg some hpc)
  | pushClosed => exact congrArg some hpc
  | removed => exact TaskPc.sends_after hpc

theorem TaskStep.removes (hs : TaskStep choice user h pc h' pc')
    (hpc : pc.Removes connection) : pc'.Removes connection := by
  cases hs with
  | remove => exact hpc
  | removed =>
    obtain ⟨-, rfl⟩ := hpc
    trivial
  | _ => cases hpc

theorem TaskStep.untried (hs : TaskStep choice user h pc h' pc')
    (hmem : pc.undecided → connection ∈ h.members user) (hpc : pc.Untried connection) :
    pc'.Untried connection ∨ pc.pushing = some connection := by
  cases hs with
  | startMissing hnone =>
    have hempty := hmem rfl
    rw [Hub.members, hnone] at hempty
    cases hempty
  | start => exact .inl (.inl rfl)
  | collect => exact .inl (.inr (mem_order.mpr (hmem rfl)))
  | drop =>
    rw [TaskPc.next_eq]
    refine .inl (.inr ?_)
    rw [TaskPc.senders_after]
    exact hpc.resolve_left Bool.false_ne_true
  | push =>
    rcases List.mem_cons.mp (hpc.resolve_left Bool.false_ne_true) with rfl | hin
    · exact .inr rfl
    · rw [TaskPc.next_eq]
      refine .inl (.inr ?_)
      rw [TaskPc.senders_after]
      exact hin
  | pushClosed =>
    rcases List.mem_cons.mp (hpc.resolve_left Bool.false_ne_true) with rfl | hin
    · exact .inr rfl
    · exact .inl (.inr hin)
  | remove => exact .inl hpc
  | removed =>
    refine .inl (.inr ?_)
    rw [TaskPc.senders_after]
    exact hpc.resolve_left Bool.false_ne_true

end Steps

/-- The steps of the connections' tasks and of the calls, with the calls by where they are. -/
inductive SocketStep (env : WsEnv) (s : SocketState) (ts : List Task) :
    SocketLabel → SocketState → List Task → Prop
  | rejected {now token connection} : SocketStep env s ts (.upgrade now token connection) s ts
  | upgrade {now token connection user} : wsHandler env now token = .ok user →
      s.hub.hub.guards user = 0 → s.hub.hub.channels connection = none →
      SocketStep env s ts (.upgrade now token connection)
        { s.setSocket connection ⟨user, .select, []⟩ with
          hub := { s.hub with hub :=
            s.hub.hub.insertConnection user connection ⟨user, [], socketCapacity, true⟩ } } ts
  | ignored {connection result} : SocketStep env s ts (.recv connection result) s ts
  | take {connection user frames ch message rest} :
      s.sockets connection = some ⟨user, .select, frames⟩ →
      s.hub.hub.channels connection = some ch → ch.queue = message :: rest →
      SocketStep env s ts (.take connection)
        { s.setSocket connection ⟨user, .sending message, frames⟩ with
          hub := { s.hub with
            hub := s.hub.hub.setChannel connection { ch with queue := rest } } } ts
  | sent {connection user frames message} :
      s.sockets connection = some ⟨user, .sending message, frames⟩ →
      SocketStep env s ts (.sent connection true)
        (s.setSocket connection ⟨user, .select, frames ++ [message]⟩) ts
  | leave {l connection socket ch unsent} : s.sockets connection = some socket →
      s.hub.hub.channels connection = some ch → socket.phase.serving →
      unsent.toList = socket.phase.inHand →
      SocketStep env s ts l
        { s.setSocket connection
            { socket with phase := .removing s.hub.tasks.length unsent } with
          hub := { s.hub with
            tasks := s.hub.tasks ++ [removeConnection ch.user connection]
            removed := connection :: s.hub.removed }
          calls := s.calls ++ [.removeConnection socket.user connection] }
        (ts ++ [(ch.user, .remove connection .get none)])
  | finish {connection user task unsent frames ch} :
      s.sockets connection = some ⟨user, .removing task unsent, frames⟩ →
      s.hub.hub.channels connection = some ch →
      SocketStep env s ts (.finish connection)
        { s.setSocket connection ⟨user, .ended unsent, frames⟩ with
          hub := { s.hub with
            hub := s.hub.hub.setChannel connection { ch with isOpen := false } } } ts
  | send {user message} : SocketStep env s ts (.send user message)
      { s with
        hub := { s.hub with tasks := s.hub.tasks ++ [Task.prog (user, .start message)] }
        calls := s.calls ++ [.sendToUser user message] }
      (ts ++ [(user, .start message)])
  | task {i choice user pc pc' hub} : ts[i]? = some (user, pc) →
      TaskStep choice user s.hub.hub pc hub pc' →
      SocketStep env s ts (.task i choice)
        { s with
          hub := { s.hub with hub, tasks := s.hub.tasks.set i (pc'.prog user) }
          log := s.logged i pc.pushing } (ts.set i (user, pc'))

variable {env : WsEnv} {s s' : SocketState} {ts ts' : List Task} {l : SocketLabel}

theorem socketStep_leave {connection : Uuid} {socket : Socket} {unsent : Option String}
    (hsocket : s.sockets connection = some socket) (hserving : socket.phase.serving)
    (hunsent : unsent.toList = socket.phase.inHand)
    (hs : s.leave connection socket unsent = some s') : ∃ ts', SocketStep env s ts l s' ts' := by
  obtain ⟨hub, hstep, rfl⟩ := Option.map_eq_some_iff.mp hs
  obtain ⟨ch, hch, rfl⟩ := Option.map_eq_some_iff.mp hstep
  exact ⟨_, .leave hsocket hch hserving hunsent⟩

theorem socketStep_of_step (htasks : s.hub.tasks = ts.map Task.prog)
    (hnormal : ∀ t ∈ ts, t.2.Normal) (hs : (socketSystem env).step s l = some s') :
    ∃ ts', SocketStep env s ts l s' ts' := by
  cases l with
  | upgrade now token connection =>
    simp only [socketSystem] at hs
    split at hs
    · cases hs
      exact ⟨ts, .rejected⟩
    · next user huser =>
      obtain ⟨hub, hstep, rfl⟩ := Option.map_eq_some_iff.mp hs
      obtain ⟨hub, hadd, rfl⟩ := Option.map_eq_some_iff.mp hstep
      obtain ⟨⟨hfree, hnew⟩, hadd⟩ := Option.ite_none_right_eq_some.mp hadd
      cases hadd
      exact ⟨ts, .upgrade huser hfree (Option.isNone_iff_eq_none.mp hnew)⟩
  | recv connection result =>
    simp only [socketSystem] at hs
    split at hs
    · next user frames hsocket =>
      split at hs
      · exact socketStep_leave hsocket rfl rfl hs
      · cases hs
        exact ⟨ts, .ignored⟩
    · cases hs
  | take connection =>
    simp only [socketSystem] at hs
    split at hs
    · next user frames owner message rest capacity isOpen hsocket hch =>
      obtain ⟨hub, hstep, rfl⟩ := Option.map_eq_some_iff.mp hs
      obtain ⟨ch, hch', rfl⟩ := Option.map_eq_some_iff.mp hstep
      obtain rfl := Option.some.inj (hch.symm.trans hch')
      exact ⟨ts, .take hsocket hch rfl⟩
    · cases hs
  | sent connection answered =>
    simp only [socketSystem] at hs
    split at hs
    · next user message frames hsocket =>
      split at hs
      · next hanswered =>
        cases hs
        subst hanswered
        exact ⟨ts, .sent hsocket⟩
      · exact socketStep_leave hsocket rfl rfl hs
    · cases hs
  | finish connection =>
    simp only [socketSystem] at hs
    split at hs
    · next user task unsent frames hsocket =>
      obtain ⟨-, hs⟩ := Option.ite_none_right_eq_some.mp hs
      obtain ⟨hub, hstep, rfl⟩ := Option.map_eq_some_iff.mp hs
      obtain ⟨ch, hch, rfl⟩ := Option.map_eq_some_iff.mp hstep
      exact ⟨ts, .finish hsocket hch⟩
    · cases hs
  | send user message =>
    cases hs
    exact ⟨_, .send⟩
  | task i choice =>
    obtain ⟨hub, hrun, rfl⟩ := Option.map_eq_some_iff.mp hs
    obtain ⟨p, hp, hrun⟩ := Option.bind_eq_some_iff.mp hrun
    obtain ⟨⟨p', hub⟩, hstep, rfl⟩ := Option.map_eq_some_iff.mp hrun
    rw [htasks, List.getElem?_map] at hp
    obtain ⟨⟨user, pc⟩, ht, rfl⟩ := Option.map_eq_some_iff.mp hp
    have hpc := hnormal _ (List.mem_of_getElem? ht)
    obtain ⟨pc', rfl, htask⟩ := taskStep_of_step hpc hstep
    have hpushes : s.hub.tasks[i]?.bind pushes = pc.pushing := by
      rw [htasks, List.getElem?_map, ht, Option.map_some, Option.bind_some, pushes_prog hpc]
    rw [hpushes]
    exact ⟨_, .task ht htask⟩

def Runs (t : Task) : HubCall → Prop
  | .sendToUser user message => t.1 = user ∧ t.2.Sends message
  | .removeConnection user connection => t.1 = user ∧ t.2.Removes connection

theorem Runs.step {choice : HubChoice} {user : Uuid} {pc pc' : TaskPc} {h h' : Hub}
    {call : HubCall} (hruns : Runs (user, pc) call) (hs : TaskStep choice user h pc h' pc') :
    Runs (user, pc') call := by
  cases call with
  | sendToUser => exact hruns.imp_right hs.sends
  | removeConnection => exact hruns.imp_right hs.removes

/-- A channel and the task behind it. What has gone through the channel is what the calls in
`log` have sent. -/
structure Paired (calls : List HubCall) (ch : Channel) (socket : Socket) (log : List Nat) :
    Prop where
  user : ch.user = socket.user
  room : ch.queue.length ≤ socketCapacity
  capacity : ch.capacity = socketCapacity
  isOpen : ch.isOpen = !socket.phase.hasEnded
  log : (log.map fun i => calls[i]?) = (socket.frames ++ socket.phase.inHand ++ ch.queue).map
    fun message => some (.sendToUser socket.user message)

/-- `tried` and `fresh`: a call tries only connections of its user, and has not pushed to those
that it has still to try. -/
structure Delivers (env : WsEnv) (s : SocketState) (ts : List Task) : Prop where
  tasks : s.hub.tasks = ts.map Task.prog
  normal : ∀ t ∈ ts, t.2.Normal
  length : ts.length = s.calls.length
  runs : ∀ (i : Nat) (t : Task) (call : HubCall), ts[i]? = some t → s.calls[i]? = some call →
    Runs t call
  paired : ∀ c ch, s.hub.hub.channels c = some ch →
    ∃ socket, s.sockets c = some socket ∧ Paired s.calls ch socket (s.log c)
  silent : ∀ c, s.hub.hub.channels c = none → s.sockets c = none ∧ s.log c = []
  owned : ∀ u c, c ∈ s.hub.hub.members u → s.hub.hub.owner c = some u
  tried : ∀ t ∈ ts, t.2.senders.Nodup ∧ ∀ c ∈ t.2.senders, s.hub.hub.owner c = some t.1
  fresh : ∀ i t, ts[i]? = some t → ∀ c, t.2.Untried c → i ∉ s.log c
  nodup : ∀ c, (s.log c).Nodup
  granted : ∀ c socket, s.sockets c = some socket →
    ∃ now token, wsHandler env now token = .ok socket.user

theorem Paired.lt_length {calls : List HubCall} {ch : Channel} {socket : Socket} {log : List Nat}
    (hpaired : Paired calls ch socket log) {i : Nat} (hi : i ∈ log) : i < calls.length := by
  have hmem : calls[i]? ∈ log.map fun i => calls[i]? := List.mem_map_of_mem hi
  rw [hpaired.log] at hmem
  obtain ⟨message, -, hmessage⟩ := List.mem_map.mp hmem
  exact (List.getElem?_eq_some_iff.mp hmessage.symm).1

theorem Paired.append {calls : List HubCall} {ch : Channel} {socket : Socket} {log : List Nat}
    (hpaired : Paired calls ch socket log) (call : HubCall) :
    Paired (calls ++ [call]) ch socket log where
  user := hpaired.user
  room := hpaired.room
  capacity := hpaired.capacity
  isOpen := hpaired.isOpen
  log := (List.map_congr_left fun _ hi =>
    List.getElem?_append_left (hpaired.lt_length hi)).trans hpaired.log

namespace Delivers

theorem start (env : WsEnv) : Delivers env SocketState.start [] where
  tasks := rfl
  normal _ ht := nomatch ht
  length := rfl
  runs _ _ _ ht := nomatch ht
  paired _ _ hch := nomatch hch
  silent _ _ := ⟨rfl, rfl⟩
  owned _ _ hc := nomatch hc
  tried _ ht := nomatch ht
  fresh _ _ ht := nomatch ht
  nodup _ := .nil
  granted _ _ hsocket := nomatch hsocket

theorem lt_length (hinv : Delivers env s ts) {c : Uuid} {i : Nat} (hi : i ∈ s.log c) :
    i < s.calls.length := by
  cases hch : s.hub.hub.channels c with
  | none =>
    rw [(hinv.silent c hch).2] at hi
    cases hi
  | some ch =>
    obtain ⟨socket, -, hpaired⟩ := hinv.paired c ch hch
    exact hpaired.lt_length hi

theorem start_task (hinv : Delivers env s ts) {t : Task} {call : HubCall} (hnormal : t.2.Normal)
    (hruns : Runs t call) (hnone : t.2.senders = []) (removed : List Uuid) :
    Delivers env { s with
      hub := { s.hub with tasks := s.hub.tasks ++ [t.prog], removed }
      calls := s.calls ++ [call] } (ts ++ [t]) where
  tasks := by
    rw [List.map_append, ← hinv.tasks]
    rfl
  normal := List.forall_mem_append.mpr ⟨hinv.normal, by simpa using hnormal⟩
  length := by
    rw [List.length_append, List.length_append, hinv.length]
    rfl
  runs i t' call' ht' hcall' := by
    rcases Nat.lt_or_ge i ts.length with hlt | hge
    · rw [List.getElem?_append_left hlt] at ht'
      rw [List.getElem?_append_left (hinv.length ▸ hlt)] at hcall'
      exact hinv.runs i t' call' ht' hcall'
    · rw [List.getElem?_append_right hge, List.getElem?_singleton] at ht'
      rw [List.getElem?_append_right (hinv.length ▸ hge), ← hinv.length,
        List.getElem?_singleton] at hcall'
      obtain ⟨-, ht'⟩ := Option.ite_none_right_eq_some.mp ht'
      obtain ⟨-, hcall'⟩ := Option.ite_none_right_eq_some.mp hcall'
      cases ht'
      cases hcall'
      exact hruns
  paired c ch hch := by
    obtain ⟨socket, hsocket, hpaired⟩ := hinv.paired c ch hch
    exact ⟨socket, hsocket, hpaired.append call⟩
  silent := hinv.silent
  owned := hinv.owned
  tried := by
    refine List.forall_mem_append.mpr ⟨hinv.tried, ?_⟩
    rw [List.forall_mem_singleton, hnone]
    exact ⟨.nil, fun _ hc => absurd hc List.not_mem_nil⟩
  fresh i t' ht' c hc hi := by
    have hlt : i < ts.length := hinv.length ▸ hinv.lt_length hi
    rw [List.getElem?_append_left hlt] at ht'
    exact hinv.fresh i t' ht' c hc hi
  nodup := hinv.nodup
  granted := hinv.granted

theorem set_socket (hinv : Delivers env s ts) {c : Uuid} {hub : Hub} {ch : Channel}
    {socket socket' : Socket} (hsocket : s.sockets c = some socket)
    (hconnections : hub.connections = s.hub.hub.connections)
    (hchannels : hub.channels = Function.update s.hub.hub.channels c (some ch))
    (huser : socket'.user = socket.user) (hpaired : Paired s.calls ch socket' (s.log c)) :
    Delivers env { s.setSocket c socket' with hub := { s.hub with hub } } ts := by
  have howner : hub.owner = s.hub.hub.owner := by
    funext d
    by_cases hd : d = c
    · subst hd
      cases hch : s.hub.hub.channels d with
      | none =>
        rw [(hinv.silent d hch).1] at hsocket
        cases hsocket
      | some ch₀ =>
        obtain ⟨_, hsocket₀, hpaired₀⟩ := hinv.paired d ch₀ hch
        obtain rfl := Option.some.inj (hsocket₀.symm.trans hsocket)
        simp [Hub.owner, hchannels, hch, hpaired.user, hpaired₀.user, huser]
    · simp [Hub.owner, hchannels, hd]
  refine ⟨hinv.tasks, hinv.normal, hinv.length, hinv.runs, fun d ch' hch' => ?_, fun d hd => ?_,
    fun u d hd => ?_, fun t ht => ?_, hinv.fresh, hinv.nodup, fun d socket₁ hsocket₁ => ?_⟩
  · by_cases hd : d = c
    · subst hd
      rw [hchannels, Function.update_self] at hch'
      cases hch'
      exact ⟨socket', Function.update_self .., hpaired⟩
    · rw [hchannels, Function.update_of_ne hd] at hch'
      obtain ⟨socket₁, hsocket₁, hpaired₁⟩ := hinv.paired d ch' hch'
      exact ⟨socket₁, (Function.update_of_ne hd ..).trans hsocket₁, hpaired₁⟩
  · have hdc : d ≠ c := by
      rintro rfl
      rw [hchannels, Function.update_self] at hd
      cases hd
    rw [hchannels, Function.update_of_ne hdc] at hd
    exact ⟨(Function.update_of_ne hdc ..).trans (hinv.silent d hd).1, (hinv.silent d hd).2⟩
  · rw [howner]
    refine hinv.owned u d ?_
    rwa [Hub.members, hconnections] at hd
  · rw [howner]
    exact hinv.tried t ht
  · replace hsocket₁ : Function.update s.sockets c (some socket') d = some socket₁ := hsocket₁
    by_cases hd : d = c
    · subst hd
      rw [Function.update_self] at hsocket₁
      cases hsocket₁
      rw [huser]
      exact hinv.granted d socket hsocket
    · rw [Function.update_of_ne hd] at hsocket₁
      exact hinv.granted d socket₁ hsocket₁

theorem upgrade (hinv : Delivers env s ts) {c user : Uuid} {now : Int} {token : String}
    (hgranted : wsHandler env now token = .ok user) (hnew : s.hub.hub.channels c = none) :
    Delivers env { s.setSocket c ⟨user, .select, []⟩ with
      hub := { s.hub with hub :=
        s.hub.hub.insertConnection user c ⟨user, [], socketCapacity, true⟩ } } ts := by
  have howner : ∀ d, s.hub.hub.owner d ≠ none →
      (s.hub.hub.insertConnection user c ⟨user, [], socketCapacity, true⟩).owner d =
        s.hub.hub.owner d := by
    intro d hd
    have hdc : d ≠ c := by
      rintro rfl
      exact hd (by rw [Hub.owner, hnew]; rfl)
    simp [Hub.owner, Hub.insertConnection, hdc]
  refine ⟨hinv.tasks, hinv.normal, hinv.length, hinv.runs, fun d ch hch => ?_, fun d hd => ?_,
    fun u d hd => ?_, fun t ht => ?_, hinv.fresh, hinv.nodup, fun d socket hsocket => ?_⟩
  · replace hch : Function.update s.hub.hub.channels c _ d = some ch := hch
    by_cases hd : d = c
    · subst hd
      rw [Function.update_self] at hch
      cases hch
      have hpaired : Paired s.calls ⟨user, [], socketCapacity, true⟩ ⟨user, .select, []⟩
          (s.log d) := by
        rw [(hinv.silent d hnew).2]
        exact ⟨rfl, Nat.zero_le _, rfl, rfl, rfl⟩
      exact ⟨_, Function.update_self .., hpaired⟩
    · rw [Function.update_of_ne hd] at hch
      obtain ⟨socket, hsocket, hpaired⟩ := hinv.paired d ch hch
      exact ⟨socket, (Function.update_of_ne hd ..).trans hsocket, hpaired⟩
  · replace hd : Function.update s.hub.hub.channels c _ d = none := hd
    have hdc : d ≠ c := by
      rintro rfl
      rw [Function.update_self] at hd
      cases hd
    rw [Function.update_of_ne hdc] at hd
    exact ⟨(Function.update_of_ne hdc ..).trans (hinv.silent d hd).1, (hinv.silent d hd).2⟩
  · rw [members_insert] at hd
    by_cases hdc : d = c
    · subst hdc
      split at hd
      · next hu => simp [Hub.owner, Hub.insertConnection, hu]
      · have := hinv.owned u d hd
        rw [Hub.owner, hnew] at this
        cases this
    · have hmem : d ∈ s.hub.hub.members u := by
        split at hd
        · next hu => exact hu ▸ (List.mem_insert_iff.mp hd).resolve_left hdc
        · exact hd
      have hown := hinv.owned u d hmem
      exact (howner d (hown ▸ Option.some_ne_none u)).trans hown
  · refine (hinv.tried t ht).imp_right fun hall d hd => ?_
    exact (howner d (hall d hd ▸ Option.some_ne_none _)).trans (hall d hd)
  · replace hsocket : Function.update s.sockets c _ d = some socket := hsocket
    by_cases hd : d = c
    · subst hd
      rw [Function.update_self] at hsocket
      cases hsocket
      exact ⟨now, token, hgranted⟩
    · rw [Function.update_of_ne hd] at hsocket
      exact hinv.granted d socket hsocket

theorem runs_set (hinv : Delivers env s ts) {i : Nat} {choice : HubChoice} {user : Uuid}
    {pc pc' : TaskPc} {h h' : Hub} (ht : ts[i]? = some (user, pc))
    (hs : TaskStep choice user h pc h' pc') (j : Nat) (t : Task) (call : HubCall)
    (hj : (ts.set i (user, pc'))[j]? = some t) (hcall : s.calls[j]? = some call) :
    Runs t call := by
  by_cases hij : i = j
  · subst hij
    rw [List.getElem?_set_self (List.getElem?_eq_some_iff.mp ht).1] at hj
    cases hj
    exact (hinv.runs i _ call ht hcall).step hs
  · rw [List.getElem?_set_ne hij] at hj
    exact hinv.runs j t call hj hcall

theorem task_silent (hinv : Delivers env s ts) {i : Nat} {choice : HubChoice} {user : Uuid}
    {pc pc' : TaskPc} {hub : Hub} (ht : ts[i]? = some (user, pc))
    (hs : TaskStep choice user s.hub.hub pc hub pc')
    (hchannels : hub.channels = s.hub.hub.channels) :
    Delivers env { s with
      hub := { s.hub with hub, tasks := s.hub.tasks.set i (pc'.prog user) } }
      (ts.set i (user, pc')) := by
  have howner : hub.owner = s.hub.hub.owner := by
    funext d
    rw [Hub.owner, hchannels, Hub.owner]
  have hmem := List.mem_of_getElem? ht
  refine ⟨?_, Slots.forall_mem_set hs.normal hinv.normal, List.length_set.trans hinv.length,
    hinv.runs_set ht hs, ?_, ?_, fun u c hc => ?_, ?_, ?_, hinv.nodup, hinv.granted⟩
  · rw [List.map_set, ← hinv.tasks]
    rfl
  · rw [hchannels]
    exact hinv.paired
  · rw [hchannels]
    exact hinv.silent
  · rw [howner]
    exact hinv.owned u c (hs.members u hc)
  · rw [howner]
    refine Slots.forall_mem_set ?_ hinv.tried
    rcases hs.senders with hsuffix | ⟨-, -, hread⟩
    · exact ⟨(hinv.tried _ hmem).1.sublist hsuffix.sublist,
        fun c hc => (hinv.tried _ hmem).2 c (hsuffix.subset hc)⟩
    · rw [hread]
      refine ⟨(choice.perm _).nodup_iff.mpr (s.hub.hub.nodup user), fun c hc => ?_⟩
      exact hinv.owned user c (mem_order.mp hc)
  · intro j t hj c hc
    by_cases hij : i = j
    · subst hij
      rw [List.getElem?_set_self (List.getElem?_eq_some_iff.mp ht).1] at hj
      cases hj
      exact hinv.fresh i _ ht c (hs.untried_of hc)
    · rw [List.getElem?_set_ne hij] at hj
      exact hinv.fresh j t hj c hc

theorem task_push (hinv : Delivers env s ts) {i : Nat} {choice : HubChoice} {user c : Uuid}
    {message : String} {delivered : Bool} {senders : List Uuid} {hub : Hub} {ch : Channel}
    (ht : ts[i]? = some (user, .push message delivered c senders))
    (hs : TaskStep choice user s.hub.hub (.push message delivered c senders) hub
      (.next message true senders))
    (hch : s.hub.hub.channels c = some ch) (hroom : ch.hasRoom)
    (hchannels : hub.channels = Function.update s.hub.hub.channels c
      (some { ch with queue := ch.queue ++ [message] })) :
    Delivers env { s with
      hub := { s.hub with
        hub, tasks := s.hub.tasks.set i ((TaskPc.next message true senders).prog user) }
      log := Function.update s.log c (s.log c ++ [i]) }
      (ts.set i (user, .next message true senders)) := by
  have howner : hub.owner = s.hub.hub.owner := by
    funext d
    by_cases hd : d = c
    · subst hd
      simp [Hub.owner, hchannels, hch]
    · simp [Hub.owner, hchannels, hd]
  have hmem := List.mem_of_getElem? ht
  obtain ⟨hnodup, huser⟩ := hinv.tried _ hmem
  obtain ⟨hnotin, -⟩ := List.nodup_cons.mp hnodup
  have hsuffix : (TaskPc.next message true senders).senders = senders := by
    rw [TaskPc.next_eq, TaskPc.senders_after]
    rfl
  obtain ⟨socket, hsocket, hpaired⟩ := hinv.paired c ch hch
  have hi : i ∉ s.log c := hinv.fresh i _ ht c (.inr (List.mem_cons_self ..))
  have hchuser : ch.user = user := by
    have := huser c (List.mem_cons_self ..)
    rw [Hub.owner, hch] at this
    exact Option.some.inj this
  -- the call at the task's position is the one that sends `message` to `user`
  obtain ⟨call, hcall⟩ : ∃ call, s.calls[i]? = some call := by
    have hlt : i < s.calls.length := hinv.length ▸ (List.getElem?_eq_some_iff.mp ht).1
    exact ⟨_, List.getElem?_eq_getElem hlt⟩
  have hruns := hinv.runs i _ call ht hcall
  have hmine : call = .sendToUser user message := by
    cases call with
    | sendToUser => obtain ⟨rfl, rfl⟩ := hruns; rfl
    | removeConnection => cases hruns.2
  refine ⟨?_, Slots.forall_mem_set hs.normal hinv.normal, List.length_set.trans hinv.length,
    hinv.runs_set ht hs, fun d ch' hch' => ?_, fun d hd => ?_, fun u d hd => ?_, ?_, ?_,
    fun d => ?_, hinv.granted⟩
  · rw [List.map_set, ← hinv.tasks]
    rfl
  · rw [hchannels] at hch'
    by_cases hd : d = c
    · subst hd
      rw [Function.update_self] at hch'
      cases hch'
      refine ⟨socket, hsocket, hpaired.user, ?_, hpaired.capacity, hpaired.isOpen, ?_⟩
      · have hlt : ch.queue.length < ch.capacity := of_decide_eq_true hroom
        rw [hpaired.capacity] at hlt
        rw [List.length_append]
        exact hlt
      · dsimp only
        rw [Function.update_self, List.map_append, hpaired.log, ← List.append_assoc,
          List.map_append]
        simp [hcall, hmine, ← hpaired.user, hchuser]
    · rw [Function.update_of_ne hd] at hch'
      obtain ⟨socket', hsocket', hpaired'⟩ := hinv.paired d ch' hch'
      refine ⟨socket', hsocket', ?_⟩
      dsimp only
      rwa [Function.update_of_ne hd]
  · have hdc : d ≠ c := by
      rintro rfl
      rw [hchannels, Function.update_self] at hd
      cases hd
    rw [hchannels, Function.update_of_ne hdc] at hd
    dsimp only
    rw [Function.update_of_ne hdc]
    exact hinv.silent d hd
  · rw [howner]
    exact hinv.owned u d (hs.members u hd)
  · rw [howner]
    refine Slots.forall_mem_set ?_ hinv.tried
    rw [hsuffix]
    exact ⟨(List.nodup_cons.mp hnodup).2, fun d hd => huser d (List.mem_cons_of_mem _ hd)⟩
  · intro j t hj d hd
    dsimp only
    by_cases hij : i = j
    · subst hij
      rw [List.getElem?_set_self (List.getElem?_eq_some_iff.mp ht).1] at hj
      cases hj
      have hin : d ∈ senders := hsuffix ▸ hd.resolve_left (by
        rw [TaskPc.next_eq, TaskPc.undecided_after]
        exact Bool.false_ne_true)
      rw [Function.update_of_ne (ne_of_mem_of_not_mem hin hnotin)]
      exact hinv.fresh i _ ht d (hs.untried_of hd)
    · rw [List.getElem?_set_ne hij] at hj
      by_cases hdc : d = c
      · subst hdc
        rw [Function.update_self]
        have := hinv.fresh j t hj d hd
        simp [this, Ne.symm hij]
      · rw [Function.update_of_ne hdc]
        exact hinv.fresh j t hj d hd
  · dsimp only
    by_cases hdc : d = c
    · subst hdc
      rw [Function.update_self]
      exact (hinv.nodup d).append (List.nodup_singleton i) (by simpa using hi)
    · rw [Function.update_of_ne hdc]
      exact hinv.nodup d

theorem task (hinv : Delivers env s ts) {i : Nat} {choice : HubChoice} {user : Uuid}
    {pc pc' : TaskPc} {hub : Hub} (ht : ts[i]? = some (user, pc))
    (hs : TaskStep choice user s.hub.hub pc hub pc') :
    Delivers env { s with
      hub := { s.hub with hub, tasks := s.hub.tasks.set i (pc'.prog user) }
      log := s.logged i pc.pushing } (ts.set i (user, pc')) := by
  rcases hs.channels with ⟨message, delivered, c, senders, ch, rfl, rfl, hch, hopen, hroom,
    hchannels⟩ | ⟨hchannels, hdead⟩
  · have halive : s.hub.hub.alive c := by
      rw [Hub.alive, hch]
      exact hopen
    have hlog : s.logged i (TaskPc.push message delivered c senders).pushing =
        Function.update s.log c (s.log c ++ [i]) := if_pos halive
    rw [hlog]
    exact hinv.task_push ht hs hch hroom hchannels
  · have hlog : s.logged i pc.pushing = s.log := by
      cases hpushing : pc.pushing with
      | none => rfl
      | some c =>
        rw [SocketState.logged, hdead c hpushing]
        rfl
    rw [hlog]
    exact hinv.task_silent ht hs hchannels

theorem channel_of_socket (hinv : Delivers env s ts) {c : Uuid} {socket : Socket}
    (hsocket : s.sockets c = some socket) :
    ∃ ch, s.hub.hub.channels c = some ch ∧ Paired s.calls ch socket (s.log c) := by
  cases hch : s.hub.hub.channels c with
  | none =>
    rw [(hinv.silent c hch).1] at hsocket
    cases hsocket
  | some ch =>
    obtain ⟨_, hsocket', hpaired⟩ := hinv.paired c ch hch
    obtain rfl := Option.some.inj (hsocket'.symm.trans hsocket)
    exact ⟨ch, rfl, hpaired⟩

theorem set_phase (hinv : Delivers env s ts) {c : Uuid} {socket socket' : Socket}
    (hsocket : s.sockets c = some socket) (huser : socket'.user = socket.user)
    (hended : socket'.phase.hasEnded = socket.phase.hasEnded)
    (hframes : socket'.frames ++ socket'.phase.inHand = socket.frames ++ socket.phase.inHand) :
    Delivers env (s.setSocket c socket') ts := by
  obtain ⟨ch, hch, hpaired⟩ := hinv.channel_of_socket hsocket
  have hsame : s.hub.hub.channels = Function.update s.hub.hub.channels c (some ch) := by
    rw [← hch, Function.update_eq_self]
  refine hinv.set_socket hsocket rfl hsame huser ?_
  refine ⟨hpaired.user.trans huser.symm, hpaired.room, hpaired.capacity, ?_, ?_⟩
  · rw [hended]
    exact hpaired.isOpen
  · rw [hframes, huser]
    exact hpaired.log

end Delivers

theorem SocketStep.delivers (hinv : Delivers env s ts) (hs : SocketStep env s ts l s' ts') :
    Delivers env s' ts' := by
  cases hs with
  | rejected | ignored => exact hinv
  | upgrade hgranted _ hnew => exact hinv.upgrade hgranted hnew
  | @take c user frames ch message rest hsocket hch hqueue =>
    obtain ⟨_, hch', hpaired⟩ := hinv.channel_of_socket hsocket
    obtain rfl := Option.some.inj (hch.symm.trans hch')
    refine hinv.set_socket hsocket rfl rfl rfl
      ⟨hpaired.user, ?_, hpaired.capacity, hpaired.isOpen, ?_⟩
    · have hroom := hpaired.room
      rw [hqueue] at hroom
      exact Nat.le_of_succ_le hroom
    · have hlog := hpaired.log
      rw [hqueue] at hlog
      simpa [SocketPhase.inHand] using hlog
  | sent hsocket =>
    exact hinv.set_phase hsocket rfl rfl (List.append_nil _)
  | @leave _ c socket ch unsent hsocket hch hserving hunsent =>
    obtain ⟨_, hch', hpaired⟩ := hinv.channel_of_socket hsocket
    obtain rfl := Option.some.inj (hch.symm.trans hch')
    have hphase : Delivers env (s.setSocket c
        { socket with phase := .removing s.hub.tasks.length unsent }) ts := by
      refine hinv.set_phase hsocket rfl ?_ (congrArg (socket.frames ++ ·) hunsent)
      cases hphase : socket.phase <;> simp [hphase, SocketPhase.serving] at hserving <;> rfl
    have hruns : Runs (ch.user, .remove c .get none) (.removeConnection socket.user c) :=
      ⟨hpaired.user, rfl, rfl⟩
    rw [← prog_removeConnection]
    refine hphase.start_task ?_ hruns rfl _
    trivial
  | finish hsocket hch =>
    obtain ⟨_, hch', hpaired⟩ := hinv.channel_of_socket hsocket
    obtain rfl := Option.some.inj (hch.symm.trans hch')
    exact hinv.set_socket hsocket rfl rfl rfl
      ⟨hpaired.user, hpaired.room, hpaired.capacity, rfl, hpaired.log⟩
  | @send user message =>
    have hruns : Runs (user, .start message) (.sendToUser user message) := ⟨rfl, rfl⟩
    refine hinv.start_task ?_ hruns rfl _
    trivial
  | task ht htask => exact hinv.task ht htask

theorem delivers_reachable {ok : SocketState → SocketLabel → Prop}
    (h : (socketSystem env).Reachable ok s) : ∃ ts, Delivers env s ts := by
  refine h.invariant (P := fun s => ∃ ts, Delivers env s ts) ?_ ?_
  · rintro _ rfl
    exact ⟨[], .start env⟩
  · rintro s l t ⟨ts, hinv⟩ - hs
    obtain ⟨ts', hs⟩ := socketStep_of_step hinv.tasks hinv.normal hs
    exact ⟨ts', hs.delivers hinv⟩

end Registry

def HubCall.messageTo (user : Uuid) : HubCall → Option String
  | .sendToUser u message => if u = user then some message else none
  | .removeConnection _ _ => none

/-- Whatever the order of the steps of connections and calls, what a client has got, with what
is on the way to it, are messages to the user its token names, each for a call of its own. -/
theorem frames_once {env : WsEnv} {s : SocketState}
    (h : (socketSystem env).Reachable System.always s) {c : Uuid} {socket : Socket}
    (hsocket : s.sockets c = some socket) :
    (∃ now token, wsHandler env now token = .ok socket.user) ∧
    ∃ ch, s.hub.hub.channels c = some ch ∧ ch.queue.length ≤ socketCapacity ∧
      (socket.frames ++ socket.phase.inHand ++ ch.queue).Subperm
        (s.calls.filterMap (HubCall.messageTo socket.user)) := by
  obtain ⟨ts, hinv⟩ := Registry.delivers_reachable h
  obtain ⟨ch, hch, hpaired⟩ := hinv.channel_of_socket hsocket
  refine ⟨hinv.granted c socket hsocket, ch, hch, hpaired.room, ?_⟩
  let messages := fun i : Nat => s.calls[i]?.bind (HubCall.messageTo socket.user)
  have htraffic : (s.log c).filterMap messages =
      socket.frames ++ socket.phase.inHand ++ ch.queue := by
    have hlog := congrArg (List.filterMap fun call : Option HubCall =>
      call.bind (HubCall.messageTo socket.user)) hpaired.log
    rw [List.filterMap_map, List.filterMap_map] at hlog
    refine hlog.trans ?_
    simp [Function.comp_def, HubCall.messageTo]
  have hsub : (s.log c).Subperm (List.range s.calls.length) :=
    List.subperm_of_subset (hinv.nodup c) fun i hi => List.mem_range.mpr (hpaired.lt_length hi)
  rw [← htraffic, ← Slots.filterMap_range (HubCall.messageTo socket.user) s.calls]
  obtain ⟨l, hperm, hsublist⟩ := hsub
  exact ⟨l.filterMap messages, hperm.filterMap messages, hsublist.filterMap messages⟩

def WsEnv.ofSeven : WsEnv := ⟨"secret", fun _ _ _ => .ok "7", fun _ => .ok ⟨7⟩⟩

theorem frames_once_sent : ∃ s, (socketSystem .ofSeven).run .start
      [.upgrade 0 "token" ⟨1⟩, .send ⟨7⟩ "frame", .task 0 .plain, .task 0 .plain, .task 0 .plain,
        .task 0 .plain, .take ⟨1⟩, .sent ⟨1⟩ true] = some s ∧
    s.sockets ⟨1⟩ = some ⟨⟨7⟩, .select, ["frame"]⟩ ∧
    (∃ now token, wsHandler .ofSeven now token = .ok ⟨7⟩) ∧
    ∃ ch, s.hub.hub.channels ⟨1⟩ = some ch ∧ ch.queue.length ≤ socketCapacity ∧
      (["frame"] ++ [] ++ ch.queue).Subperm (s.calls.filterMap (HubCall.messageTo ⟨7⟩)) := by
  obtain ⟨s, hrun, hsocket⟩ : ∃ s, (socketSystem .ofSeven).run .start
      [.upgrade 0 "token" ⟨1⟩, .send ⟨7⟩ "frame", .task 0 .plain, .task 0 .plain, .task 0 .plain,
        .task 0 .plain, .take ⟨1⟩, .sent ⟨1⟩ true] = some s ∧
      s.sockets ⟨1⟩ = some ⟨⟨7⟩, .select, ["frame"]⟩ := ⟨_, rfl, rfl⟩
  have hstart : (socketSystem .ofSeven).Reachable System.always .start :=
    System.Reachable.start rfl
  exact ⟨s, hrun, hsocket, frames_once (hstart.run hrun) hsocket⟩

end NotiService
