import NotiService.Frames

/-! A client that stays gets every message sent to its user from then on, and in the order of
the calls where these do not overlap. -/

namespace NotiService
open Foundation ConnectionManager

/-- `AvoidsGap` for the connections that `ws_handler` lets in. -/
def UpgradesApart (env : WsEnv) (s : SocketState) : SocketLabel → Prop
  | .upgrade now token connection => ∀ user, wsHandler env now token = .ok user →
      AvoidsGap s.hub (.connect user connection)
  | _ => True

namespace Registry

variable {env : WsEnv} {s s' : SocketState} {ts ts' : List Task} {l : SocketLabel} {c : Uuid}
    {n : Nat}

/-- The connections that `remove_connection` has been called for have left the loop. -/
def Left (s : SocketState) : Prop :=
  ∀ c ∈ s.hub.removed, ∃ socket, s.sockets c = some socket ∧ socket.phase.serving = false

/-- Calls from the `n`th on that send to the user of connection `c` have sent to it, or will. -/
def Caught (c : Uuid) (n : Nat) (s : SocketState) (ts : List Task) : Prop :=
  ∃ socket, s.sockets c = some socket ∧ (socket.phase.serving →
    ∀ (i : Nat) (pc : TaskPc) (message : String), n ≤ i → ts[i]? = some (socket.user, pc) →
      s.calls[i]? = some (.sendToUser socket.user message) → i ∈ s.log c ∨ pc.Untried c)

theorem Left.set_socket (hleft : Left s) {socket : Socket}
    (hphase : c ∈ s.hub.removed → socket.phase.serving = false) : Left (s.setSocket c socket) := by
  intro d hd
  by_cases hdc : d = c
  · subst hdc
    exact ⟨socket, Function.update_self .., hphase hd⟩
  · obtain ⟨socket', hsocket', hserving⟩ := hleft d hd
    exact ⟨socket', (Function.update_of_ne hdc ..).trans hsocket', hserving⟩

theorem Left.not_mem (hleft : Left s) {socket : Socket} (hsocket : s.sockets c = some socket)
    (hserving : socket.phase.serving) : c ∉ s.hub.removed := by
  intro hc
  obtain ⟨socket', hsocket', hleft⟩ := hleft c hc
  obtain rfl := Option.some.inj (hsocket.symm.trans hsocket')
  rw [hserving] at hleft
  cases hleft

theorem SocketStep.left (hinv : Delivers env s ts) (hleft : Left s)
    (hs : SocketStep env s ts l s' ts') : Left s' := by
  cases hs with
  | rejected | ignored | send | task => exact hleft
  | @upgrade now token c user _ _ hnew =>
    refine hleft.set_socket fun hc => ?_
    obtain ⟨socket, hsocket, -⟩ := hleft c hc
    rw [(hinv.silent c hnew).1] at hsocket
    cases hsocket
  | take hsocket => exact hleft.set_socket fun hc => absurd hc (hleft.not_mem hsocket rfl)
  | sent hsocket => exact hleft.set_socket fun hc => absurd hc (hleft.not_mem hsocket rfl)
  | @leave _ c socket ch unsent hsocket hch hserving hunsent =>
    intro d hd
    by_cases hdc : d = c
    · subst hdc
      exact ⟨_, Function.update_self .., rfl⟩
    · obtain ⟨socket', hsocket', hserving'⟩ := hleft d ((List.mem_cons.mp hd).resolve_left hdc)
      exact ⟨socket', (Function.update_of_ne hdc ..).trans hsocket', hserving'⟩
  | finish => exact hleft.set_socket fun _ => rfl

theorem SocketStep.registry (hinv : Inv s.hub ts) (hok : UpgradesApart env s l)
    (hs : SocketStep env s ts l s' ts') : Inv s'.hub ts' := by
  cases hs with
  | rejected | ignored | sent => exact hinv
  | upgrade hgranted hfree hnew =>
    exact hinv.connect (hok _ hgranted) (if_pos ⟨hfree, Option.isNone_iff_eq_none.mpr hnew⟩)
  | take _ hch => exact hinv.setChannel hch rfl fun hopen => hopen
  | @leave _ c socket ch unsent hsocket hch =>
    rw [← prog_removeConnection]
    refine hinv.start_task ?_ rfl rfl (List.subset_cons_self ..) ?_
    · trivial
    · rintro _ ⟨⟩
      exact List.mem_cons_self ..
  | finish _ hch => exact hinv.setChannel hch rfl nofun
  | @send user message =>
    refine hinv.start_task ?_ rfl rfl (List.Subset.refl _) ?_
    · trivial
    · exact fun _ hc => nomatch hc
  | task ht htask => exact hinv.task ht htask

theorem logged_alive {d : Uuid} (halive : s.hub.hub.alive d) (i : Nat) :
    s.logged i (some d) = Function.update s.log d (s.log d ++ [i]) := if_pos halive

theorem logged_append (i : Nat) (pushed : Option Uuid) (c : Uuid) :
    ∃ new, s.logged i pushed c = s.log c ++ new ∧ ∀ j ∈ new, j = i := by
  have hsame : ∃ new, s.log c = s.log c ++ new ∧ ∀ j ∈ new, j = i :=
    ⟨[], (List.append_nil _).symm, nofun⟩
  cases pushed with
  | none => exact hsame
  | some d =>
    by_cases halive : s.hub.hub.alive d
    · rw [logged_alive halive]
      by_cases hc : c = d
      · subst hc
        exact ⟨[i], Function.update_self .., fun _ => List.mem_singleton.mp⟩
      · rw [Function.update_of_ne hc]
        exact hsame
    · rw [SocketState.logged, if_neg halive]
      exact hsame

theorem mem_logged {i j : Nat} (pushed : Option Uuid) (hj : j ∈ s.log c) :
    j ∈ s.logged i pushed c := by
  obtain ⟨new, hnew, -⟩ := logged_append (s := s) i pushed c
  rw [hnew]
  exact List.mem_append_left _ hj

theorem Caught.set_socket (hcaught : Caught c n s ts) {d : Uuid} {socket socket' : Socket}
    (hsocket : s.sockets d = some socket) (huser : socket'.user = socket.user)
    (hserving : socket'.phase.serving → socket.phase.serving) (hub : HubState) :
    Caught c n { s.setSocket d socket' with hub } ts := by
  obtain ⟨socket₀, hsocket₀, hall⟩ := hcaught
  by_cases hdc : c = d
  · subst hdc
    obtain rfl := Option.some.inj (hsocket.symm.trans hsocket₀)
    refine ⟨socket', Function.update_self .., fun hs => ?_⟩
    rw [huser]
    exact hall (hserving hs)
  · exact ⟨socket₀, (Function.update_of_ne hdc ..).trans hsocket₀, hall⟩

theorem Caught.start_task (hcaught : Caught c n s ts) (hlength : ts.length = s.calls.length)
    {t : Task} {call : HubCall} {sockets : Uuid → Option Socket} (hub : HubState)
    (hsockets : ∀ socket, s.sockets c = some socket → ∃ socket', sockets c = some socket' ∧
      socket'.user = socket.user ∧ (socket'.phase.serving → socket.phase.serving))
    (hcall : ∀ user message, call = .sendToUser user message → t.2.undecided) :
    Caught c n ⟨hub, sockets, s.calls ++ [call], s.log⟩ (ts ++ [t]) := by
  obtain ⟨socket, hsocket, hall⟩ := hcaught
  obtain ⟨socket', hsocket', huser, hserving⟩ := hsockets socket hsocket
  refine ⟨socket', hsocket', fun hs i pc message hn ht hmessage => ?_⟩
  rw [huser] at ht hmessage
  rcases Nat.lt_or_ge i ts.length with hlt | hge
  · rw [List.getElem?_append_left hlt] at ht
    rw [List.getElem?_append_left (hlength ▸ hlt)] at hmessage
    exact hall (hserving hs) i pc message hn ht hmessage
  · rw [List.getElem?_append_right hge, List.getElem?_singleton] at ht
    rw [List.getElem?_append_right (hlength ▸ hge), ← hlength, List.getElem?_singleton] at hmessage
    obtain ⟨-, ht⟩ := Option.ite_none_right_eq_some.mp ht
    obtain ⟨-, hmessage⟩ := Option.ite_none_right_eq_some.mp hmessage
    cases ht
    exact .inr (.inl (hcall _ _ (Option.some.inj hmessage)))

theorem Caught.task (hcaught : Caught c n s ts) (hinv : Delivers env s ts) (hreg : Inv s.hub ts)
    (hleft : Left s) {i : Nat} {choice : HubChoice} {user : Uuid} {pc pc' : TaskPc} {hub : Hub}
    (ht : ts[i]? = some (user, pc)) (hs : TaskStep choice user s.hub.hub pc hub pc') :
    Caught c n { s with
      hub := { s.hub with hub, tasks := s.hub.tasks.set i (pc'.prog user) }
      log := s.logged i pc.pushing } (ts.set i (user, pc')) := by
  obtain ⟨socket, hsocket, hall⟩ := hcaught
  refine ⟨socket, hsocket, fun hserving j pc₁ message hn hj hmessage => ?_⟩
  obtain ⟨ch, hch, hpaired⟩ := hinv.channel_of_socket hsocket
  have hopen : ch.isOpen = true := by
    rw [hpaired.isOpen]
    cases hphase : socket.phase <;> simp [hphase, SocketPhase.serving] at hserving <;> rfl
  by_cases hij : i = j
  · subst hij
    rw [List.getElem?_set_self (List.getElem?_eq_some_iff.mp ht).1] at hj
    cases hj
    rcases hall hserving i pc message hn ht hmessage with hlog | huntried
    · exact .inl (mem_logged _ hlog)
    · -- the connection is in the registry when the call reads it
      have hmem : c ∈ s.hub.hub.members socket.user := by
        refine hreg.registered c socket.user ?_ (hleft.not_mem hsocket hserving)
        rw [Hub.receiver, hch, Option.map_some, hopen, hpaired.user]
      rcases hs.untried (fun _ => hmem) huntried with hpc' | hpushing
      · exact .inr hpc'
      · have halive : s.hub.hub.alive c := by
          rw [Hub.alive, hch]
          exact hopen
        left
        dsimp only
        rw [hpushing, logged_alive halive, Function.update_self]
        simp
  · rw [List.getElem?_set_ne hij] at hj
    exact (hall hserving j pc₁ message hn hj hmessage).imp_left
      fun hlog => mem_logged _ hlog

theorem SocketStep.caught (hinv : Delivers env s ts) (hreg : Inv s.hub ts) (hleft : Left s)
    (hcaught : Caught c n s ts) (hs : SocketStep env s ts l s' ts') : Caught c n s' ts' := by
  cases hs with
  | rejected | ignored => exact hcaught
  | @upgrade now token d user _ _ hnew =>
    obtain ⟨socket, hsocket, hall⟩ := hcaught
    have hdc : c ≠ d := by
      rintro rfl
      rw [(hinv.silent c hnew).1] at hsocket
      cases hsocket
    exact ⟨socket, (Function.update_of_ne hdc ..).trans hsocket, hall⟩
  | take hsocket | sent hsocket =>
    refine hcaught.set_socket hsocket ?_ ?_ _
    · rfl
    · exact fun _ => rfl
  | @leave _ d socket ch unsent hsocket hch hserving hunsent =>
    refine hcaught.start_task hinv.length _ (fun socket₀ hsocket₀ => ?_) nofun
    by_cases hdc : c = d
    · subst hdc
      obtain rfl := Option.some.inj (hsocket.symm.trans hsocket₀)
      exact ⟨_, Function.update_self .., rfl, nofun⟩
    · exact ⟨socket₀, (Function.update_of_ne hdc ..).trans hsocket₀, rfl, fun hs => hs⟩
  | finish hsocket =>
    refine hcaught.set_socket hsocket ?_ ?_ _
    · rfl
    · exact nofun
  | send =>
    exact hcaught.start_task hinv.length _
      (fun socket hsocket => ⟨socket, hsocket, rfl, fun hs => hs⟩) fun _ _ _ => rfl
  | task ht htask => exact hcaught.task hinv hreg hleft ht htask

/-- What later states keep: the users of the connections, the calls that have ended, and the
log, to which only other calls are added. -/
structure Later (s s' : SocketState) : Prop where
  users : ∀ c socket, s.sockets c = some socket →
    ∃ socket', s'.sockets c = some socket' ∧ socket'.user = socket.user
  ended : ∀ (j : Nat) (p : Program HubOp Unit), s.hub.tasks[j]? = some p → p.isDone →
    s'.hub.tasks[j]? = some p
  log : ∀ c, ∃ new, s'.log c = s.log c ++ new ∧
    ∀ (j : Nat) (p : Program HubOp Unit), s.hub.tasks[j]? = some p → p.isDone → j ∉ new

theorem Later.refl (s : SocketState) : Later s s where
  users _ socket hsocket := ⟨socket, hsocket, rfl⟩
  ended _ _ hp _ := hp
  log _ := ⟨[], (List.append_nil _).symm, fun _ _ _ _ => List.not_mem_nil⟩

theorem Later.trans {s₁ s₂ s₃ : SocketState} (h₁ : Later s₁ s₂) (h₂ : Later s₂ s₃) :
    Later s₁ s₃ where
  users c socket hsocket := by
    obtain ⟨socket₂, hsocket₂, huser₂⟩ := h₁.users c socket hsocket
    obtain ⟨socket₃, hsocket₃, huser₃⟩ := h₂.users c socket₂ hsocket₂
    exact ⟨socket₃, hsocket₃, huser₃.trans huser₂⟩
  ended j p hp hdone := h₂.ended j p (h₁.ended j p hp hdone) hdone
  log c := by
    obtain ⟨new₁, heq₁, hnew₁⟩ := h₁.log c
    obtain ⟨new₂, heq₂, hnew₂⟩ := h₂.log c
    refine ⟨new₁ ++ new₂, by rw [heq₂, heq₁, List.append_assoc], fun j p hp hdone hj => ?_⟩
    rcases List.mem_append.mp hj with hj | hj
    · exact hnew₁ j p hp hdone hj
    · exact hnew₂ j p (h₁.ended j p hp hdone) hdone hj

theorem Later.set_socket {socket socket' : Socket} (hsocket : s.sockets c = some socket)
    (huser : socket'.user = socket.user) {hub : HubState} {calls : List HubCall}
    (hended : ∀ (j : Nat) (p : Program HubOp Unit), s.hub.tasks[j]? = some p →
      hub.tasks[j]? = some p) :
    Later s { s.setSocket c socket' with hub, calls } where
  users d socket₀ hsocket₀ := by
    by_cases hd : d = c
    · subst hd
      obtain rfl := Option.some.inj (hsocket.symm.trans hsocket₀)
      exact ⟨socket', Function.update_self .., huser⟩
    · exact ⟨socket₀, (Function.update_of_ne hd ..).trans hsocket₀, rfl⟩
  ended j p hp _ := hended j p hp
  log d := (Later.refl s).log d

theorem TaskStep.not_done {choice : HubChoice} {user : Uuid} {h h' : Hub} {pc pc' : TaskPc}
    (hs : TaskStep choice user h pc h' pc') : (pc.prog user).isDone = false := by
  cases hs with
  | remove hr _ | removed hr => cases hr <;> rfl
  | _ => rfl

theorem SocketStep.later (hinv : Delivers env s ts) (hs : SocketStep env s ts l s' ts') :
    Later s s' := by
  cases hs with
  | rejected | ignored => exact .refl s
  | @upgrade now token d user _ _ hnew =>
    refine ⟨fun c socket hsocket => ?_, fun _ _ hp _ => hp, (Later.refl s).log⟩
    have hcd : c ≠ d := by
      rintro rfl
      rw [(hinv.silent c hnew).1] at hsocket
      cases hsocket
    exact ⟨socket, (Function.update_of_ne hcd ..).trans hsocket, rfl⟩
  | take hsocket | sent hsocket | finish hsocket =>
    refine .set_socket hsocket ?_ ?_
    · rfl
    · exact fun _ _ hp => hp
  | leave hsocket =>
    refine .set_socket hsocket ?_ ?_
    · rfl
    · exact fun _ _ hp => Slots.getElem?_append hp _
  | send =>
    exact ⟨fun c socket hsocket => ⟨socket, hsocket, rfl⟩,
      fun _ _ hp _ => Slots.getElem?_append hp _, (Later.refl s).log⟩
  | @task i choice user pc pc' hub ht htask =>
    have hother : ∀ (j : Nat) (p : Program HubOp Unit), s.hub.tasks[j]? = some p → p.isDone →
        j ≠ i := by
      rintro j p hp hdone rfl
      rw [hinv.tasks, List.getElem?_map, ht] at hp
      cases hp
      exact Bool.false_ne_true (htask.not_done.symm.trans hdone)
    refine ⟨fun c socket hsocket => ⟨socket, hsocket, rfl⟩, fun j p hp hdone => ?_, fun c => ?_⟩
    · dsimp only
      rw [List.getElem?_set_ne (hother j p hp hdone).symm, hp]
    · obtain ⟨new, hnew, honly⟩ := logged_append (s := s) i pc.pushing c
      exact ⟨new, hnew, fun j p hp hdone hj => hother j p hp hdone (honly j hj)⟩

/-- The invariants of the states that are reached without a gap. -/
structure Sound (env : WsEnv) (s : SocketState) (ts : List Task) : Prop where
  delivers : Delivers env s ts
  registry : Inv s.hub ts
  left : Left s

theorem Sound.step (hsound : Sound env s ts) (hok : UpgradesApart env s l)
    (hs : (socketSystem env).step s l = some s') :
    ∃ ts', SocketStep env s ts l s' ts' ∧ Sound env s' ts' := by
  obtain ⟨ts', hstep⟩ := socketStep_of_step hsound.delivers.tasks hsound.delivers.normal hs
  exact ⟨ts', hstep, hstep.delivers hsound.delivers, hstep.registry hsound.registry hok,
    hstep.left hsound.delivers hsound.left⟩

theorem sound_reachable (h : (socketSystem env).Reachable (UpgradesApart env) s) :
    ∃ ts, Sound env s ts := by
  refine h.invariant (P := fun s => ∃ ts, Sound env s ts) ?_ ?_
  · rintro _ rfl
    exact ⟨[], .start env, inv_start, nofun⟩
  · rintro s l t ⟨ts, hsound⟩ hok hs
    obtain ⟨ts', -, hsound'⟩ := hsound.step hok hs
    exact ⟨ts', hsound'⟩

theorem later_caught {t : SocketState} (hsound : Sound env s ts)
    (hrun : Relation.ReflTransGen ((socketSystem env).Next (UpgradesApart env)) s t)
    (hcaught : Caught c n s ts) :
    ∃ ts', Sound env t ts' ∧ Later s t ∧ Caught c n t ts' := by
  induction hrun with
  | refl => exact ⟨ts, hsound, .refl s, hcaught⟩
  | tail _ hnext ih =>
    obtain ⟨ts₁, hsound₁, hlater₁, hcaught₁⟩ := ih
    obtain ⟨l, hok, hs⟩ := hnext
    obtain ⟨ts₂, hstep, hsound₂⟩ := hsound₁.step hok hs
    exact ⟨ts₂, hsound₂, hlater₁.trans (hstep.later hsound₁.delivers),
      hstep.caught hsound₁.delivers hsound₁.registry hsound₁.left hcaught₁⟩

theorem not_untried_of_isDone {t : Task} (ht : t.2.Normal) (hdone : t.prog.isDone) :
    ¬t.2.Untried c := by
  obtain ⟨user, pc⟩ := t
  cases pc with
  | done => rintro (hundecided | hin) <;> contradiction
  | remove d pc after =>
    cases pc with
    | finished => exact absurd ht id
    | _ => cases hdone
  | _ => cases hdone

end Registry

/-- While no connection is added in the gap of `remove_connection`, a client that is served
throughout gets the message of each call to its user that is made and ends in the meantime
exactly once, and that of a call that had ended before another was made in front of it. -/
theorem frames_exactly_once {env : WsEnv} {s t : SocketState}
    (h : (socketSystem env).Reachable (UpgradesApart env) s)
    (hrun : Relation.ReflTransGen ((socketSystem env).Next (UpgradesApart env)) s t)
    {c : Uuid} {before socket : Socket} (hbefore : s.sockets c = some before)
    (hsocket : t.sockets c = some socket) (hserving : socket.phase.serving) :
    (∃ ch, t.hub.hub.channels c = some ch ∧
      ((t.log c).map fun i => t.calls[i]?) =
        (socket.frames ++ socket.phase.inHand ++ ch.queue).map fun message =>
          some (.sendToUser socket.user message)) ∧
    (∀ i message p, s.calls.length ≤ i →
      t.calls[i]? = some (.sendToUser socket.user message) → t.hub.tasks[i]? = some p →
      p.isDone → (t.log c).count i = 1) ∧
    ∀ i j p, s.hub.tasks[j]? = some p → p.isDone → s.calls.length ≤ i →
      i ∈ t.log c → j ∈ t.log c → [j, i].Sublist (t.log c) := by
  obtain ⟨ts, hsound⟩ := Registry.sound_reachable h
  have hstart : Registry.Caught c s.calls.length s ts := by
    refine ⟨before, hbefore, fun _ i pc message hi _ hmessage => ?_⟩
    rw [List.getElem?_eq_none hi] at hmessage
    cases hmessage
  obtain ⟨ts', hsound', hlater, socket', hsocket', hcaught⟩ :=
    Registry.later_caught hsound hrun hstart
  obtain rfl := Option.some.inj (hsocket.symm.trans hsocket')
  obtain ⟨ch, hch, hpaired⟩ := hsound'.delivers.channel_of_socket hsocket
  obtain ⟨new, hlog, hnew⟩ := hlater.log c
  refine ⟨⟨ch, hch, hpaired.log⟩, fun i message p hi hmessage hp hdone => ?_,
    fun i j p hp hdone hi hmem hmem' => ?_⟩
  · rw [hsound'.delivers.tasks, List.getElem?_map] at hp
    obtain ⟨⟨user, pc⟩, hpc, rfl⟩ := Option.map_eq_some_iff.mp hp
    obtain ⟨rfl, -⟩ := hsound'.delivers.runs i _ _ hpc hmessage
    have huntried := Registry.not_untried_of_isDone (c := c)
      (hsound'.delivers.normal _ (List.mem_of_getElem? hpc)) hdone
    exact List.count_eq_one_of_mem (hsound'.delivers.nodup c)
      ((hcaught hserving i pc message hi hpc hmessage).resolve_right huntried)
  · -- `i` is among what the run has added, `j` is not
    rw [hlog] at hmem hmem' ⊢
    have hi' : i ∈ new := by
      refine (List.mem_append.mp hmem).resolve_left fun hold => ?_
      exact absurd (hsound.delivers.lt_length hold) (Nat.not_lt.mpr hi)
    have hj : j ∈ s.log c :=
      (List.mem_append.mp hmem').resolve_right (hnew j p hp hdone)
    exact (List.singleton_sublist.mpr hj).append (List.singleton_sublist.mpr hi')

def noUpgrade : SocketState → SocketLabel → Bool
  | _, .upgrade .. => false
  | _, _ => true

/-- The call for the second message is made when that for the first has ended. -/
theorem frames_exactly_once_sent : ∃ s t : SocketState,
    (s.calls.length = 1 ∧ s.hub.tasks.map Program.isDone = [true] ∧ t.log ⟨1⟩ = [0, 1]) ∧
    (∃ ch, t.hub.hub.channels ⟨1⟩ = some ch ∧ ((t.log ⟨1⟩).map fun i => t.calls[i]?) =
      (["first", "second"] ++ [] ++ ch.queue).map fun message =>
        some (.sendToUser ⟨7⟩ message)) ∧
    (∀ i message p, s.calls.length ≤ i → t.calls[i]? = some (.sendToUser ⟨7⟩ message) →
      t.hub.tasks[i]? = some p → p.isDone → (t.log ⟨1⟩).count i = 1) ∧
    ∀ i j p, s.hub.tasks[j]? = some p → p.isDone → s.calls.length ≤ i →
      i ∈ t.log ⟨1⟩ → j ∈ t.log ⟨1⟩ → [j, i].Sublist (t.log ⟨1⟩) := by
  obtain ⟨s₁, hupgrade⟩ : ∃ s₁, (socketSystem .ofSeven).step .start
      (.upgrade 0 "token" ⟨1⟩) = some s₁ := ⟨_, rfl⟩
  have hstart : (socketSystem .ofSeven).Reachable (UpgradesApart .ofSeven) .start :=
    System.Reachable.start rfl
  have hok : UpgradesApart .ofSeven .start (.upgrade 0 "token" ⟨1⟩) :=
    fun _ _ _ hp => nomatch hp
  have hcheck : ∀ s l, noUpgrade s l = true → UpgradesApart .ofSeven s l := by
    intro s l hl
    cases l with
    | upgrade => cases hl
    | _ => trivial
  obtain ⟨s, hfirst, hbefore, hlength, hdone⟩ : ∃ s, (socketSystem .ofSeven).runWhen noUpgrade s₁
      [.send ⟨7⟩ "first", .task 0 .plain, .task 0 .plain, .task 0 .plain, .task 0 .plain] =
        some s ∧ s.sockets ⟨1⟩ = some ⟨⟨7⟩, .select, []⟩ ∧ s.calls.length = 1 ∧
      s.hub.tasks.map Program.isDone = [true] := by
    cases hupgrade
    exact ⟨_, rfl, rfl, rfl, rfl⟩
  have hreach : (socketSystem .ofSeven).Reachable (UpgradesApart .ofSeven) s :=
    (hstart.next hok hupgrade).runWhen hcheck hfirst
  obtain ⟨t, hsecond, hsocket, hlog⟩ : ∃ t, (socketSystem .ofSeven).runWhen noUpgrade s
      [.take ⟨1⟩, .send ⟨7⟩ "second", .sent ⟨1⟩ true, .task 1 .plain, .task 1 .plain,
        .task 1 .plain, .task 1 .plain, .take ⟨1⟩, .sent ⟨1⟩ true] = some t ∧
      t.sockets ⟨1⟩ = some ⟨⟨7⟩, .select, ["first", "second"]⟩ ∧ t.log ⟨1⟩ = [0, 1] := by
    cases hupgrade
    cases hfirst
    exact ⟨_, rfl, rfl, rfl⟩
  exact ⟨s, t, ⟨hlength, hdone, hlog⟩, frames_exactly_once hreach
    (System.path_of_runWhen hcheck hsecond) hbefore hsocket rfl⟩

end NotiService
