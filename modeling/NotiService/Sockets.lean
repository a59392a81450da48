import NotiService.Service
import NotiService.SocketSend

/-! `WebSocketProvider`, and `start_rabbitmq_consumer` with the sockets it delivers to. The
consumer awaits each dispatch, which awaits the provider, which awaits room in the channel
of each connection in turn. -/

namespace NotiService
open Foundation Amqp

namespace WebSocketProvider

open Program

/-- What `send` makes of the result of `send_to_user`. -/
def answer (delivered : Bool) : Program HubOp (Except NotiError String) := do
  if delivered then
    let id ← perform .newV4
    return .ok ("ws-" ++ id.toString)
  else
    return .ok "not-connected"

def send (parseStr : String → Except String Uuid) (recipient content : String) :
    Program HubOp (Except NotiError String) :=
  match parseStr recipient with
  | .error e => return .error (.internal ("Invalid UUID for WebSocket recipient: " ++ e))
  | .ok user => do
    let delivered ← ConnectionManager.sendToUser user content
    answer delivered

theorem completes_answer (h : Hub) (delivered : Bool) :
    ∃ r h', h.Completes (answer delivered) r h' := by
  cases delivered with
  | true => exact ⟨_, h, (completes_call _).mpr
      ⟨default, _, h, rfl, (completes_done _).mpr ⟨rfl, rfl⟩⟩⟩
  | false => exact ⟨_, h, (completes_done _).mpr ⟨rfl, rfl⟩⟩

theorem completes_send_iff (parseStr : String → Except String Uuid) {h : Hub}
    (hfree : ∀ user, h.guards user = 0) (recipient content : String) :
    (∃ r h', h.Completes (send parseStr recipient content) r h') ↔
      ∀ user, parseStr recipient = .ok user → ∀ c ∈ h.members user, h.accepts c := by
  unfold send Hub.Completes
  cases hparse : parseStr recipient with
  | error e => exact iff_of_true ⟨_, h, (completes_done _).mpr ⟨rfl, rfl⟩⟩ nofun
  | ok user =>
    have huser : (∀ user', (.ok user : Except String Uuid) = .ok user' →
        ∀ c ∈ h.members user', h.accepts c) ↔ ∀ c ∈ h.members user, h.accepts c :=
      ⟨fun hall => hall user rfl, fun hall user' heq => Except.ok.inj heq ▸ hall⟩
    rw [huser, ← completes_sendToUser_iff content (hfree user)]
    constructor
    · rintro ⟨_, _, hend⟩
      obtain ⟨delivered, h₁, hto, -⟩ := (completes_bind _).mp hend
      exact ⟨delivered, h₁, hto⟩
    · rintro ⟨delivered, h₁, hto⟩
      obtain ⟨r, h', hend⟩ := completes_answer h₁ delivered
      exact ⟨r, h', (completes_bind _).mpr ⟨delivered, h₁, hto, hend⟩⟩

end WebSocketProvider

/-- What `start_rabbitmq_consumer` is at: between two deliveries, in the dispatch of one, or
in a send of the WebSocket provider within it. -/
inductive Processing (Bytes : Type) where
  | idle
  | dispatching (message : Message Bytes) (prog : Program Op Disposition)
  | sending (message : Message Bytes) (prog : Program HubOp (Except NotiError String))
      (rest : Except NotiError String → Program Op Disposition)
  | stopped

structure ConsumerState (Bytes : Type) where
  world : World Bytes
  sockets : HubState
  processing : Processing Bytes

/-- `others` is what the rest of the service and time do to the world. -/
inductive ConsumerLabel (Bytes : Type) where
  | others (world : World Bytes)
  | socket (l : HubLabel)
  | next
  | cancel
  | call (o : Outcome)
  | provide (choice : HubChoice)
  | settle (answered : Bool)

variable {Bytes : Type}

def ConsumerState.call (d : Deployment Bytes) (parseStr : String → Except String Uuid)
    (s : ConsumerState Bytes) (o : Outcome) (message : Message Bytes) :
    Program Op Disposition → Option (ConsumerState Bytes)
  | .done _ => none
  | .call (.send .webSocket recipient content) rest => some { s with
      processing := .sending message (WebSocketProvider.send parseStr recipient content) rest }
  | .call op rest => (exec d o op s.world).map fun (answer, world) =>
      { s with world, processing := .dispatching message (rest answer) }

def consumerSystem (d : Deployment Bytes) (parseStr : String → Except String Uuid) :
    System (ConsumerState Bytes) (ConsumerLabel Bytes) where
  init s := s.sockets = .start ∧ s.processing = .idle
  step s
    | .others world => some { s with world }
    | .socket l => (hubSystem.step s.sockets l).map fun sockets => { s with sockets }
    | .next =>
      match s.processing with
      | .idle => (s.world.broker.deliver RabbitMQ.dispatchQueue).map fun (message, broker) =>
        { s with
          world := { s.world with broker }
          processing := .dispatching message
            (Consumer.processDispatchPayload d.codec d.mq message.body) }
      | _ => none
    | .cancel =>
      match s.processing with
      | .idle => some { s with processing := .stopped }
      | _ => none
    | .call o =>
      match s.processing with
      | .dispatching message p => s.call d parseStr o message p
      | _ => none
    | .provide choice =>
      match s.processing with
      | .sending message (.done r) rest =>
        some { s with processing := .dispatching message (rest r) }
      | .sending message p rest => (Program.step (Hub.exec choice) p s.sockets.hub).map
        fun (p', hub) =>
          { s with sockets := { s.sockets with hub }, processing := .sending message p' rest }
      | _ => none
    | .settle answered =>
      match s.processing with
      | .dispatching message (.done disposition) => some { s with
          world := Service.settle d.topology message disposition s.world
          -- an `ack` that fails ends the loop with `?`
          processing := if answered then .idle else .stopped }
      | _ => none

def HubOp.pushes {α : Type} : HubOp α → Option Uuid
  | .txSend connection _ => some connection
  | _ => none

def pushes {α : Type} (p : Program HubOp α) : Option Uuid := (p.peek HubOp.pushes).join

/-- The processing of a delivery waits for a client to read. -/
def ConsumerState.Blocked (s : ConsumerState Bytes) : Prop :=
  ∃ message p rest connection, s.processing = .sending message p rest ∧
    pushes p = some connection ∧ s.sockets.hub.accepts connection = false

def Hub.spare (h : Hub) (connection : Uuid) : Bool :=
  match h.channels connection with
  | none => true
  | some ch => !ch.isOpen || ch.queue.length + 1 < ch.capacity

/-- No push takes the last slot of an open channel. -/
def KeepsUp (s : ConsumerState Bytes) : ConsumerLabel Bytes → Prop
  | .socket (.task i _) => ∀ p ∈ s.sockets.tasks[i]?, ∀ c ∈ pushes p, s.sockets.hub.spare c
  | .provide _ => ∀ message p rest, s.processing = .sending message p rest →
      ∀ c ∈ pushes p, s.sockets.hub.spare c
  | _ => True

namespace Hub

def Roomy (h : Hub) : Prop := ∀ c, h.accepts c

variable {h h' : Hub} {choice : HubChoice} {connection : Uuid}

theorem Roomy.of_channels (hroomy : h.Roomy) (hch : h'.channels = h.channels) : h'.Roomy :=
  fun c => (accepts_congr (congrFun hch c)).trans (hroomy c)

theorem Roomy.update (hroomy : h.Roomy) {ch : Channel} (hroom : ch.isOpen → ch.hasRoom)
    (hch : h'.channels = Function.update h.channels connection (some ch)) : h'.Roomy := by
  intro c
  by_cases hc : c = connection
  · subst hc
    cases hopen : ch.isOpen with
    | true => simp [accepts, hch, hroom hopen]
    | false => simp [accepts, hch, hopen]
  · rw [accepts_congr (h := h) (hch ▸ Function.update_of_ne hc ..)]
    exact hroomy c

theorem Roomy.exec (hroomy : h.Roomy) {β : Type} {op : HubOp β} {answer : β}
    (hspare : ∀ c ∈ op.pushes, h.spare c) (hexec : Hub.exec choice op h = some (answer, h')) :
    h'.Roomy := by
  cases op with
  | get user =>
    simp only [Hub.exec] at hexec
    split at hexec <;> cases hexec
    · exact hroomy.of_channels rfl
    · exact hroomy
  | collect user | drop user | innerRemove user c | isEmpty user | newV4 =>
    cases hexec
    exact hroomy.of_channels rfl
  | outerRemove user =>
    obtain ⟨-, hexec⟩ := Option.ite_none_right_eq_some.mp hexec
    cases hexec
    exact hroomy.of_channels rfl
  | txSend c message =>
    have hc := hspare c rfl
    simp only [Hub.exec, Hub.txSend] at hexec
    split at hexec
    · cases hexec
    · next ch hch =>
      split at hexec
      · next hopen =>
        obtain ⟨-, hexec⟩ := Option.ite_none_right_eq_some.mp hexec
        cases hexec
        refine hroomy.update (fun _ => ?_) rfl
        simpa [Hub.spare, hch, hopen, Channel.hasRoom] using hc
      · cases hexec
        exact hroomy

theorem Roomy.step {α : Type} {p p' : Program HubOp α} (hroomy : h.Roomy)
    (hspare : ∀ c ∈ pushes p, h.spare c)
    (hs : Program.step (Hub.exec choice) p h = some (p', h')) : h'.Roomy := by
  cases p with
  | done value => cases hs
  | call op rest =>
    obtain ⟨answer, hexec, -⟩ := (Program.step_call_eq_some _ _ _ _ _ _).mp hs
    exact hroomy.exec hspare hexec

end Hub

section KeepsUp

variable {d : Deployment Bytes} {parseStr : String → Except String Uuid}
    {s s' : ConsumerState Bytes}

theorem roomy_hubStep {sockets sockets' : HubState} {l : HubLabel} (hroomy : sockets.hub.Roomy)
    (hspare : ∀ i choice, l = .task i choice →
      ∀ p ∈ sockets.tasks[i]?, ∀ c ∈ pushes p, sockets.hub.spare c)
    (hs : hubSystem.step sockets l = some sockets') : sockets'.hub.Roomy := by
  cases l with
  | connect user c =>
    obtain ⟨hub, hadd, rfl⟩ := Option.map_eq_some_iff.mp hs
    obtain ⟨-, hadd⟩ := Option.ite_none_right_eq_some.mp hadd
    cases hadd
    exact hroomy.update (fun _ => rfl) rfl
  | drain c =>
    obtain ⟨ch, hch, rfl⟩ := Option.map_eq_some_iff.mp hs
    refine hroomy.update (fun hopen => ?_) rfl
    have hroom : ch.hasRoom := by
      have hopen' : ch.isOpen = true := hopen
      simpa [Hub.accepts, hch, hopen'] using hroomy c
    have hlen : ch.queue.length < ch.capacity := of_decide_eq_true hroom
    have htail : ch.queue.tail.length < ch.capacity := by
      rw [List.length_tail]
      omega
    exact decide_eq_true htail
  | close c =>
    obtain ⟨ch, hch, rfl⟩ := Option.map_eq_some_iff.mp hs
    refine hroomy.update ?_ rfl
    exact fun hopen => absurd hopen Bool.false_ne_true
  | disconnect c =>
    obtain ⟨ch, hch, rfl⟩ := Option.map_eq_some_iff.mp hs
    exact hroomy
  | send user message =>
    cases hs
    exact hroomy
  | task i choice =>
    obtain ⟨p, hp, hs⟩ := Option.bind_eq_some_iff.mp hs
    obtain ⟨⟨p', hub⟩, hstep, rfl⟩ := Option.map_eq_some_iff.mp hs
    exact hroomy.step (hspare i choice rfl p hp) hstep

theorem sockets_call {o : Outcome} {message : Message Bytes} {p : Program Op Disposition}
    (hs : s.call d parseStr o message p = some s') : s'.sockets = s.sockets := by
  unfold ConsumerState.call at hs
  split at hs
  · cases hs
  · cases hs
    rfl
  · obtain ⟨_, _, rfl⟩ := Option.map_eq_some_iff.mp hs
    rfl

theorem roomy_step {l : ConsumerLabel Bytes} (hroomy : s.sockets.hub.Roomy) (hok : KeepsUp s l)
    (hs : (consumerSystem d parseStr).step s l = some s') : s'.sockets.hub.Roomy := by
  cases l with
  | others world =>
    cases hs
    exact hroomy
  | socket l =>
    obtain ⟨sockets, hsockets, rfl⟩ := Option.map_eq_some_iff.mp hs
    refine roomy_hubStep hroomy ?_ hsockets
    rintro i choice rfl
    exact hok
  | next =>
    simp only [consumerSystem] at hs
    split at hs
    · obtain ⟨_, _, rfl⟩ := Option.map_eq_some_iff.mp hs
      exact hroomy
    · cases hs
  | cancel =>
    simp only [consumerSystem] at hs
    split at hs <;> cases hs
    exact hroomy
  | call o =>
    simp only [consumerSystem] at hs
    split at hs
    · rw [sockets_call hs]
      exact hroomy
    · cases hs
  | provide choice =>
    simp only [consumerSystem] at hs
    split at hs
    · cases hs
      exact hroomy
    · next message p rest _ hsending =>
      obtain ⟨⟨p', hub⟩, hstep, rfl⟩ := Option.map_eq_some_iff.mp hs
      exact hroomy.step (hok message p rest hsending) hstep
    · cases hs
  | settle answered =>
    simp only [consumerSystem] at hs
    split at hs <;> cases hs
    exact hroomy

end KeepsUp

/-- Sends that do not wait for a client. Left to itself, `send` ends exactly if no open
connection of the recipient has a full channel; and as long as no push takes the last slot
of an open channel, the consumer never waits for a client. -/
theorem send_waits_for_no_client (d : Deployment Bytes) (parseStr : String → Except String Uuid) :
    (∀ h : Hub, (∀ user, h.guards user = 0) → ∀ recipient content,
      ((∃ r h', h.Completes (WebSocketProvider.send parseStr recipient content) r h') ↔
        ∀ user, parseStr recipient = .ok user → ∀ c ∈ h.members user, h.accepts c)) ∧
    ∀ s, (consumerSystem d parseStr).Reachable KeepsUp s → ¬s.Blocked := by
  refine ⟨fun h hfree => WebSocketProvider.completes_send_iff parseStr hfree, fun s hreach => ?_⟩
  have hroomy : s.sockets.hub.Roomy := by
    refine hreach.invariant (P := fun s => s.sockets.hub.Roomy) ?_ fun _ _ _ => roomy_step
    rintro s ⟨hsockets, -⟩
    rw [hsockets]
    exact fun _ => rfl
  rintro ⟨_, _, _, c, -, -, hfull⟩
  rw [hroomy c] at hfull
  cases hfull

/-- The one connection of user 7 has not been read for as many messages as its channel holds. -/
def Hub.stalled : Hub := Hub.empty.insertConnection ⟨7⟩ ⟨1⟩
  ⟨⟨7⟩, List.replicate socketCapacity "frame", socketCapacity, true⟩

theorem send_waits_for_a_client : ¬∀ h : Hub, (∀ user, h.guards user = 0) →
    ∀ recipient content, ∃ r h', h.Completes (WebSocketProvider.send
      (fun s => if s = "00000000-0000-0000-0000-000000000007" then .ok ⟨7⟩ else .error "invalid")
      recipient content) r h' := by
  intro hclaim
  have hends := hclaim .stalled (fun _ => rfl) "00000000-0000-0000-0000-000000000007"
    "another frame"
  have haccepts := (WebSocketProvider.completes_send_iff _ (fun _ => rfl) _ _).mp hends ⟨7⟩
    (if_pos rfl) ⟨1⟩ (by decide)
  have hfull : Hub.stalled.accepts ⟨1⟩ = false := by decide
  rw [hfull] at haccepts
  cases haccepts

end NotiService
