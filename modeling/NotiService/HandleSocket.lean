import NotiService.Registry
import NotiService.Sockets

/-! `ws_handler` and `handle_socket`: who gets a connection, and the task behind it, which
takes messages from its channel and sends them to the client until either fails. The calls of
`send_to_user` put messages on the channel meanwhile. -/

namespace NotiService
open Foundation ConnectionManager

inductive WsMessage where
  | text (text : String)
  | binary (bytes : List UInt8)
  | ping (bytes : List UInt8)
  | pong (bytes : List UInt8)
  | close

/-- `decode` verifies a token with the secret at a time and reads its `sub`. -/
structure WsEnv where
  jwtSecret : String
  decode : String → String → Int → Except String String
  parseStr : String → Except String Uuid

def unauthorized : Nat := 401

def wsHandler (env : WsEnv) (now : Int) (token : String) : Except Nat Uuid :=
  match env.decode token env.jwtSecret now with
  | .ok sub =>
    match env.parseStr sub with
    | .ok id => .ok id
    | .error _ => .error unauthorized
  | .error _ => .error unauthorized

/-- Where `handle_socket` is: at its `select!`, in `socket.send`, in `remove_connection`, which
is the given task of the registry, or at its end. A message that could not be sent is dropped. -/
inductive SocketPhase where
  | select
  | sending (message : String)
  | removing (task : Nat) (unsent : Option String)
  | ended (unsent : Option String)

namespace SocketPhase

def inHand : SocketPhase → List String
  | .select => []
  | .sending message => [message]
  | .removing _ unsent => unsent.toList
  | .ended unsent => unsent.toList

def serving : SocketPhase → Bool
  | .select | .sending _ => true
  | .removing _ _ | .ended _ => false

def hasEnded : SocketPhase → Bool
  | .ended _ => true
  | _ => false

end SocketPhase

/-- `frames` are the messages that `socket.send` has sent. -/
structure Socket where
  user : Uuid
  phase : SocketPhase
  frames : List String

inductive HubCall where
  | sendToUser (user : Uuid) (message : String)
  | removeConnection (user connection : Uuid)

/-- Beside what the service holds, what it has done: `calls` are the calls that the tasks of
`hub` run, and `log` tells which of them have put their message on a channel. -/
structure SocketState where
  hub : HubState
  sockets : Uuid → Option Socket
  calls : List HubCall
  log : Uuid → List Nat

inductive SocketLabel where
  | upgrade (now : Int) (token : String) (connection : Uuid)
  | recv (connection : Uuid) (result : Option (Except String WsMessage))
  | take (connection : Uuid)
  | sent (connection : Uuid) (answered : Bool)
  | finish (connection : Uuid)
  | send (user : Uuid) (message : String)
  | task (i : Nat) (choice : HubChoice)

/-- What `socket.recv` yields ends the loop. -/
def ends : Option (Except String WsMessage) → Bool
  | some (.ok .close) => true
  | some (.ok _) => false
  | some (.error _) => true
  | none => true

namespace SocketState

def start : SocketState := ⟨.start, fun _ => none, [], fun _ => []⟩

def setSocket (s : SocketState) (connection : Uuid) (socket : Socket) : SocketState :=
  { s with sockets := Function.update s.sockets connection (some socket) }

def leave (s : SocketState) (connection : Uuid) (socket : Socket) (unsent : Option String) :
    Option SocketState :=
  (hubSystem.step s.hub (.disconnect connection)).map fun hub =>
    { s.setSocket connection { socket with phase := .removing s.hub.tasks.length unsent } with
      hub
      calls := s.calls ++ [.removeConnection socket.user connection] }

/-- The log after a step of task `i`, which sends on `pushed` if that is open. -/
def logged (s : SocketState) (i : Nat) : Option Uuid → Uuid → List Nat
  | some connection =>
    if s.hub.hub.alive connection then
      Function.update s.log connection (s.log connection ++ [i])
    else s.log
  | none => s.log

end SocketState

def socketSystem (env : WsEnv) : System SocketState SocketLabel where
  init s := s = .start
  step s
    | .upgrade now token connection =>
      match wsHandler env now token with
      | .error _ => some s
      | .ok user => (hubSystem.step s.hub (.connect user connection)).map fun hub =>
          { s.setSocket connection ⟨user, .select, []⟩ with hub }
    | .recv connection result =>
      match s.sockets connection with
      | some ⟨user, .select, frames⟩ =>
        if ends result then s.leave connection ⟨user, .select, frames⟩ none else some s
      | _ => none
    | .take connection =>
      match s.sockets connection, s.hub.hub.channels connection with
      | some ⟨user, .select, frames⟩, some ⟨_, message :: _, _, _⟩ =>
        (hubSystem.step s.hub (.drain connection)).map fun hub =>
          { s.setSocket connection ⟨user, .sending message, frames⟩ with hub }
      | _, _ => none
    | .sent connection answered =>
      match s.sockets connection with
      | some ⟨user, .sending message, frames⟩ =>
        if answered then some (s.setSocket connection ⟨user, .select, frames ++ [message]⟩)
        else s.leave connection ⟨user, .sending message, frames⟩ (some message)
      | _ => none
    | .finish connection =>
      match s.sockets connection with
      | some ⟨user, .removing task unsent, frames⟩ =>
        -- `rx` is dropped when the call has returned
        if (s.hub.tasks[task]?.map Program.isDone).getD false then
          (hubSystem.step s.hub (.close connection)).map fun hub =>
            { s.setSocket connection ⟨user, .ended unsent, frames⟩ with hub }
        else none
      | _ => none
    | .send user message => (hubSystem.step s.hub (.send user message)).map fun hub =>
      { s with hub, calls := s.calls ++ [.sendToUser user message] }
    | .task i choice => (hubSystem.step s.hub (.task i choice)).map fun hub =>
      { s with hub, log := s.logged i (s.hub.tasks[i]?.bind pushes) }

end NotiService
