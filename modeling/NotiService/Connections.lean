import NotiService.Domain
import NotiService.Foundation.Program
import NotiService.Foundation.Transition
import NotiService.Foundation.Slots
import Mathlib.Logic.Function.Basic
import Mathlib.Data.List.Nodup

/-! `ConnectionManager`: the sockets of each user in a `DashMap` of `DashMap`s, and the
bounded channel behind each. A call of either map is one step. A guard that `get` returns
keeps the user's entry from being inserted into or removed until it is dropped. -/

namespace NotiService
open Foundation

/-- The channel of `handle_socket`: what is queued, and whether its receiver is alive. -/
structure Channel where
  user : Uuid
  queue : List String
  capacity : Nat
  isOpen : Bool

def Channel.hasRoom (ch : Channel) : Bool := ch.queue.length < ch.capacity

/-- `guards` counts the guards held on a user's entry. The entry of a user is a map, so no
connection is in it twice; each has a channel. -/
structure Hub where
  connections : Uuid → Option (List Uuid)
  guards : Uuid → Nat
  channels : Uuid → Option Channel
  nodup : ∀ user, ((connections user).getD []).Nodup
  backed : ∀ user connection, connection ∈ (connections user).getD [] →
    (channels connection).isSome

inductive HubOp : Type → Type where
  | get (user : Uuid) : HubOp Bool
  | collect (user : Uuid) : HubOp (List Uuid)
  | drop (user : Uuid) : HubOp Unit
  | innerRemove (user connection : Uuid) : HubOp Unit
  | isEmpty (user : Uuid) : HubOp Bool
  | outerRemove (user : Uuid) : HubOp Unit
  | txSend (connection : Uuid) (message : String) : HubOp Bool
  | newV4 : HubOp Uuid

/-- The order in which `iter` happens to visit a map, and the uuid that is drawn next. -/
structure HubChoice where
  order : List Uuid → List Uuid
  perm : ∀ ids, (order ids).Perm ids
  fresh : Uuid

def HubChoice.plain : HubChoice := ⟨fun ids => ids, fun ids => .refl ids, ⟨0⟩⟩

instance : Inhabited HubChoice := ⟨.plain⟩

namespace Hub

def empty : Hub := ⟨fun _ => none, fun _ => 0, fun _ => none, fun _ => .nil, nofun⟩

def members (h : Hub) (user : Uuid) : List Uuid := (h.connections user).getD []

def acquire (h : Hub) (user : Uuid) : Hub :=
  { h with guards := Function.update h.guards user (h.guards user + 1) }

def release (h : Hub) (user : Uuid) : Hub :=
  { h with guards := Function.update h.guards user (h.guards user - 1) }

def eraseConnection (h : Hub) (user connection : Uuid) : Hub where
  connections := Function.update h.connections user
    ((h.connections user).map fun ids => ids.erase connection)
  guards := h.guards
  channels := h.channels
  nodup u := by
    by_cases hu : u = user
    · subst hu
      rw [Function.update_self]
      have hnodup := h.nodup u
      cases hids : h.connections u with
      | none => exact .nil
      | some ids =>
        rw [hids] at hnodup
        exact hnodup.erase connection
    · rw [Function.update_of_ne hu]
      exact h.nodup u
  backed u c hc := by
    by_cases hu : u = user
    · subst hu
      refine h.backed u c ?_
      rw [Function.update_self] at hc
      cases hids : h.connections u with
      | none => simp [hids] at hc
      | some ids =>
        rw [hids] at hc
        exact List.mem_of_mem_erase hc
    · rw [Function.update_of_ne hu] at hc
      exact h.backed u c hc

def removeEntry (h : Hub) (user : Uuid) : Hub where
  connections := Function.update h.connections user none
  guards := h.guards
  channels := h.channels
  nodup u := by
    by_cases hu : u = user
    · subst hu
      simp
    · rw [Function.update_of_ne hu]
      exact h.nodup u
  backed u c hc := by
    by_cases hu : u = user
    · subst hu
      simp at hc
    · rw [Function.update_of_ne hu] at hc
      exact h.backed u c hc

def setChannel (h : Hub) (connection : Uuid) (ch : Channel) : Hub where
  connections := h.connections
  guards := h.guards
  channels := Function.update h.channels connection (some ch)
  nodup := h.nodup
  backed u c hc := by
    by_cases hu : c = connection
    · subst hu
      simp
    · rw [Function.update_of_ne hu]
      exact h.backed u c hc

def insertConnection (h : Hub) (user connection : Uuid) (ch : Channel) : Hub where
  connections := Function.update h.connections user (some ((h.members user).insert connection))
  guards := h.guards
  channels := Function.update h.channels connection (some ch)
  nodup u := by
    by_cases hu : u = user
    · subst hu
      rw [Function.update_self]
      exact (h.nodup u).insert
    · rw [Function.update_of_ne hu]
      exact h.nodup u
  backed u c hc := by
    by_cases hc' : c = connection
    · subst hc'
      simp
    · rw [Function.update_of_ne hc']
      by_cases hu : u = user
      · subst hu
        rw [Function.update_self] at hc
        exact h.backed u c ((List.mem_insert_iff.mp hc).resolve_left hc')
      · rw [Function.update_of_ne hu] at hc
        exact h.backed u c hc

/-- `send` waits while the channel is full, and fails once its receiver is gone. -/
def txSend (h : Hub) (connection : Uuid) (message : String) : Option (Bool × Hub) :=
  match h.channels connection with
  | none => none
  | some ch =>
    if ch.isOpen then
      if ch.hasRoom then
        some (true, h.setChannel connection { ch with queue := ch.queue ++ [message] })
      else none
    else some (false, h)

def exec (choice : HubChoice) : {β : Type} → HubOp β → Hub → Option (β × Hub)
  | _, .get user, h =>
    if (h.connections user).isSome then some (true, h.acquire user) else some (false, h)
  | _, .collect user, h => some (choice.order (h.members user), h)
  | _, .drop user, h => some ((), h.release user)
  | _, .innerRemove user connection, h =>
    some ((), h.eraseConnection user connection)
  | _, .isEmpty user, h => some ((h.members user).isEmpty, h)
  | _, .outerRemove user, h =>
    if h.guards user = 0 then some ((), h.removeEntry user) else none
  | _, .txSend connection message, h => h.txSend connection message
  | _, .newV4, h => some (choice.fresh, h)

end Hub

namespace ConnectionManager

open Program

def removeConnection (user connection : Uuid) : Program HubOp Unit := do
  if ← perform (.get user) then
    perform (.innerRemove user connection)
    let isEmpty ← perform (.isEmpty user)
    perform (.drop user)
    if isEmpty then
      perform (.outerRemove user)

/-- The loop of `send_to_user`. -/
def sendEach (user : Uuid) (message : String) (delivered : Bool) :
    List Uuid → Program HubOp Bool
  | [] => return delivered
  | connection :: senders => do
    if ← perform (.txSend connection message) then
      sendEach user message true senders
    else
      removeConnection user connection
      sendEach user message delivered senders

def sendToUser (user : Uuid) (message : String) : Program HubOp Bool := do
  if ← perform (.get user) then
    let senders ← perform (.collect user)
    perform (.drop user)
    sendEach user message false senders
  else
    return false

end ConnectionManager

def socketCapacity : Nat := 100

namespace Hub

/-- `add_connection` with a new channel: `entry`, `or_default` and `insert` under the
lock of the entry. -/
def addConnection (h : Hub) (user connection : Uuid) : Option Hub :=
  if h.guards user = 0 ∧ (h.channels connection).isNone then
    some (h.insertConnection user connection ⟨user, [], socketCapacity, true⟩)
  else none

end Hub

/-- `tasks` are the calls of `send_to_user` and `remove_connection` in progress, `removed`
the connections that `handle_socket` has called `remove_connection` for. -/
structure HubState where
  hub : Hub
  tasks : List (Program HubOp Unit)
  removed : List Uuid

inductive HubLabel where
  | connect (user connection : Uuid)
  | drain (connection : Uuid)
  | close (connection : Uuid)
  | disconnect (connection : Uuid)
  | send (user : Uuid) (message : String)
  | task (i : Nat) (choice : HubChoice)

open ConnectionManager in
def hubSystem : System HubState HubLabel where
  init s := s = ⟨.empty, [], []⟩
  step s
    | .connect user connection => (s.hub.addConnection user connection).map fun hub =>
        { s with hub }
    | .drain connection => (s.hub.channels connection).map fun ch =>
      { s with hub := s.hub.setChannel connection { ch with queue := ch.queue.tail } }
    | .close connection => (s.hub.channels connection).map fun ch =>
      { s with hub := s.hub.setChannel connection { ch with isOpen := false } }
    | .disconnect connection => (s.hub.channels connection).map fun ch =>
      { s with
        tasks := s.tasks ++ [removeConnection ch.user connection]
        removed := connection :: s.removed }
    | .send user message =>
      some { s with tasks := s.tasks ++ [(sendToUser user message).map fun _ => ()] }
    | .task i choice => s.tasks[i]?.bind fun p =>
      (Program.step (Hub.exec choice) p s.hub).map fun (p', hub) =>
        { s with hub, tasks := s.tasks.set i p' }

def HubState.start : HubState := ⟨.empty, [], []⟩

end NotiService
