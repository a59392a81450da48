import Mathlib.Logic.Function.Basic
import Mathlib.Data.List.Basic

/-! An AMQP broker with direct exchanges, dead-lettering and per-message time to
live. A topology is what a client declares; a broker holds, for each queue, its
ready messages in order. A rejected or expired message goes where the queue's
dead-letter arguments lead, and nowhere if they are not set. A message expires at
the head of its queue only. -/

namespace NotiService.Foundation.Amqp

structure QueueArgs where
  deadLetterExchange : Option String
  deadLetterRoutingKey : Option String
deriving DecidableEq, Repr

def QueueArgs.default : QueueArgs := ⟨none, none⟩

structure Binding where
  queue : String
  exchange : String
  routingKey : String
deriving DecidableEq, Repr

structure Topology where
  exchanges : List String
  queues : List (String × QueueArgs)
  bindings : List Binding
deriving DecidableEq, Repr

namespace Topology

def empty : Topology := ⟨[], [], []⟩

def exchangeDeclare (name : String) (t : Topology) : Topology :=
  { t with exchanges := t.exchanges ++ [name] }

def queueDeclare (name : String) (args : QueueArgs) (t : Topology) : Topology :=
  { t with queues := t.queues ++ [(name, args)] }

def queueBind (queue exchange routingKey : String) (t : Topology) : Topology :=
  { t with bindings := t.bindings ++ [⟨queue, exchange, routingKey⟩] }

/-- The queues a message reaches. The default exchange `""` knows every queue by
its name. -/
def route (t : Topology) (exchange routingKey : String) : List String :=
  if exchange = "" then (t.queues.map Prod.fst).filter fun queue => queue = routingKey
  else (t.bindings.filter fun b => b.exchange = exchange ∧ b.routingKey = routingKey).map
    Binding.queue

def args (t : Topology) (queue : String) : QueueArgs :=
  (t.queues.lookup queue).getD .default

def deadLetterKey (t : Topology) (queue routingKey : String) : String :=
  (t.args queue).deadLetterRoutingKey.getD routingKey

def deadLetterRoute (t : Topology) (queue routingKey : String) : List String :=
  match (t.args queue).deadLetterExchange with
  | none => []
  | some exchange => t.route exchange (t.deadLetterKey queue routingKey)

end Topology

/-- `tag` tells one publish from another; it stays with the message when it is
dead-lettered. -/
structure Message (Body : Type) where
  tag : Nat
  body : Body
  routingKey : String
  expiry : Option Int
deriving DecidableEq, Repr

structure Broker (Body : Type) where
  ready : String → List (Message Body)
  nextTag : Nat

namespace Broker

variable {Body : Type}

def empty : Broker Body := ⟨fun _ => [], 0⟩

def push (b : Broker Body) (m : Message Body) (queue : String) : Broker Body :=
  { b with ready := Function.update b.ready queue (b.ready queue ++ [m]) }

def pushAll (b : Broker Body) (m : Message Body) (queues : List String) : Broker Body :=
  queues.foldl (fun b queue => b.push m queue) b

def publish (t : Topology) (exchange routingKey : String) (body : Body) (expiry : Option Int)
    (b : Broker Body) : Broker Body :=
  { b.pushAll ⟨b.nextTag, body, routingKey, expiry⟩ (t.route exchange routingKey) with
    nextTag := b.nextTag + 1 }

/-- The broker takes the expiration off a message it dead-letters. -/
def deadLetter (t : Topology) (queue : String) (m : Message Body) (b : Broker Body) :
    Broker Body :=
  b.pushAll { m with routingKey := t.deadLetterKey queue m.routingKey, expiry := none }
    (t.deadLetterRoute queue m.routingKey)

def deliver (queue : String) (b : Broker Body) : Option (Message Body × Broker Body) :=
  match b.ready queue with
  | [] => none
  | m :: rest => some (m, { b with ready := Function.update b.ready queue rest })

/-- An unacknowledged message goes back where it was, at the head. -/
def requeue (queue : String) (m : Message Body) (b : Broker Body) : Broker Body :=
  { b with ready := Function.update b.ready queue (m :: b.ready queue) }

def expireHead (t : Topology) (queue : String) (now : Int) (b : Broker Body) :
    Option (Broker Body) :=
  (b.deliver queue).bind fun (m, b') => m.expiry.bind fun e =>
    if e ≤ now then some (b'.deadLetter t queue m) else none

@[simp] theorem ready_push_self (b : Broker Body) (m : Message Body) (queue : String) :
    (b.push m queue).ready queue = b.ready queue ++ [m] := by
  simp [push]

theorem ready_push_of_ne (b : Broker Body) (m : Message Body) {queue queue' : String}
    (h : queue' ≠ queue) : (b.push m queue).ready queue' = b.ready queue' := by
  simp [push, h]

theorem mem_push {b : Broker Body} {m m' : Message Body} {queue queue' : String} :
    m' ∈ (b.push m queue).ready queue' ↔
      m' ∈ b.ready queue' ∨ (queue' = queue ∧ m' = m) := by
  by_cases h : queue' = queue
  · subst h
    simp
  · simp [ready_push_of_ne b m h, h]

theorem mem_pushAll {b : Broker Body} {m m' : Message Body} {queues : List String}
    {queue : String} :
    m' ∈ (b.pushAll m queues).ready queue ↔
      m' ∈ b.ready queue ∨ (queue ∈ queues ∧ m' = m) := by
  induction queues generalizing b with
  | nil => simp [pushAll]
  | cons q queues ih =>
    rw [pushAll, List.foldl_cons, ← pushAll, ih, mem_push, List.mem_cons]
    tauto

theorem ready_pushAll_of_notMem (b : Broker Body) (m : Message Body) {queues : List String}
    {queue : String} (h : queue ∉ queues) : (b.pushAll m queues).ready queue = b.ready queue := by
  induction queues generalizing b with
  | nil => rfl
  | cons q queues ih =>
    rw [List.mem_cons, not_or] at h
    rw [pushAll, List.foldl_cons, ← pushAll, ih _ h.2, ready_push_of_ne b m h.1]

theorem deliver_eq_some {b b' : Broker Body} {m : Message Body} {queue : String} :
    b.deliver queue = some (m, b') ↔ ∃ rest, b.ready queue = m :: rest ∧
      b' = { b with ready := Function.update b.ready queue rest } := by
  unfold deliver
  cases h : b.ready queue with
  | nil => simp
  | cons head rest =>
    simp only [Option.some.injEq, Prod.mk.injEq, List.cons.injEq]
    constructor
    · rintro ⟨rfl, rfl⟩
      exact ⟨rest, ⟨rfl, rfl⟩, rfl⟩
    · rintro ⟨rest', ⟨rfl, rfl⟩, rfl⟩
      exact ⟨rfl, rfl⟩

theorem mem_of_deliver {b b' : Broker Body} {m m' : Message Body} {queue queue' : String}
    (h : b.deliver queue = some (m, b')) (hm : m' ∈ b.ready queue') :
    (queue' = queue ∧ m' = m) ∨ m' ∈ b'.ready queue' := by
  obtain ⟨rest, hq, rfl⟩ := deliver_eq_some.mp h
  by_cases hqueue : queue' = queue
  · subst hqueue
    rw [hq, List.mem_cons] at hm
    simpa using hm
  · simp [hqueue, hm]

theorem sublist_push (b : Broker Body) (m : Message Body) (queue queue' : String) :
    (b.ready queue').Sublist ((b.push m queue).ready queue') := by
  by_cases h : queue' = queue
  · subst h
    rw [ready_push_self]
    exact List.sublist_append_left ..
  · rw [ready_push_of_ne b m h]

theorem sublist_pushAll (b : Broker Body) (m : Message Body) (queues : List String)
    (queue : String) : (b.ready queue).Sublist ((b.pushAll m queues).ready queue) := by
  induction queues generalizing b with
  | nil => exact List.Sublist.refl _
  | cons q queues ih => exact (b.sublist_push m q queue).trans (ih _)

theorem sublist_of_deliver {b b' : Broker Body} {m : Message Body} {queue : String}
    (h : b.deliver queue = some (m, b')) (queue' : String) :
    (b'.ready queue').Sublist (b.ready queue') := by
  obtain ⟨rest, hq, rfl⟩ := deliver_eq_some.mp h
  by_cases hqueue : queue' = queue
  · subst hqueue
    simp [hq]
  · simp [hqueue]

theorem sublist_requeue (b : Broker Body) (m : Message Body) (queue queue' : String) :
    (b.ready queue').Sublist ((b.requeue queue m).ready queue') := by
  by_cases h : queue' = queue
  · subst h
    simp [requeue]
  · simp [requeue, h]

theorem head_of_deliver {b b' : Broker Body} {m : Message Body} {queue : String}
    (h : b.deliver queue = some (m, b')) : m ∈ b.ready queue := by
  obtain ⟨rest, hq, -⟩ := deliver_eq_some.mp h
  simp [hq]

theorem mem_requeue {b : Broker Body} {m m' : Message Body} {queue queue' : String} :
    m' ∈ (b.requeue queue m).ready queue' ↔
      (queue' = queue ∧ m' = m) ∨ m' ∈ b.ready queue' := by
  by_cases h : queue' = queue
  · subst h
    simp [requeue]
  · simp [requeue, h]

theorem expireHead_eq_some {t : Topology} {queue : String} {now : Int} {b b' : Broker Body} :
    b.expireHead t queue now = some b' ↔ ∃ m b₁ e, b.deliver queue = some (m, b₁) ∧
      m.expiry = some e ∧ e ≤ now ∧ b' = b₁.deadLetter t queue m := by
  simp only [expireHead, Option.bind_eq_some_iff, Prod.exists, Option.ite_none_right_eq_some,
    Option.some.injEq]
  constructor
  · rintro ⟨m, b₁, hd, e, he, hle, rfl⟩
    exact ⟨m, b₁, e, hd, he, hle, rfl⟩
  · rintro ⟨m, b₁, e, hd, he, hle, rfl⟩
    exact ⟨m, b₁, hd, e, he, hle, rfl⟩

end Broker

section Expiry

variable {Body : Type}

def Message.expired (now : Int) (m : Message Body) : Prop := ∃ e, m.expiry = some e ∧ e ≤ now

/-- No message expires before one that stands ahead of it. -/
def InExpiryOrder (queue : List (Message Body)) : Prop :=
  queue.Pairwise fun a b => ∀ e, b.expiry = some e → ∃ e', a.expiry = some e' ∧ e' ≤ e

/-- Expiry at the head alone is enough for a queue in expiry order. -/
theorem InExpiryOrder.none_expired {queue : List (Message Body)} {now : Int}
    (h : InExpiryOrder queue) (hhead : ∀ m, queue.head? = some m → ¬ m.expired now) :
    ∀ m ∈ queue, ¬ m.expired now := by
  intro m hm
  cases queue with
  | nil => simp at hm
  | cons head rest =>
    rcases List.mem_cons.mp hm with rfl | hm
    · exact hhead m rfl
    · rintro ⟨e, he, hle⟩
      obtain ⟨e', he', hee⟩ := (List.pairwise_cons.mp h).1 m hm e he
      exact hhead head rfl ⟨e', he', Int.le_trans hee hle⟩

theorem InExpiryOrder.append {queue : List (Message Body)} {m : Message Body}
    (h : InExpiryOrder queue) (hlast : ∀ last, queue.getLast? = some last → ∀ e,
      m.expiry = some e → ∃ e', last.expiry = some e' ∧ e' ≤ e) :
    InExpiryOrder (queue ++ [m]) := by
  refine List.pairwise_append.mpr ⟨h, List.pairwise_singleton _ _, ?_⟩
  intro a ha b hb e he
  obtain rfl := List.mem_singleton.mp hb
  have hne : queue ≠ [] := List.ne_nil_of_mem ha
  have hsplit := List.dropLast_append_getLast hne
  obtain ⟨e', he', hle⟩ := hlast (queue.getLast hne) (List.getLast?_eq_some_getLast hne) e he
  rw [← hsplit] at h ha
  rcases List.mem_append.mp ha with ha | ha
  · obtain ⟨e'', he'', hle'⟩ := (List.pairwise_append.mp h).2.2 a ha _ (by simp) e' he'
    exact ⟨e'', he'', Int.le_trans hle' hle⟩
  · rw [List.mem_singleton.mp ha]
    exact ⟨e', he', hle⟩

end Expiry

end NotiService.Foundation.Amqp
