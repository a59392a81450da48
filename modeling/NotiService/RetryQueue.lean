import NotiService.World
import NotiService.Foundation.Transition

/-! `noti.retry` over time. Dispatch publishes retries of different notifications with
different delays to one queue, and the broker expires only its head. A task is
overdue behind an unexpired head exactly when it was published to expire before the
task ahead of it. -/

namespace NotiService
open Foundation Orchestrator Amqp RabbitMQ

variable {Bytes : Type} (codec : TaskCodec Bytes)

theorem expiration_delayMs {retryCount : Int} (h : 0 < retryCount)
    (hmax : retryCount ≤ maxRetries) :
    0 < delayMs retryCount / 60000 ∧
      expiration (delayMs retryCount / 60000 : Nat) = delayMs retryCount := by
  unfold maxRetries at hmax
  obtain rfl | rfl | rfl | rfl | rfl : retryCount = 1 ∨ retryCount = 2 ∨ retryCount = 3 ∨
      retryCount = 4 ∨ retryCount = 5 := by omega
  all_goals decide

theorem publishRetry_eq_ok {topology : Topology} (routes : Routes topology) {now : Int} {id : Uuid}
    {retryCount : Int} {b b' : Broker Bytes} (h : 0 < retryCount) (hmax : retryCount ≤ maxRetries)
    (hp : publishRetry topology codec now id (delayMs retryCount) b = .ok b') :
    ∃ payload, codec.fromSlice payload = .ok ⟨id, 1⟩ ∧
      b'.ready = (b.push ⟨b.nextTag, payload, retryQueue, some (now + delayMs retryCount)⟩
        retryQueue).ready := by
  obtain ⟨hpos, hexp⟩ := expiration_delayMs h hmax
  obtain ⟨payload, hbody, ⟨-, hready⟩ | ⟨hle, -⟩⟩ := publishTask_eq_ok routes hp
  · exact ⟨payload, hbody, by rw [hready, hexp]⟩
  · omega

structure RetryState (Bytes : Type) where
  now : Int
  broker : Broker Bytes

inductive RetryLabel where
  | publish (id : Uuid) (retryCount : Int)
  | tick (ms : Nat)
  | expire

namespace RetryState

def queue (s : RetryState Bytes) : List (Message Bytes) := s.broker.ready retryQueue

/-- Where the head has not expired, no task is past its expiry. -/
def OnTime (s : RetryState Bytes) : Prop :=
  (∀ m, s.queue.head? = some m → ¬ m.expired s.now) → ∀ m ∈ s.queue, ¬ m.expired s.now

end RetryState

def retrySystem : System (RetryState Bytes) RetryLabel where
  init s := s.queue = []
  step s
    | .publish id retryCount =>
      if 0 < retryCount ∧ retryCount ≤ maxRetries then
        match publishRetry declaredTopology codec s.now id (delayMs retryCount) s.broker with
        | .ok broker => some { s with broker }
        | .error _ => some s
      else none
    | .tick ms => some { s with now := s.now + ms }
    | .expire => (s.broker.expireHead declaredTopology retryQueue s.now).map fun broker =>
        { s with broker }

/-- A retry is published when the last one in the queue expires no later than it. -/
def InTurn (s : RetryState Bytes) : RetryLabel → Prop
  | .publish _ retryCount =>
    ∀ last, s.queue.getLast? = some last → ∀ e, last.expiry = some e →
      e ≤ s.now + delayMs retryCount
  | _ => True

variable {codec}

theorem retrySystem_step {s s' : RetryState Bytes} {l : RetryLabel}
    (h : (retrySystem codec).step s l = some s') :
    (∃ id retryCount, l = .publish id retryCount ∧ s'.now = s.now ∧ (s'.queue = s.queue ∨
      ∃ tag payload, s'.queue =
        s.queue ++ [⟨tag, payload, retryQueue, some (s.now + delayMs retryCount)⟩])) ∨
    (∃ ms, l = .tick ms ∧ s' = { s with now := s.now + ms }) ∨
    (l = .expire ∧ ∃ m, s.queue = m :: s'.queue ∧ m.expired s.now ∧ s'.now = s.now) := by
  cases l with
  | publish id retryCount =>
    left
    simp only [retrySystem] at h
    split at h
    · next hcount =>
      refine ⟨id, retryCount, rfl, ?_⟩
      split at h
      · next broker hp =>
        obtain ⟨payload, -, hready⟩ :=
          publishRetry_eq_ok codec routes_declaredTopology hcount.1 hcount.2 hp
        obtain rfl := Option.some.inj h
        refine ⟨rfl, .inr ⟨s.broker.nextTag, payload, ?_⟩⟩
        rw [RetryState.queue, hready, Broker.ready_push_self]
        rfl
      · obtain rfl := Option.some.inj h
        exact ⟨rfl, .inl rfl⟩
    · cases h
  | tick ms => exact .inr (.inl ⟨ms, rfl, (Option.some.inj h).symm⟩)
  | expire =>
    right; right
    obtain ⟨broker, hexp, rfl⟩ := Option.map_eq_some_iff.mp h
    obtain ⟨m, b₁, e, hd, he, hle, rfl⟩ := Broker.expireHead_eq_some.mp hexp
    obtain ⟨rest, hq, rfl⟩ := Broker.deliver_eq_some.mp hd
    refine ⟨rfl, m, ?_, ⟨e, he, hle⟩, rfl⟩
    rw [RetryState.queue, hq]
    have hmoved : retryQueue ∉ declaredTopology.deadLetterRoute retryQueue m.routingKey := by
      rw [routes_declaredTopology.expired]
      decide
    simp [RetryState.queue, Broker.deadLetter, Broker.ready_pushAll_of_notMem _ _ hmoved]

def RetryState.Ordered (s : RetryState Bytes) : Prop :=
  InExpiryOrder s.queue ∧ ∀ m ∈ s.queue, ∃ e, m.expiry = some e

theorem retry_ordered {s : RetryState Bytes} (h : (retrySystem codec).Reachable InTurn s) :
    s.Ordered := by
  refine h.invariant ?_ ?_
  · intro s hs
    rw [RetryState.Ordered, show s.queue = [] from hs]
    exact ⟨.nil, by simp⟩
  · rintro s l s' ⟨hord, hexp⟩ hturn hstep
    rcases retrySystem_step hstep with ⟨id, rc, rfl, -, hq | ⟨tag, payload, hq⟩⟩ | ⟨ms, -, rfl⟩ |
      ⟨-, m, hq, -, -⟩
    · rw [RetryState.Ordered, hq]
      exact ⟨hord, hexp⟩
    · rw [RetryState.Ordered, hq]
      refine ⟨hord.append ?_, ?_⟩
      · rintro last hlast e he
        obtain ⟨e', he'⟩ := hexp last (List.mem_of_getLast? hlast)
        refine ⟨e', he', ?_⟩
        rw [← Option.some.inj he]
        exact hturn last hlast e' he'
      · intro m hm
        rcases List.mem_append.mp hm with hm | hm
        · exact hexp m hm
        · exact ⟨_, by rw [List.mem_singleton.mp hm]⟩
    · exact ⟨hord, hexp⟩
    · rw [hq] at hord hexp
      exact ⟨hord.tail, fun m' hm' => hexp m' (by simp [hm'])⟩

/-- While every retry is published in turn, retries come back on time. -/
theorem retry_onTime (codec : TaskCodec Bytes) (s : RetryState Bytes)
    (h : (retrySystem codec).Reachable InTurn s) : s.OnTime :=
  (retry_ordered h).1.none_expired

def RetryState.start : RetryState NotificationTask := ⟨0, .empty⟩

theorem init_start : (retrySystem .plain).init .start := rfl

/-- A retry after 2 minutes, then another notification's after 4. -/
theorem retry_onTime_inTurn :
    ∃ s, (retrySystem .plain).Reachable InTurn s ∧ s.queue.length = 2 ∧ s.OnTime := by
  obtain ⟨s₁, h₁, hq₁, hn₁⟩ : ∃ s₁, (retrySystem .plain).step .start (.publish ⟨1⟩ 1) = some s₁ ∧
      s₁.queue = [⟨0, ⟨⟨1⟩, 1⟩, "noti.retry", some 120000⟩] ∧ s₁.now = 0 := ⟨_, rfl, rfl, rfl⟩
  obtain ⟨s₂, h₂, hq₂⟩ : ∃ s₂, (retrySystem .plain).step s₁ (.publish ⟨2⟩ 2) = some s₂ ∧
      s₂.queue.length = 2 := by
    cases h₁
    exact ⟨_, rfl, rfl⟩
  have reach₁ : (retrySystem .plain).Reachable InTurn s₁ := by
    refine (System.Reachable.start init_start).next ?_ h₁
    intro last hlast
    cases hlast
  have reach₂ : (retrySystem .plain).Reachable InTurn s₂ := by
    refine reach₁.next ?_ h₂
    intro last hlast e he
    rw [hq₁] at hlast
    cases hlast
    cases he
    rw [hn₁]
    decide
  exact ⟨s₂, reach₂, hq₂, retry_onTime .plain s₂ reach₂⟩

/-- A 2-minute retry behind a 32-minute one: after 2 minutes it is due, and the head
is not. -/
theorem retry_overdue : ∃ s, (retrySystem .plain).Reachable System.always s ∧ ¬ s.OnTime := by
  obtain ⟨s, hrun, hq, hnow⟩ : ∃ s, (retrySystem .plain).run .start
      [.publish ⟨1⟩ 5, .publish ⟨2⟩ 1, .tick 120000] = some s ∧
      s.queue = [⟨0, ⟨⟨1⟩, 1⟩, "noti.retry", some 1920000⟩,
        ⟨1, ⟨⟨2⟩, 1⟩, "noti.retry", some 120000⟩] ∧ s.now = 120000 := ⟨_, rfl, rfl, rfl⟩
  refine ⟨s, System.Reachable.run (.start init_start) hrun, fun honTime => ?_⟩
  refine honTime ?_ ⟨1, ⟨⟨2⟩, 1⟩, "noti.retry", some 120000⟩ (by simp [hq]) ⟨120000, rfl, by omega⟩
  rintro m hm ⟨e, he, hle⟩
  rw [hq] at hm
  cases hm
  cases he
  omega

section OutOfTurn

private theorem expire_head (codec : TaskCodec Bytes) {s : RetryState Bytes} {m : Message Bytes}
    {rest : List (Message Bytes)}
    (hq : s.queue = m :: rest) (hm : m.expired s.now) :
    ∃ s', (retrySystem codec).step s .expire = some s' ∧ s'.now = s.now ∧ s'.queue = rest := by
  obtain ⟨e, he, hle⟩ := hm
  have hexp : s.broker.expireHead declaredTopology retryQueue s.now = some _ :=
    Broker.expireHead_eq_some.mpr ⟨m, _, e, Broker.deliver_eq_some.mpr ⟨rest, hq, rfl⟩, he, hle,
      rfl⟩
  have hstep : (retrySystem codec).step s .expire = some _ := congrArg (Option.map _) hexp
  refine ⟨_, hstep, rfl, ?_⟩
  rcases retrySystem_step hstep with ⟨_, _, h, -⟩ | ⟨_, h, -⟩ | ⟨-, m', hq', -, -⟩
  · cases h
  · cases h
  · rw [hq] at hq'
    exact (List.cons.inj hq').2.symm

private theorem overdue_behind (q : List (Message Bytes)) (last m : Message Bytes)
    {s : RetryState Bytes} (h : (retrySystem codec).Reachable System.always s)
    (hq : s.queue = q ++ [last, m]) (hm : m.expired s.now) (hlast : ¬ last.expired s.now) :
    ∃ s', (retrySystem codec).Reachable System.always s' ∧ ¬ s'.OnTime := by
  induction q generalizing s with
  | nil =>
    refine ⟨s, h, fun honTime => honTime ?_ m (by simp [hq]) hm⟩
    intro a ha
    rw [hq] at ha
    cases ha
    exact hlast
  | cons a q ih =>
    by_cases ha : a.expired s.now
    · obtain ⟨s', hs', hnow, hq'⟩ := expire_head codec hq ha
      rw [← hnow] at hm hlast
      exact ih (h.next trivial hs') hq' hm hlast
    · refine ⟨s, h, fun honTime => honTime ?_ m (by simp [hq]) hm⟩
      intro a' ha'
      rw [hq] at ha'
      cases ha'
      exact ha

/-- Conversely, a retry published out of turn can be overdue: it is when its delay
has passed and everything ahead of the task it overtakes has left. -/
theorem retry_overdue_of_outOfTurn {s s' : RetryState Bytes} {id : Uuid} {retryCount : Int}
    (h : (retrySystem codec).Reachable System.always s)
    (hturn : ¬ InTurn s (.publish id retryCount))
    (hstep : (retrySystem codec).step s (.publish id retryCount) = some s')
    (hsent : s'.queue ≠ s.queue) :
    ∃ s'', (retrySystem codec).Reachable System.always s'' ∧ ¬ s''.OnTime := by
  rcases retrySystem_step hstep with ⟨_, _, heq, hnow, hq | ⟨tag, payload, hq⟩⟩ |
    ⟨_, heq, -⟩ | ⟨heq, -⟩
  · exact absurd hq hsent
  · cases heq
    simp only [InTurn, not_forall] at hturn
    obtain ⟨last, hlast, e, he, hlate⟩ := hturn
    have hne : s.queue ≠ [] := by
      intro hnil
      rw [hnil] at hlast
      cases hlast
    obtain rfl : last = s.queue.getLast hne := by
      rw [List.getLast?_eq_some_getLast hne] at hlast
      exact (Option.some.inj hlast).symm
    have hwait : (retrySystem codec).step s' (.tick (delayMs retryCount)) =
        some { s' with now := s'.now + delayMs retryCount } := rfl
    refine overdue_behind s.queue.dropLast (s.queue.getLast hne)
      ⟨tag, payload, retryQueue, some (s.now + delayMs retryCount)⟩
      ((h.next trivial hstep).next trivial hwait) ?_ ⟨_, rfl, ?_⟩ ?_
    · rw [List.append_cons, List.dropLast_append_getLast hne]
      exact hq
    · exact Int.le_of_eq (by rw [hnow])
    · rintro ⟨e', he', hle⟩
      rw [he] at he'
      obtain rfl := Option.some.inj he'
      rw [hnow] at hle
      exact hlate hle
  · cases heq
  · cases heq

end OutOfTurn

end NotiService
