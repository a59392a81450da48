import NotiService.DispatchSteps
import NotiService.Foundation.Amqp

/-! The delay of a retry on its way to the broker: `u32` milliseconds, whole minutes in an
`i32`, and milliseconds in an `i32` again, as the decimal `expiration` of the message. -/

namespace NotiService
open Foundation Orchestrator Amqp RabbitMQ

variable {Bytes : Type} {codec : TaskCodec Bytes}

def InI32 (x : Int) : Prop := -2 ^ 31 ≤ x ∧ x < 2 ^ 31

/-- `delay_mins`, and the two products of `expiration`. -/
def intermediates (delayMs : Nat) : List Int :=
  let delayMins : Int := (delayMs / 60000 : Nat)
  [delayMins, delayMins * 60, delayMins * 60 * 1000]

/-- Nothing overflows, one task is published, and it waits as long as its delay, to the
minute. -/
structure SoundDelay (codec : TaskCodec Bytes) (delayMs : Nat) : Prop where
  fits : ∀ x ∈ intermediates delayMs, InI32 x
  published : ∀ now id b, ∃ b' m queue,
    publishRetry declaredTopology codec now id delayMs b = .ok b' ∧
      b'.ready = (b.push m queue).ready ∧ codec.fromSlice m.body = .ok ⟨id, 1⟩ ∧
      (0 < delayMs → queue ≠ dispatchQueue) ∧
      ∀ e, m.expiry = some e → 0 ≤ e - now ∧ e - now ≤ delayMs ∧ delayMs - 60000 < e - now

/-- The delay that a request is given: until `next_retry_at`, on the broker, or asleep. -/
def Op.delay (now : Int) {α : Type} : Op α → Option Int
  | .incrementRetry _ nextRetryAt => some (nextRetryAt - now)
  | .publishRetry _ delayMs => some delayMs
  | .spawnInProcessRetry _ delayMs => some delayMs
  | _ => none

/-- Whatever is answered, every delay that the program asks for is `delay`. -/
def Requests (now delay : Int) (p : Program Op (Except NotiError Unit)) : Prop :=
  ∀ seen r, Program.Path (Op.delay now) p seen r → ∀ ms ∈ seen, ms = delay

/-- After the refused attempt of a row every request is given one delay, and the broker is told
it. -/
structure DelaysAgree (codec : TaskCodec Bytes) (n : Notification) : Prop where
  requested : ∀ mq id e now,
    Requests now (delayMs (n.retryCount + 1)) ((DispatchPc.bump n e now).prog mq id)
  published : ∀ now id b, ∃ b' m,
    publishRetry declaredTopology codec now id (delayMs (n.retryCount + 1)) b = .ok b' ∧
      b'.ready = (b.push m retryQueue).ready ∧
      m.expiry = some (now + delayMs (n.retryCount + 1))

theorem expiration_of_fits {delayMins : Int} (h : InI32 (delayMins * 60 * 1000)) :
    expiration delayMins = delayMins * 60 * 1000 := by
  unfold InI32 at h
  exact Int.bmod_eq_of_le (by omega) (by omega)

theorem fits_iff {delayMs : Nat} :
    (∀ x ∈ intermediates delayMs, InI32 x) ↔ delayMs < 2147520000 := by
  simp only [intermediates, List.forall_mem_cons, InI32]
  constructor
  · rintro ⟨-, -, ⟨-, h⟩, -⟩
    omega
  · intro h
    refine ⟨⟨?_, ?_⟩, ⟨?_, ?_⟩, ⟨?_, ?_⟩, by simp⟩ <;> omega

theorem publishRetry_ok (hencodes : ∀ task, ∃ bytes, codec.toVec task = .ok bytes) (now : Int)
    (id : Uuid) (delayMs : Nat) (b : Broker Bytes) :
    ∃ b' m queue, publishRetry declaredTopology codec now id delayMs b = .ok b' ∧
      b'.ready = (b.push m queue).ready ∧ codec.fromSlice m.body = .ok ⟨id, 1⟩ ∧
      if 60000 ≤ delayMs then
        queue = retryQueue ∧ m.expiry = some (now + expiration (delayMs / 60000 : Nat))
      else queue = dispatchQueue ∧ m.expiry = none := by
  obtain ⟨payload, hvec⟩ := hencodes ⟨id, 1⟩
  obtain ⟨b', hb'⟩ : ∃ b', publishRetry declaredTopology codec now id delayMs b = .ok b' := by
    unfold publishRetry publishTask
    rw [hvec]
    dsimp only
    split <;> exact ⟨_, rfl⟩
  obtain ⟨body, hbody, ⟨hdelay, hready⟩ | ⟨hdelay, hready⟩⟩ :=
    publishTask_eq_ok routes_declaredTopology hb'
  · refine ⟨b', _, _, hb', hready, hbody, ?_⟩
    rw [if_pos (by omega)]
    exact ⟨rfl, rfl⟩
  · refine ⟨b', _, _, hb', hready, hbody, ?_⟩
    rw [if_neg (by omega)]
    exact ⟨rfl, rfl⟩

theorem push_inj {b : Broker Bytes} {m m' : Message Bytes} {queue queue' : String}
    (h : (b.push m queue).ready = (b.push m' queue').ready) : queue = queue' ∧ m = m' := by
  have hqueue : queue = queue' := by
    by_contra hne
    have hlen := congrArg List.length (congrFun h queue)
    simp [Broker.push, hne] at hlen
  subst hqueue
  have hlast := congrFun h queue
  simp only [Broker.push, Function.update_self] at hlast
  exact ⟨rfl, (List.cons.inj (List.append_cancel_left hlast)).1⟩

theorem soundDelay_iff (hencodes : ∀ task, ∃ bytes, codec.toVec task = .ok bytes)
    {delayMs : Nat} : SoundDelay codec delayMs ↔
      delayMs = 0 ∨ (60000 ≤ delayMs ∧ delayMs < 2147520000) := by
  constructor
  · intro h
    have hfits := fits_iff.mp h.fits
    by_contra hnot
    obtain ⟨b', m, queue, hb', hready, -, hqueue, -⟩ := h.published 0 ⟨0⟩ ⟨fun _ => [], 0⟩
    obtain ⟨b'', m', queue', hb'', hready', -, hroute⟩ :=
      publishRetry_ok hencodes 0 ⟨0⟩ delayMs ⟨fun _ => [], 0⟩
    obtain rfl : b' = b'' := Except.ok.inj (hb'.symm.trans hb'')
    obtain ⟨rfl, rfl⟩ := push_inj (hready.symm.trans hready')
    rw [if_neg (by omega)] at hroute
    exact hqueue (by omega) hroute.1
  · intro h
    have hfits : ∀ x ∈ intermediates delayMs, InI32 x := fits_iff.mpr (by omega)
    refine ⟨hfits, fun now id b => ?_⟩
    obtain ⟨b', m, queue, hb', hready, hbody, hroute⟩ := publishRetry_ok hencodes now id delayMs b
    refine ⟨b', m, queue, hb', hready, hbody, fun hpos => ?_, fun e he => ?_⟩
    · rw [if_pos (by omega)] at hroute
      rw [hroute.1]
      decide
    · split at hroute
      · have hproduct := hfits _ (.tail _ (.tail _ (.head _)))
        rw [hroute.2, expiration_of_fits hproduct] at he
        obtain rfl := Option.some.inj he
        omega
      · rw [hroute.2] at he
        cases he

theorem le_delayMs (retryCount : Int) : 60000 ≤ delayMs retryCount := by
  have hpow : 1 ≤ 2 ^ retryCount.natAbs := Nat.one_le_two_pow
  unfold delayMs
  omega

theorem delayMs_lt_iff {retryCount : Int} :
    delayMs retryCount < 2147520000 ↔ retryCount.natAbs ≤ 15 := by
  unfold delayMs
  constructor
  · intro h
    by_contra hlarge
    have hpow : 2 ^ 16 ≤ 2 ^ retryCount.natAbs := Nat.pow_le_pow_right Nat.two_pos (by omega)
    omega
  · intro h
    have hpow : 2 ^ retryCount.natAbs ≤ 2 ^ 15 := Nat.pow_le_pow_right Nat.two_pos h
    omega

section Requested

variable {now delay : Int} {mq : Bool} {id : Uuid} {n : Notification} {e : NotiError}

theorem Requests.done (result : Except NotiError Unit) : Requests now delay (.done result) := by
  intro seen r h
  rw [(Program.path_done h).1]
  exact nofun

theorem Requests.call {β : Type} {op : Op β} {rest : β → Program Op (Except NotiError Unit)}
    (hop : ∀ ms, op.delay now = some ms → ms = delay)
    (hrest : ∀ answer, Requests now delay (rest answer)) :
    Requests now delay (.call op rest) := by
  intro seen r h ms hms
  rcases Program.path_call h with ⟨rfl, -⟩ | ⟨answer, seen, hpath, rfl⟩
  · cases hms
  · rcases List.mem_append.mp hms with hms | hms
    · exact hop ms (Option.mem_toList.mp hms)
    · exact hrest answer seen r hpath ms hms

theorem requests_retryVia (ms : Nat) :
    Requests now ms ((DispatchPc.retryVia mq ms).prog mq id) := by
  have hfallback : Requests now ms ((DispatchPc.fallback ms).prog mq id) := by
    rw [DispatchPc.prog_fallback]
    exact .call (fun _ h => (Option.some.inj h).symm) fun _ => .done _
  cases mq with
  | false => exact hfallback
  | true =>
    rw [DispatchPc.retryVia, if_pos rfl, DispatchPc.prog_schedule]
    refine .call (fun _ h => (Option.some.inj h).symm) fun answer => ?_
    cases answer with
    | error e => exact hfallback
    | ok => exact .done _

theorem requests_bump : Requests now (delayMs (n.retryCount + 1))
    ((DispatchPc.bump n e now).prog mq id) := by
  rw [DispatchPc.prog_bump]
  refine .call (fun ms h => ?_) fun answer => ?_
  · obtain rfl := Option.some.inj h
    omega
  · cases answer with
    | error e => exact .done _
    | ok =>
      rw [DispatchPc.orError, DispatchPc.prog_repend]
      refine .call (fun _ h => nomatch h) fun answer => ?_
      cases answer with
      | error e => exact .done _
      | ok => exact requests_retryVia _

end Requested

/-- The delays after a refused attempt agree exactly for a retry count from -16 on. -/
theorem delaysAgree_iff (hencodes : ∀ task, ∃ bytes, codec.toVec task = .ok bytes)
    {n : Notification} (hn : n.retryCount < maxRetries) :
    DelaysAgree codec n ↔ -16 ≤ n.retryCount := by
  have hmax : n.retryCount < 5 := hn
  have hsmall : -16 ≤ n.retryCount ↔ delayMs (n.retryCount + 1) < 2147520000 := by
    rw [delayMs_lt_iff]
    omega
  have hminute := le_delayMs (n.retryCount + 1)
  rw [hsmall]
  constructor
  · intro h
    by_contra hlarge
    obtain ⟨b', m, hb', hready, hexpiry⟩ := h.published 0 ⟨0⟩ ⟨fun _ => [], 0⟩
    obtain ⟨b'', m', queue', hb'', hready', -, hroute⟩ :=
      publishRetry_ok hencodes 0 ⟨0⟩ (delayMs (n.retryCount + 1)) ⟨fun _ => [], 0⟩
    obtain rfl : b' = b'' := Except.ok.inj (hb'.symm.trans hb'')
    obtain ⟨-, rfl⟩ := push_inj (hready.symm.trans hready')
    rw [if_pos hminute, hexpiry] at hroute
    have hwraps := Int.bmod_lt (x := ((delayMs (n.retryCount + 1) / 60000 : Nat) : Int) * 60 * 1000)
      (m := 2 ^ 32) (by decide)
    have heq := Option.some.inj hroute.2
    unfold expiration at heq
    omega
  · intro hfits
    refine ⟨fun _ _ _ _ => requests_bump, fun now id b => ?_⟩
    obtain ⟨b', m, queue, hb', hready, -, hroute⟩ :=
      publishRetry_ok hencodes now id (delayMs (n.retryCount + 1)) b
    rw [if_pos hminute] at hroute
    obtain ⟨rfl, hexpiry⟩ := hroute
    refine ⟨b', m, hb', hready, ?_⟩
    have hproduct := fits_iff.mpr hfits _ (.tail _ (.tail _ (.head _)))
    have hwhole : 60000 ∣ delayMs (n.retryCount + 1) :=
      ⟨min (2 ^ (n.retryCount + 1).natAbs) 65535, by unfold delayMs; omega⟩
    have hexact : ((delayMs (n.retryCount + 1) / 60000 : Nat) : Int) * 60 * 1000 =
        delayMs (n.retryCount + 1) := by omega
    rw [hexpiry, expiration_of_fits hproduct, hexact]

/-- The arithmetic of `publish_retry` is right exactly for a delay of 0 and for those from a
minute up to what an `i32` of milliseconds holds; the delays of `dispatch` agree exactly for a
retry count from -16 on. -/
theorem publish_retry_delay_iff (hencodes : ∀ task, ∃ bytes, codec.toVec task = .ok bytes) :
    (∀ delayMs, SoundDelay codec delayMs ↔
      delayMs = 0 ∨ (60000 ≤ delayMs ∧ delayMs < 2147520000)) ∧
    ∀ n : Notification, n.retryCount < maxRetries →
      (DelaysAgree codec n ↔ -16 ≤ n.retryCount) :=
  ⟨fun _ => soundDelay_iff hencodes, fun _ hn => delaysAgree_iff hencodes hn⟩

theorem publish_retry_delay_plain :
    (∀ delayMs, SoundDelay .plain delayMs ↔
      delayMs = 0 ∨ (60000 ≤ delayMs ∧ delayMs < 2147520000)) ∧
    ∀ n : Notification, n.retryCount < maxRetries →
      (DelaysAgree .plain n ↔ -16 ≤ n.retryCount) :=
  publish_retry_delay_iff fun task => ⟨task, rfl⟩

/-- A delay of one millisecond goes to the dispatch queue. -/
theorem publish_retry_immediate : ¬ ∀ delayMs : Nat, delayMs < 2 ^ 32 →
    SoundDelay .plain delayMs := by
  intro h
  exact absurd ((soundDelay_iff fun task => ⟨task, rfl⟩).mp (h 1 (by decide))) (by decide)

end NotiService
