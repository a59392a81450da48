import NotiService.Domain
import NotiService.Foundation.Transition

/-! The access-token cache of `FcmProvider`: one call after the other under its lock, at
nanoseconds of `Instant`. A cached token is given out until its refresh time, which is a minute
before its expiry, and at least a second after it was minted. -/

namespace NotiService
open Foundation

namespace AccessToken

def second : Nat := 1000000000

def refreshSkewSecs : Nat := 60

structure CachedToken where
  value : String
  refreshAt : Nat
deriving DecidableEq, Repr

/-- An exchange with the token endpoint: the time it takes, and the token with `expires_in`. -/
structure Mint where
  elapsed : Nat
  answer : Except NotiError (String × Nat)

/-- What `access_token` returns, told apart by where it came from. Adding to an `Instant`
panics beyond the last one that can be represented. -/
inductive Outcome where
  | cached (token : String)
  | minted (token : String) (expiresIn : Nat)
  | failed (e : NotiError)
  | panicked
deriving DecidableEq, Repr

/-- `expires_in.saturating_sub(TOKEN_REFRESH_SKEW_SECS).max(1)` -/
def lifetimeSecs (expiresIn : Nat) : Nat := max (expiresIn - refreshSkewSecs) 1

/-- `last` is the last instant; the clock is read as the mint completes. -/
def accessToken (last : Nat) (cache : Option CachedToken) (now : Nat) (mint : Mint) :
    Outcome × Option CachedToken :=
  match cache.filter fun cached => now < cached.refreshAt with
  | some cached => (.cached cached.value, cache)
  | none =>
    match mint.answer with
    | .error e => (.failed e, cache)
    | .ok (token, expiresIn) =>
      let refreshAt := now + mint.elapsed + lifetimeSecs expiresIn * second
      if refreshAt ≤ last then (.minted token expiresIn, some ⟨token, refreshAt⟩)
      else (.panicked, cache)

structure Minted where
  completed : Nat
  token : String
  expiresIn : Nat

/-- `minted` is the mint of the cached token. A panic aborts the process. -/
structure State where
  now : Nat
  cache : Option CachedToken
  minted : Option Minted
  aborted : Bool

structure Call where
  wait : Nat
  mint : Mint

namespace State

def start (s : State) (c : Call) : Nat := s.now + c.wait

def outcome (last : Nat) (s : State) (c : Call) : Outcome :=
  (accessToken last s.cache (s.start c) c.mint).1

def cacheAfter (last : Nat) (s : State) (c : Call) : Option CachedToken :=
  (accessToken last s.cache (s.start c) c.mint).2

def Stale (s : State) (c : Call) : Prop :=
  ∀ cached, s.cache = some cached → cached.refreshAt ≤ s.start c

end State

/-- A call that does not mint takes no time. -/
def tokenSystem (last : Nat) : System State Call where
  init s := s.cache = none ∧ s.minted = none ∧ s.aborted = false
  step s c :=
    if s.aborted then none
    else
      let after := { s with now := s.start c + c.mint.elapsed, cache := s.cacheAfter last c }
      match s.outcome last c with
      | .cached _ => some { after with now := s.start c }
      | .minted token expiresIn => some { after with
          minted := some ⟨s.start c + c.mint.elapsed, token, expiresIn⟩ }
      | .failed _ => some after
      | .panicked => some { after with aborted := true }

/-- What a mint may answer in a call that makes one: a lifetime that is not zero, and no refresh
time beyond the last instant. -/
def Admits (last : Nat) (s : State) (c : Call) : Prop :=
  s.Stale c → ∀ token expiresIn, c.mint.answer = .ok (token, expiresIn) → 0 < expiresIn ∧
    s.start c + c.mint.elapsed + lifetimeSecs expiresIn * second ≤ last

structure Guarantees (last : Nat) (s : State) (c : Call) : Prop where
  alive : s.outcome last c ≠ .panicked
  unexpired : ∀ token, s.outcome last c = .cached token → ∃ m, s.minted = some m ∧
    token = m.token ∧ s.start c < m.completed + m.expiresIn * second
  refreshes : s.Stale c → ∀ token, s.outcome last c ≠ .cached token
  keeps : ∀ cached, s.cache = some cached → s.start c < cached.refreshAt →
    s.outcome last c = .cached cached.value
  failure : ∀ e, c.mint.answer = .error e → s.cacheAfter last c = s.cache

variable {last now : Nat} {cache : Option CachedToken} {mint : Mint} {s s' : State} {c : Call}

theorem accessToken_fresh (last : Nat) (mint : Mint) {cached : CachedToken}
    (h : cache = some cached)
    (hnow : now < cached.refreshAt) :
    accessToken last cache now mint = (.cached cached.value, cache) := by
  have hfilter : cache.filter (fun cached => decide (now < cached.refreshAt)) = some cached := by
    rw [h]
    exact if_pos (decide_eq_true hnow)
  rw [accessToken, hfilter]

theorem accessToken_stale (last : Nat) (mint : Mint) (h : ∀ cached, cache = some cached →
    cached.refreshAt ≤ now) :
    (∃ e, mint.answer = .error e ∧ accessToken last cache now mint = (.failed e, cache)) ∨
    ∃ token expiresIn, mint.answer = .ok (token, expiresIn) ∧
      ((now + mint.elapsed + lifetimeSecs expiresIn * second ≤ last ∧
        accessToken last cache now mint = (.minted token expiresIn,
          some ⟨token, now + mint.elapsed + lifetimeSecs expiresIn * second⟩)) ∨
      (last < now + mint.elapsed + lifetimeSecs expiresIn * second ∧
        accessToken last cache now mint = (.panicked, cache))) := by
  have hfilter : cache.filter (fun cached => decide (now < cached.refreshAt)) = none := by
    cases cache with
    | none => rfl
    | some cached => exact if_neg (by simpa using h cached rfl)
  rw [accessToken, hfilter]
  dsimp only
  cases mint.answer with
  | error e => exact .inl ⟨e, rfl, rfl⟩
  | ok result =>
    obtain ⟨token, expiresIn⟩ := result
    refine .inr ⟨token, expiresIn, rfl, ?_⟩
    dsimp only
    split
    · next hle => exact .inl ⟨hle, rfl⟩
    · next hlt => exact .inr ⟨Nat.not_le.mp hlt, rfl⟩

theorem State.fresh_or_stale (s : State) (c : Call) :
    (∃ cached, s.cache = some cached ∧ s.start c < cached.refreshAt) ∨ s.Stale c := by
  by_cases h : ∃ cached, s.cache = some cached ∧ s.start c < cached.refreshAt
  · exact .inl h
  · exact .inr fun cached hcached => Nat.not_lt.mp fun hlt => h ⟨cached, hcached, hlt⟩

theorem lifetimeSecs_le {expiresIn : Nat} (h : 0 < expiresIn) :
    lifetimeSecs expiresIn ≤ expiresIn := by
  unfold lifetimeSecs
  omega

/-- The cached token is that of the last mint, with the refresh time that follows from it. -/
structure Inv (s : State) : Prop where
  alive : s.aborted = false
  cached : ∀ cached, s.cache = some cached → ∃ m, s.minted = some m ∧
    cached.value = m.token ∧ 0 < m.expiresIn ∧
    cached.refreshAt = m.completed + lifetimeSecs m.expiresIn * second

theorem Inv.step (h : Inv s) (hadmits : Admits last s c)
    (hs : (tokenSystem last).step s c = some s') : Inv s' := by
  simp only [tokenSystem, h.alive, Bool.false_eq_true, if_false] at hs
  rcases s.fresh_or_stale c with ⟨cached, hcached, hnow⟩ | hstale
  · have hcall := accessToken_fresh last c.mint hcached hnow
    rw [State.outcome, State.cacheAfter, hcall] at hs
    obtain rfl := Option.some.inj hs
    exact ⟨rfl, h.cached⟩
  · rcases accessToken_stale last c.mint hstale with
      ⟨e, -, hcall⟩ | ⟨token, expiresIn, hmint, hfits⟩
    · rw [State.outcome, State.cacheAfter, hcall] at hs
      obtain rfl := Option.some.inj hs
      exact ⟨rfl, h.cached⟩
    · obtain ⟨hpos, hle⟩ := hadmits hstale token expiresIn hmint
      rcases hfits with ⟨-, hcall⟩ | ⟨hlt, -⟩
      · rw [State.outcome, State.cacheAfter, hcall] at hs
        obtain rfl := Option.some.inj hs
        refine ⟨rfl, fun cached hcached => ?_⟩
        obtain rfl := Option.some.inj hcached
        exact ⟨_, rfl, rfl, hpos, rfl⟩
      · exact absurd hle (Nat.not_le.mpr hlt)

theorem Inv.guarantees (h : Inv s) (hadmits : Admits last s c) : Guarantees last s c := by
  rcases s.fresh_or_stale c with ⟨cached, hcached, hnow⟩ | hstale
  · have hcall := accessToken_fresh last c.mint hcached hnow
    have houtcome : s.outcome last c = .cached cached.value := congrArg Prod.fst hcall
    have hcache : s.cacheAfter last c = s.cache := congrArg Prod.snd hcall
    refine ⟨by simp [houtcome], fun token htoken => ?_, fun hstale => ?_, fun cached' h' _ => ?_,
      fun _ _ => hcache⟩
    · obtain ⟨m, hm, hvalue, hpos, hrefresh⟩ := h.cached cached hcached
      refine ⟨m, hm, ?_, ?_⟩
      · rw [houtcome] at htoken
        exact (Outcome.cached.inj htoken).symm.trans hvalue
      · have hlife := Nat.mul_le_mul_right second (lifetimeSecs_le hpos)
        omega
    · exact absurd (hstale cached hcached) (Nat.not_le.mpr hnow)
    · obtain rfl := Option.some.inj (hcached.symm.trans h')
      exact houtcome
  · have hkeeps : ∀ cached, s.cache = some cached → s.start c < cached.refreshAt →
        s.outcome last c = .cached cached.value := fun cached hcached hnow =>
      absurd (hstale cached hcached) (Nat.not_le.mpr hnow)
    rcases accessToken_stale last c.mint hstale with
      ⟨e, -, hcall⟩ | ⟨token, expiresIn, hmint, hfits⟩
    · have houtcome : s.outcome last c = .failed e := congrArg Prod.fst hcall
      exact ⟨by simp [houtcome], by simp [houtcome], by simp [houtcome], hkeeps,
        fun _ _ => congrArg Prod.snd hcall⟩
    · rcases hfits with ⟨-, hcall⟩ | ⟨hlt, -⟩
      · have houtcome : s.outcome last c = .minted token expiresIn := congrArg Prod.fst hcall
        exact ⟨by simp [houtcome], by simp [houtcome], by simp [houtcome], hkeeps,
          fun e he => nomatch he.symm.trans hmint⟩
      · exact absurd (hadmits hstale token expiresIn hmint).2 (Nat.not_le.mpr hlt)

theorem not_guarantees_of_panic (h : s.outcome last c = .panicked) : ¬ Guarantees last s c :=
  fun hg => hg.alive h

theorem not_guarantees_of_zero {token : String} {completed : Nat} (hnow : s.now = completed)
    (hcache : s.cache = some ⟨token, completed + second⟩)
    (hminted : s.minted = some ⟨completed, token, 0⟩) (mint : Mint) :
    ¬ Guarantees last s ⟨0, mint⟩ := by
  intro hg
  have hlt : s.start ⟨0, mint⟩ < completed + second := by
    simp [State.start, hnow, second]
  obtain ⟨m, hm, -, hexpiry⟩ := hg.unexpired token (hg.keeps _ hcache hlt)
  obtain rfl := Option.some.inj (hminted.symm.trans hm)
  simp [State.start, hnow] at hexpiry

theorem breaks_of_not_admits (halive : s.aborted = false) (h : ¬ Admits last s c) :
    ¬ Guarantees last s c ∨ ∃ s', (tokenSystem last).step s c = some s' ∧
      ∃ c', ¬ Guarantees last s' c' := by
  simp only [Admits, Classical.not_forall] at h
  obtain ⟨hstale, token, expiresIn, hmint, hbad⟩ := h
  rcases accessToken_stale last c.mint hstale with ⟨e, he, -⟩ | ⟨token', expiresIn', hmint', hfits⟩
  · cases he.symm.trans hmint
  · cases hmint.symm.trans hmint'
    rcases hfits with ⟨hle, hcall⟩ | ⟨-, hcall⟩
    · obtain rfl : expiresIn = 0 := by
        by_contra hne
        exact hbad ⟨Nat.pos_of_ne_zero hne, hle⟩
      refine .inr ⟨_, by
        simp only [tokenSystem, halive, Bool.false_eq_true, if_false, State.outcome,
          State.cacheAfter, hcall]; rfl, ⟨0, c.mint⟩, ?_⟩
      exact not_guarantees_of_zero rfl rfl rfl c.mint
    · exact .inl (not_guarantees_of_panic (congrArg Prod.fst hcall))

/-- In every run of admitted calls an admitted call keeps what is promised. A call that is not
admitted breaks it, or lets the next call break it. -/
theorem access_token_guarantees (last : Nat) :
    (∀ s, (tokenSystem last).Reachable (Admits last) s → ∀ c, Admits last s c →
      Guarantees last s c) ∧
    ∀ s, (tokenSystem last).Reachable (Admits last) s → ∀ c, ¬ Admits last s c →
      ¬ Guarantees last s c ∨ ∃ s', (tokenSystem last).step s c = some s' ∧
        ∃ c', ¬ Guarantees last s' c' := by
  have hinv : ∀ s, (tokenSystem last).Reachable (Admits last) s → Inv s := by
    intro s hs
    refine hs.invariant ?_ fun s c s' h hok hstep => h.step hok hstep
    rintro s ⟨hcache, -, halive⟩
    exact ⟨halive, fun cached hcached => nomatch hcache.symm.trans hcached⟩
  exact ⟨fun s hs c hadmits => (hinv s hs).guarantees hadmits,
    fun s hs c hnot => breaks_of_not_admits (hinv s hs).alive hnot⟩

/-- The last instant of a 64-bit `timespec`. -/
def lastInstant : Nat := 2 ^ 63 * second - 1

/-- A token that lives an hour is minted, and given out again half an hour later. -/
theorem access_token_guarantees_hour : ∃ s, (tokenSystem lastInstant).step ⟨0, none, none, false⟩
      ⟨0, 5, .ok ("t", 3600)⟩ = some s ∧
    Guarantees lastInstant ⟨0, none, none, false⟩ ⟨0, 5, .ok ("t", 3600)⟩ ∧
    Guarantees lastInstant s ⟨1800 * second, 0, .error (.internal "unreachable")⟩ ∧
    s.outcome lastInstant ⟨1800 * second, 0, .error (.internal "unreachable")⟩ = .cached "t" := by
  have hstart : (tokenSystem lastInstant).Reachable (Admits lastInstant) ⟨0, none, none, false⟩ :=
    .start ⟨rfl, rfl, rfl⟩
  have hmint : Admits lastInstant ⟨0, none, none, false⟩ ⟨0, 5, .ok ("t", 3600)⟩ := by
    intro _ token expiresIn heq
    cases heq
    decide
  have hcached : Admits lastInstant ⟨5, some ⟨"t", 5 + 3540 * second⟩, some ⟨5, "t", 3600⟩, false⟩
      ⟨1800 * second, 0, .error (.internal "unreachable")⟩ := by
    intro _ token expiresIn heq
    cases heq
  have guarantees := (access_token_guarantees lastInstant).1
  exact ⟨_, rfl, guarantees _ hstart _ hmint,
    guarantees _ (hstart.next hmint rfl) _ hcached, by decide⟩

/-- A token without a lifetime is given out after it has expired, and one that lives for ever
panics. -/
theorem access_token_breaks : (¬ ∀ s, (tokenSystem lastInstant).Reachable System.always s →
    ∀ c, (∀ token expiresIn, c.mint.answer = .ok (token, expiresIn) → expiresIn < 2 ^ 64) →
      Guarantees lastInstant s c) ∧
    State.outcome lastInstant ⟨0, none, none, false⟩ ⟨0, 0, .ok ("t", 2 ^ 64 - 1)⟩ = .panicked := by
  constructor
  · intro h
    have hstart : (tokenSystem lastInstant).Reachable System.always ⟨0, none, none, false⟩ :=
      .start ⟨rfl, rfl, rfl⟩
    have hnext := hstart.next (l := ⟨0, 0, .ok ("t", 0)⟩) trivial rfl
    exact not_guarantees_of_zero rfl rfl rfl _ (h _ hnext ⟨0, 0, .ok ("t", 0)⟩ (by simp))
  · decide

end AccessToken

end NotiService
