import NotiService.RowHistory

/-! The attempts to deliver one notification, while the repository works. `Verdict` is the
retry policy: the traces that attempts leave, with the status each gives the row and the
number of sends that have failed. A row that no dispatch works on stands as its verdict
says, whatever sweeps and read marks come between. -/

namespace NotiService
open Foundation Orchestrator NotificationTable Overlap

variable {Bytes : Type}

/-- `2 ^ i` minutes. -/
def backoff (i : Nat) : Nat := 2 ^ i * 60000

/-- A retry is handed to the queue, or to a task where there is no queue or it fails. -/
inductive Handed (ms : Nat) : List Event → Prop where
  | published : Handed ms [.publishRetry ms]
  | fallback : Handed ms [.publishRetry ms, .inProcessRetry ms]
  | inProcess : Handed ms [.inProcessRetry ms]

/-- `Verdict trace status failures` -/
inductive Verdict : List Event → NotificationStatus → Nat → Prop where
  | queued : Verdict [] .pending 0
  | accepted {trace status i} : Verdict trace status i → status.live →
      Verdict (trace ++ [.accepted]) .sent i
  | failed {trace status i handed} (t : Int) : Verdict trace status i → status.live → i < 5 →
      Handed (backoff (i + 1)) handed →
      Verdict (trace ++ ([.failed, .clock t, .retryAt (t + backoff (i + 1))] ++ handed)) .pending
        (i + 1)
  | exhausted {trace status} : Verdict trace status 5 → status.live →
      Verdict (trace ++ [.failed]) .permanentFailure 6
  | unrendered {trace status i} : Verdict trace status i → status.live →
      Verdict (trace ++ [.unrendered]) .permanentFailure i
  -- the row is left in `Processing`, and only a sweep makes it `Pending` again
  | unencoded {trace status i} : Verdict trace status i → status.live →
      Verdict (trace ++ [.unencoded]) .processing i
  | reset {trace i} : Verdict trace .processing i → Verdict trace .pending i

def Event.isSend (e : Event) : Bool := e = .accepted ∨ e = .failed

def sends (trace : List Event) : Nat := trace.countP Event.isSend

def failures (trace : List Event) : Nat := trace.count .failed

namespace Handed

variable {ms : Nat} {trace : List Event}

theorem sends_eq (h : Handed ms trace) : sends trace = 0 := by
  cases h <;> rfl

theorem failures_eq (h : Handed ms trace) : failures trace = 0 := by
  cases h <;> simp [failures]

end Handed

theorem sends_append (trace trace' : List Event) :
    sends (trace ++ trace') = sends trace + sends trace' := List.countP_append

theorem failures_append (trace trace' : List Event) :
    failures (trace ++ trace') = failures trace + failures trace' := List.count_append

namespace Verdict

variable {trace : List Event} {status : NotificationStatus} {i : Nat}

theorem sends_of_live (h : Verdict trace status i) (hlive : status.live) :
    i ≤ 5 ∧ sends trace = i := by
  induction h with
  | queued => exact ⟨by omega, rfl⟩
  | failed t _ hl hi hh ih =>
    obtain ⟨-, hsends⟩ := ih hl
    refine ⟨by omega, ?_⟩
    rw [sends_append, sends_append, hh.sends_eq, hsends]
    rfl
  | unencoded _ hl ih =>
    obtain ⟨hi, hsends⟩ := ih hl
    refine ⟨hi, ?_⟩
    rw [sends_append, hsends]
    rfl
  | reset _ ih => exact ih rfl
  | accepted | exhausted | unrendered => cases hlive

theorem sends_le (h : Verdict trace status i) : sends trace ≤ 6 := by
  have extend : ∀ {trace' st j} (last : List Event), Verdict trace' st j → st.live →
      sends last ≤ 1 → sends (trace' ++ last) ≤ 6 := by
    intro trace' st j last hv hl hlast
    obtain ⟨hj, hsends⟩ := hv.sends_of_live hl
    rw [sends_append]
    omega
  cases h with
  | accepted hv hl | exhausted hv hl | unrendered hv hl => exact extend _ hv hl (by decide)
  | queued => exact Nat.zero_le _
  | failed t hv hl hi hh =>
    have hs := (Verdict.failed t hv hl hi hh).sends_of_live rfl
    omega
  | unencoded hv hl =>
    have hs := hv.unencoded hl |>.sends_of_live rfl
    omega
  | reset hv =>
    have hs := hv.sends_of_live rfl
    omega

theorem failures_eq (h : Verdict trace status i) : failures trace = i := by
  induction h with
  | queued => rfl
  | failed t _ _ _ hh ih =>
    rw [failures_append, failures_append, hh.failures_eq, ih]
    rfl
  | reset _ ih => exact ih
  | accepted _ _ ih | exhausted _ _ ih | unrendered _ _ ih | unencoded _ _ ih =>
    rw [failures_append, ih]
    rfl

end Verdict

theorem delayMs_eq {i : Nat} (h : i < 5) : delayMs ((i : Int) + 1) = backoff (i + 1) := by
  have hpow : 2 ^ (i + 1) ≤ 2 ^ 5 := Nat.pow_le_pow_right (by decide) h
  have habs : ((i : Int) + 1).natAbs = i + 1 := by omega
  rw [delayMs, backoff, habs, Nat.min_eq_left (by omega), Nat.mul_assoc]

/-- What the attempt in progress has added to the trace, and what its row holds: `i` sends
have failed before it. -/
def DispatchPc.Stands (i : Nat) (n : Notification) (added : List Event) : DispatchPc → Prop
  | .mark n₀ | .render n₀ | .encode n₀ _ | .send n₀ _ =>
    added = [] ∧ n₀.retryCount = i ∧ n.retryCount = i
  | .giveUp _ => (added = [.unrendered] ∨ (added = [.failed] ∧ i = 5)) ∧ n.retryCount = i
  | .succeed _ => added = [.accepted] ∧ n.retryCount = i
  | .clock n₀ _ => added = [.failed] ∧ i < 5 ∧ n₀.retryCount = i ∧ n.retryCount = i
  | .bump n₀ _ t => added = [.failed, .clock t] ∧ i < 5 ∧ n₀.retryCount = i ∧ n.retryCount = i
  | .repend n₀ _ => i < 5 ∧ n₀.retryCount = i ∧ n.retryCount = i + 1 ∧
    ∃ t : Int, added = [.failed, .clock t, .retryAt (t + backoff (i + 1))]
  | .schedule ms => i < 5 ∧ ms = backoff (i + 1) ∧ n.retryCount = i + 1 ∧ n.status = .pending ∧
    ∃ t : Int, added = [.failed, .clock t, .retryAt (t + backoff (i + 1))]
  | .fallback ms => i < 5 ∧ ms = backoff (i + 1) ∧ n.retryCount = i + 1 ∧ n.status = .pending ∧
    ∃ t : Int, ∃ tried, (tried = [] ∨ tried = [.publishRetry ms]) ∧
      added = [.failed, .clock t, .retryAt (t + backoff (i + 1))] ++ tried
  | .load | .done _ => False

inductive Progress (trace : List Event) : Option Notification → Option DispatchPc → Prop where
  | absent {pc : Option DispatchPc} : trace = [] → (∀ q, pc = some q → q = .load) →
      Progress trace none pc
  | idle {n : Notification} {pc : Option DispatchPc} {i : Nat} : Verdict trace n.status i →
      n.retryCount = (min i 5 : Nat) → (∀ q, pc = some q → q = .load) →
      Progress trace (some n) pc
  | underway {n : Notification} {pc : DispatchPc} {before added : List Event}
      {status : NotificationStatus} {i : Nat} : Verdict before status i → status.live →
      trace = before ++ added → pc.Stands i n added → Progress trace (some n) (some pc)

namespace Progress

variable {trace : List Event} {n n' : Notification} {now : Int}

theorem touched {pc : Option DispatchPc} (h : Progress trace (some n) pc)
    (ht : n.Touched now n') : Progress trace (some n') pc := by
  have hcount : n'.retryCount = n.retryCount := by cases ht <;> rfl
  have hpending : n.status = .pending → n'.status = .pending := by
    intro hp
    cases ht with
    | same | read => exact hp
    | reset => rfl
  cases h with
  | idle hv hc hpc =>
    refine .idle (i := _) ?_ (hcount.trans hc) hpc
    cases ht with
    | same | read => exact hv
    | reset hstuck =>
      rw [hstuck] at hv
      exact hv.reset
  | @underway _ pc _ _ _ _ hv hl htr hs =>
    refine .underway hv hl htr ?_
    cases pc with
    | mark | render | encode | send | clock | bump | repend | succeed | giveUp =>
      simpa only [DispatchPc.Stands, hcount] using hs
    | schedule =>
      obtain ⟨hi, hms, hc, hp, ht⟩ := hs
      exact ⟨hi, hms, hcount.trans hc, hpending hp, ht⟩
    | fallback =>
      obtain ⟨hi, hms, hc, hp, ht⟩ := hs
      exact ⟨hi, hms, hcount.trans hc, hpending hp, ht⟩
    | load | done => exact hs

theorem load {row : Option Notification} (h : Progress trace row none) :
    Progress trace row (some .load) := by
  cases h with
  | absent htr => exact .absent htr fun q hq => (Option.some.inj hq).symm
  | idle hv hc => exact .idle hv hc fun q hq => (Option.some.inj hq).symm

theorem aside {Bytes : Type} {w w' : World Bytes} {id : Uuid} {pc : Option DispatchPc}
    (h : Progress trace (w.table.getById id) pc) (ha : w.Aside w' id) :
    Progress trace (w'.table.getById id) pc := by
  cases hrow : w.table.getById id with
  | some n =>
    obtain ⟨n', hn', ht⟩ := ha.kept n hrow
    rw [hrow] at h
    rw [hn']
    exact h.touched ht
  | none =>
    rw [hrow] at h
    cases h with
    | absent htr hpc =>
      cases hrow' : w'.table.getById id with
      | none => exact .absent htr hpc
      | some n' =>
        obtain ⟨r, t, t', t'', rfl⟩ := ha.new hrow n' hrow'
        subst htr
        exact .idle .queued rfl hpc

section Dispatch

private theorem none_load (q : DispatchPc) (h : none = some q) : q = .load := nomatch h

theorem begun {row : Option Notification} {pc : DispatchPc} {trace : List Event}
    (h : Progress trace row (some pc)) (hpc : pc ≠ .load) :
    ∃ n before status i added, row = some n ∧ Verdict before status i ∧ status.live ∧
      trace = before ++ added ∧ pc.Stands i n added := by
  cases h with
  | absent _ hload | idle _ _ hload => exact absurd (hload pc rfl) hpc
  | underway hv hl htr hs => exact ⟨_, _, _, _, _, rfl, hv, hl, htr, hs⟩

variable {d : Deployment Bytes} {id : Uuid} {o : Outcome} {w w' : World Bytes}
  {pc pc' : DispatchPc} {trace : List Event}

theorem goesOn {row : Option Notification} {n : Notification} {before added more : List Event}
    {status : NotificationStatus} {i : Nat} (hrow : row = some n) (hv : Verdict before status i)
    (hl : status.live) (hstands : pc.Stands i n (added ++ more)) :
    Progress (before ++ added ++ more) row (some pc) := by
  rw [hrow]
  exact .underway hv hl (List.append_assoc ..) hstands

theorem ends {row : Option Notification} {n : Notification} {before added more : List Event}
    {i : Nat} (hrow : row = some n) (hv : Verdict (before ++ (added ++ more)) n.status i)
    (hcount : n.retryCount = (min i 5 : Nat)) : Progress (before ++ added ++ more) row none := by
  rw [hrow, List.append_assoc]
  exact .idle hv hcount none_load

theorem loaded {w : World Bytes} (h : Progress trace (w.table.getById id) (some .load))
    {n : Notification} (hn : w.table.getById id = some n) : ∃ i, Verdict trace n.status i ∧
      n.retryCount = (min i 5 : Nat) := by
  rw [hn] at h
  cases h with
  | idle hv hc => exact ⟨_, hv, hc⟩
  | underway _ _ _ hstands => exact hstands.elim

theorem step (h : Progress trace (w.table.getById id) (some pc))
    (hlive : pc.atWork → RowLive id w.table)
    (hok : pc.kind.any OpKind.repository → o.failed = false)
    (hs : DispatchStep d id o w pc w' pc') :
    Progress (trace ++ (pc.event o w.now).toList) (w'.table.getById id) pc'.unfinished := by
  have updated : ∀ {n status error ref}, w.table.getById id = some n →
      (w.updateStatus id status error ref).table.getById id =
        some (withStatus w.now status error ref n) := by
    intro n status error ref hn
    simp [hn]
  have retried : ∀ {n t}, w.table.getById id = some n →
      (w.incrementRetry id t).table.getById id = some (withRetry w.now t n) := by
    intro n t hn
    simp [hn]
  cases hs with
  | loadFail hf | markFail hf | giveUpFail hf | succeedFail hf | bumpFail hf | rependFail hf =>
    exact absurd (hok rfl) (by simp [hf.failed])
  | loadMissing hn =>
    rw [show DispatchPc.event .ok w.now .load = none from rfl, Option.toList_none,
      List.append_nil]
    rw [hn] at h ⊢
    cases h with
    | absent htr => exact .absent htr none_load
  | loadTerminal hn =>
    obtain ⟨i, hv, hc⟩ := h.loaded hn
    rw [show DispatchPc.event .ok w.now .load = none from rfl, Option.toList_none,
      List.append_nil, hn]
    exact .idle hv hc none_load
  | load hn hl =>
    obtain ⟨i, hv, hc⟩ := h.loaded hn
    rw [Nat.min_eq_left (hv.sends_of_live hl).1] at hc
    rw [hn]
    exact .underway hv hl rfl ⟨rfl, hc, hc⟩
  | mark =>
    obtain ⟨n, before, status, i, added, hn, hv, hl, rfl, rfl, hc₀, hc⟩ := h.begun (by simp)
    exact goesOn (updated hn) hv hl ⟨rfl, hc₀, hc⟩
  | @render _ n₀ content =>
    obtain ⟨n, before, status, i, added, hn, hv, hl, rfl, rfl, hc₀, hc⟩ := h.begun (by simp)
    exact DispatchPc.afterRender_ok n₀ content (fun _ => goesOn hn hv hl ⟨rfl, hc₀, hc⟩)
      fun _ => goesOn hn hv hl ⟨rfl, hc₀, hc⟩
  | renderFail =>
    obtain ⟨n, before, status, i, added, hn, hv, hl, rfl, rfl, hc₀, hc⟩ := h.begun (by simp)
    exact goesOn hn hv hl ⟨.inl rfl, hc⟩
  | giveUp =>
    obtain ⟨n, before, status, i, added, hn, hv, hl, rfl, hadded, hc⟩ := h.begun (by simp)
    have hi := (hv.sends_of_live hl).1
    rcases hadded with rfl | ⟨rfl, rfl⟩
    · exact ends (updated hn) (hv.unrendered hl) (by rw [Nat.min_eq_left hi]; exact hc)
    · exact ends (updated hn) (hv.exhausted hl) hc
  | encode =>
    obtain ⟨n, before, status, i, added, hn, hv, hl, rfl, rfl, hc₀, hc⟩ := h.begun (by simp)
    exact goesOn hn hv hl ⟨rfl, hc₀, hc⟩
  | encodeFail =>
    obtain ⟨n, before, status, i, added, hn, hv, hl, rfl, rfl, hc₀, hc⟩ := h.begun (by simp)
    have hi := (hv.sends_of_live hl).1
    obtain ⟨n', hn', hlive'⟩ := hlive rfl
    obtain rfl := Option.some.inj (hn'.symm.trans hn)
    have hverdict : Verdict (before ++ [.unencoded]) n'.status i := by
      cases hstatus : n'.status with
      | processing => exact hv.unencoded hl
      | pending => exact (hv.unencoded hl).reset
      | _ => simp [hstatus, NotificationStatus.live] at hlive'
    exact ends hn hverdict (by rw [Nat.min_eq_left hi]; exact hc)
  | send =>
    obtain ⟨n, before, status, i, added, hn, hv, hl, rfl, rfl, hc₀, hc⟩ := h.begun (by simp)
    exact goesOn hn hv hl ⟨rfl, hc⟩
  | sendFail hlt =>
    obtain ⟨n, before, status, i, added, hn, hv, hl, rfl, rfl, hc₀, hc⟩ := h.begun (by simp)
    rw [hc₀, maxRetries] at hlt
    exact goesOn hn hv hl ⟨rfl, by omega, hc₀, hc⟩
  | sendExhausted hmax =>
    obtain ⟨n, before, status, i, added, hn, hv, hl, rfl, rfl, hc₀, hc⟩ := h.begun (by simp)
    have hi := (hv.sends_of_live hl).1
    rw [hc₀, maxRetries] at hmax
    exact goesOn hn hv hl ⟨.inr ⟨rfl, by omega⟩, hc⟩
  | succeed =>
    obtain ⟨n, before, status, i, added, hn, hv, hl, rfl, rfl, hc⟩ := h.begun (by simp)
    have hi := (hv.sends_of_live hl).1
    exact ends (updated hn) (hv.accepted hl) (by rw [Nat.min_eq_left hi]; exact hc)
  | clock =>
    obtain ⟨n, before, status, i, added, hn, hv, hl, rfl, rfl, hi, hc₀, hc⟩ := h.begun (by simp)
    exact goesOn hn hv hl ⟨rfl, hi, hc₀, hc⟩
  | @bump _ n₀ e t =>
    obtain ⟨n, before, status, i, added, hn, hv, hl, rfl, rfl, hi, hc₀, hc⟩ := h.begun (by simp)
    refine goesOn (retried hn) hv hl ⟨hi, hc₀, congrArg (· + 1) hc, t, ?_⟩
    simp [DispatchPc.event, hc₀, delayMs_eq hi]
  | @repend _ n₀ e =>
    obtain ⟨n, before, status, i, added, hn, hv, hl, rfl, hi, hc₀, hc, t, rfl⟩ := h.begun (by simp)
    rw [hc₀, delayMs_eq hi]
    cases d.mq with
    | true => exact goesOn (updated hn) hv hl ⟨hi, rfl, hc, rfl, t, rfl⟩
    | false => exact goesOn (updated hn) hv hl ⟨hi, rfl, hc, rfl, t, [], .inl rfl, rfl⟩
  | schedule =>
    obtain ⟨n, before, status, i, added, hn, hv, hl, rfl, hi, rfl, hc, hp, t, rfl⟩ :=
      h.begun (by simp)
    have hverdict := Verdict.failed t hv hl hi .published
    rw [← hp] at hverdict
    exact ends hn hverdict (by rw [hc, Nat.min_eq_left hi]; rfl)
  | @scheduleFail _ _ _ _ _ _ _ hf =>
    obtain ⟨n, before, status, i, added, hn, hv, hl, rfl, hi, rfl, hc, hp, t, rfl⟩ :=
      h.begun (by simp)
    have hn' : w'.table.getById id = some n := by cases hf <;> exact hn
    exact goesOn hn' hv hl ⟨hi, rfl, hc, hp, t, _, .inr rfl, rfl⟩
  | scheduleUnencoded =>
    obtain ⟨n, before, status, i, added, hn, hv, hl, rfl, hi, rfl, hc, hp, t, rfl⟩ :=
      h.begun (by simp)
    exact goesOn hn hv hl ⟨hi, rfl, hc, hp, t, _, .inr rfl, rfl⟩
  | fallback =>
    obtain ⟨n, before, status, i, added, hn, hv, hl, rfl, hi, rfl, hc, hp, t, tried, htried, rfl⟩ :=
      h.begun (by simp)
    have hcount : n.retryCount = (min (i + 1) 5 : Nat) := by
      rw [hc, Nat.min_eq_left hi]
      rfl
    refine ends hn ?_ hcount
    rw [hp]
    rcases htried with rfl | rfl
    · exact .failed t hv hl hi .inProcess
    · exact .failed t hv hl hi .fallback

theorem sends_le {row : Option Notification} {pc : Option DispatchPc}
    (h : Progress trace row pc) : sends trace ≤ 6 := by
  cases h with
  | absent htr =>
    rw [htr]
    exact Nat.zero_le _
  | idle hv => exact hv.sends_le
  | @underway _ pc _ _ _ _ hv hl htr hstands =>
    obtain ⟨hi, hsends⟩ := hv.sends_of_live hl
    rw [htr, sends_append, hsends]
    cases pc with
    | mark | render | encode | send =>
      obtain ⟨rfl, -⟩ := hstands
      exact Nat.le_succ_of_le hi
    | giveUp =>
      obtain ⟨rfl | ⟨rfl, rfl⟩, -⟩ := hstands
      · exact Nat.le_succ_of_le hi
      · decide
    | succeed | clock | bump =>
      obtain ⟨rfl, -⟩ := hstands
      exact Nat.succ_le_succ hi
    | repend =>
      obtain ⟨-, -, -, t, rfl⟩ := hstands
      exact Nat.succ_le_succ hi
    | schedule =>
      obtain ⟨-, -, -, -, t, rfl⟩ := hstands
      exact Nat.succ_le_succ hi
    | fallback =>
      obtain ⟨-, -, -, -, t, tried, rfl | rfl, rfl⟩ := hstands <;> exact Nat.succ_le_succ hi
    | load | done => exact hstands.elim

theorem retryCount_le {n : Notification} {pc : Option DispatchPc}
    (h : Progress trace (some n) pc) : 0 ≤ n.retryCount ∧ n.retryCount ≤ 5 := by
  cases h with
  | idle _ hc => omega
  | @underway _ pc _ _ _ _ hv hl htr hstands =>
    have hi := (hv.sends_of_live hl).1
    cases pc with
    | mark | render | encode | send =>
      obtain ⟨-, -, hc⟩ := hstands
      omega
    | giveUp | succeed =>
      obtain ⟨-, hc⟩ := hstands
      omega
    | clock | bump =>
      obtain ⟨-, -, -, hc⟩ := hstands
      omega
    | repend | schedule | fallback =>
      obtain ⟨hlt, -, hc, -⟩ := hstands
      omega
    | load | done => exact hstands.elim

end Dispatch

end Progress

def LedgerState.succeeds (s : LedgerState Bytes) : LedgerLabel → Bool
  | .call i o => (s.calls[i]?.bind awaits).any OpKind.repository → o.failed = false
  | .work id o => ((s.working id).bind awaits).any OpKind.repository → o.failed = false
  | .sweep i o => (s.sweeps[i]?.bind awaits).any OpKind.repository → o.failed = false
  | .markAsRead _ _ o | .markAllAsRead _ o => o.failed = false
  | _ => true

namespace Ledger

variable {d : Deployment Bytes} {m m' : Ledger Bytes} {l : LedgerLabel}

def OnCourse (m : Ledger Bytes) : Prop :=
  m.Sound ∧ ∀ id, Progress (m.trace id) (m.world.table.getById id) (m.working id)

theorem Step.onCourse (h : Step d l m m') (hm : m.OnCourse) (hok : (m.state d).succeeds l) :
    m'.OnCourse := by
  refine ⟨(h.sound hm.1).1, ?_⟩
  have aside : (∀ id, m.world.Aside m'.world id) → m'.trace = m.trace →
      m'.working = m.working →
      ∀ id, Progress (m'.trace id) (m'.world.table.getById id) (m'.working id) := by
    intro ha htrace hworking id
    rw [htrace, hworking]
    exact (hm.2 id).aside (ha id)
  cases h with
  | tick | recover | request => exact aside (fun _ => .of_table rfl) rfl rfl
  | call hi hs => exact aside (hs.aside (hm.1.built _ (List.mem_of_getElem? hi))) rfl rfl
  | sweep hi hs => exact aside hs.aside rfl rfl
  | markAsRead hr => exact aside (fun _ => .of_answer hr (.markAsRead ..)) rfl rfl
  | markAllAsRead hr => exact aside (fun _ => .of_answer hr (.markAllAsRead ..)) rfl rfl
  | @dispatch _ id hidle =>
    intro k
    show Progress _ _ (Function.update m.working id (some .load) k)
    by_cases hk : k = id
    · subst hk
      rw [Function.update_self]
      exact (hidle ▸ hm.2 k).load
    · rw [Function.update_of_ne hk]
      exact hm.2 k
  | @work _ id o pc w pc' hpc hs =>
    intro k
    show Progress (Function.update m.trace id _ k) (w.table.getById k)
      (Function.update m.working id pc'.unfinished k)
    by_cases hk : k = id
    · subst hk
      rw [Function.update_self, Function.update_self]
      refine (hpc ▸ hm.2 k).step (hm.1.live k pc hpc) (fun hrepo => ?_) hs
      simpa [LedgerState.succeeds, state, hpc, DispatchPc.awaits_prog, hrepo] using hok
    · rw [Function.update_of_ne hk, Function.update_of_ne hk, hs.frame hk]
      exact hm.2 k

theorem onCourse_reachable {s : LedgerState Bytes}
    (h : (ledgerSystem d).Reachable (fun s l => s.succeeds l) s) :
    ∃ m : Ledger Bytes, s = m.state d ∧ (∀ pc ∈ m.sweeps, pc.Normal) ∧ m.OnCourse := by
  refine invariant (fun w hw => ?_) (fun m l m' hm hok hs => hs.onCourse hm hok) h
  refine ⟨sound_initial hw, fun id => ?_⟩
  show Progress [] (w.table.getById id) none
  rw [hw]
  exact .absent rfl fun q hq => nomatch hq

theorem Step.settled (h : Step d l m m') (hm : m.OnCourse) {id : Uuid} {n : Notification}
    (hn : m.world.table.getById id = some n) (hlive : n.status.live = false) :
    ∃ n', m'.world.table.getById id = some n' ∧ n'.status = n.status ∧
      sends (m'.trace id) = sends (m.trace id) := by
  have aside : m.world.Aside m'.world id → m'.trace = m.trace → ∃ n',
      m'.world.table.getById id = some n' ∧ n'.status = n.status ∧
        sends (m'.trace id) = sends (m.trace id) := by
    intro ha htrace
    obtain ⟨n', hn', ht⟩ := ha.kept n hn
    refine ⟨n', hn', ?_, by rw [htrace]⟩
    cases ht with
    | same | read => rfl
    | reset hstuck => simp [hstuck, NotificationStatus.live] at hlive
  cases h with
  | tick | recover | request | dispatch => exact aside (.of_table rfl) rfl
  | call hi hs => exact aside (hs.aside (hm.1.built _ (List.mem_of_getElem? hi)) id) rfl
  | sweep hi hs => exact aside (hs.aside id) rfl
  | markAsRead hr => exact aside (.of_answer hr (.markAsRead ..)) rfl
  | markAllAsRead hr => exact aside (.of_answer hr (.markAllAsRead ..)) rfl
  | @work _ k o pc w pc' hpc hs =>
    show ∃ n', w.table.getById id = some n' ∧ n'.status = n.status ∧
      sends (Function.update m.trace k _ id) = sends (m.trace id)
    by_cases hk : id = k
    · subst hk
      have hidle : ¬ pc.atWork := by
        intro hwork
        obtain ⟨n', hn', hlive'⟩ := hm.1.live id pc hpc hwork
        obtain rfl := Option.some.inj (hn'.symm.trans hn)
        simp [hlive] at hlive'
      refine ⟨n, by rw [hs.table_of_not_atWork hidle, hn], rfl, ?_⟩
      rw [Function.update_self, sends_append]
      cases pc <;> first | rfl | exact absurd rfl hidle
    · rw [Function.update_of_ne hk, hs.frame hk]
      exact ⟨n, hn, rfl, rfl⟩

end Ledger

/-- While the repository works: a row is tried again at most five times, each time after
twice the delay, and once it is sent or given up it stays so. -/
theorem dispatch_attempts (d : Deployment Bytes) (s : LedgerState Bytes)
    (h : (ledgerSystem d).Reachable (fun s l => s.succeeds l) s) (id : Uuid) (n : Notification)
    (hn : s.world.table.getById id = some n) :
    (0 ≤ n.retryCount ∧ n.retryCount ≤ 5) ∧ sends (s.trace id) ≤ 6 ∧
      (s.working id = none → Verdict (s.trace id) n.status (failures (s.trace id)) ∧
        n.retryCount = (min (failures (s.trace id)) 5 : Nat)) ∧
      (n.status = .sent ∨ n.status = .permanentFailure → ∀ l t,
        (ledgerSystem d).step s l = some t → ∃ n', t.world.table.getById id = some n' ∧
          n'.status = n.status ∧ sends (t.trace id) = sends (s.trace id)) := by
  obtain ⟨m, rfl, hnormal, hm⟩ := Ledger.onCourse_reachable h
  have hrow : m.world.table.getById id = some n := hn
  have hprogress : Progress (m.trace id) (some n) (m.working id) := hrow ▸ hm.2 id
  refine ⟨hprogress.retryCount_le, hprogress.sends_le, fun hidle => ?_, fun hsettled l t hs => ?_⟩
  · have hnone : m.working id = none := Option.map_eq_none_iff.mp hidle
    rw [hnone] at hprogress
    cases hprogress with
    | idle hv hc =>
      obtain rfl := hv.failures_eq
      exact ⟨hv, hc⟩
  · obtain ⟨m', hstep, rfl, -⟩ := Ledger.step_sim hnormal hs
    refine hstep.settled hm hrow ?_
    rcases hsettled with hst | hst <;> rw [hst] <;> rfl

/-- After one failed send, with the retry published, a second dispatch is given up at its
template. -/
theorem dispatch_attempts_unrendered :
    ∃ (s : LedgerState NotificationTask) (n : Notification),
      s.trace ⟨1⟩ = [.failed, .clock 7, .retryAt 120007, .publishRetry 120000, .unrendered] ∧
      s.working ⟨1⟩ = none ∧ s.world.table.getById ⟨1⟩ = some n ∧
      n.status = .permanentFailure ∧
      (0 ≤ n.retryCount ∧ n.retryCount ≤ 5) ∧ sends (s.trace ⟨1⟩) ≤ 6 ∧
      (s.working ⟨1⟩ = none → Verdict (s.trace ⟨1⟩) n.status (failures (s.trace ⟨1⟩)) ∧
        n.retryCount = (min (failures (s.trace ⟨1⟩)) 5 : Nat)) ∧
      (n.status = .sent ∨ n.status = .permanentFailure → ∀ l t,
        (ledgerSystem (.plain true)).step s l = some t → ∃ n',
          t.world.table.getById ⟨1⟩ = some n' ∧ n'.status = n.status ∧
            sends (t.trace ⟨1⟩) = sends (s.trace ⟨1⟩)) := by
  obtain ⟨s, n, hrun, htrace, hidle, hn, hstatus⟩ : ∃ s n,
      (ledgerSystem (.plain true)).runWhen LedgerState.succeeds (.start 0)
        [.request Request.sample, .call 0 (.fresh ⟨1⟩), .call 0 .ok, .call 0 .ok, .call 0 .ok,
          .call 0 .ok, .tick 7, .dispatch ⟨1⟩, .work ⟨1⟩ .ok, .work ⟨1⟩ .ok,
          .work ⟨1⟩ (.text "hello"), .work ⟨1⟩ (.fail (.provider "down")), .work ⟨1⟩ .ok,
          .work ⟨1⟩ .ok, .work ⟨1⟩ .ok, .work ⟨1⟩ .ok, .markAllAsRead ⟨2⟩ .ok, .recover 300 10,
          .sweep 0 .ok, .dispatch ⟨1⟩, .work ⟨1⟩ .ok, .work ⟨1⟩ .ok,
          .work ⟨1⟩ (.fail (.template "missing")), .work ⟨1⟩ .ok] = some s ∧
      s.trace ⟨1⟩ = [.failed, .clock 7, .retryAt 120007, .publishRetry 120000, .unrendered] ∧
      s.working ⟨1⟩ = none ∧ s.world.table.getById ⟨1⟩ = some n ∧
      n.status = .permanentFailure := ⟨_, _, rfl, rfl, rfl, rfl, rfl⟩
  have hreach := (System.Reachable.start (s := LedgerState.start 0)
    (S := ledgerSystem (.plain true)) ⟨rfl, rfl, fun _ => rfl, rfl, fun _ => rfl⟩).runWhen
      (fun _ _ hok => hok) hrun
  exact ⟨s, n, htrace, hidle, hn, hstatus,
    dispatch_attempts (.plain true) s hreach ⟨1⟩ n hn⟩

end NotiService
