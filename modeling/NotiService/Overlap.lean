import NotiService.DispatchSteps
import NotiService.Foundation.Transition

/-! Any number of `dispatch(id)` calls on one row, interleaved call by call, with the
repository always succeeding. Each call acts on the snapshot it read: one that
passes its guard while another is still at work on the row sends again, or writes
over what the other has stored. -/

namespace NotiService
open Foundation Orchestrator NotificationTable

variable {Bytes : Type}

/-- `accepted`: a `send` for the row has returned `Ok`. -/
structure OverlapState (Bytes : Type) where
  world : World Bytes
  calls : List (Program Op (Except NotiError Unit))
  accepted : Bool

inductive OverlapLabel where
  | start
  | step (i : Nat) (o : Outcome)
  | tick (ms : Nat)

def Outcome.isText : Outcome → Bool
  | .text _ => true
  | _ => false

def overlapSystem (d : Deployment Bytes) (id : Uuid) :
    System (OverlapState Bytes) OverlapLabel where
  init s := s.calls = [] ∧ s.accepted = false
  step s
    | .start => some { s with calls := s.calls ++ [(dispatch d.mq id).run] }
    | .step i o => s.calls[i]?.bind fun p =>
      if (awaits p).any OpKind.repository ∧ o ≠ .ok then none
      else (Program.step (exec d o) p s.world).map fun (p', world) =>
        { world
          calls := s.calls.set i p'
          accepted := s.accepted || (awaits p = some .send && o.isText) }
    | .tick ms => some { s with world := s.world.tick ms }

/-- Past the guard, with a call of the provider or the repository still to come. -/
def OpKind.atWork : OpKind → Bool
  | .updateStatus | .render | .encodeView | .send | .now | .incrementRetry => true
  | _ => false

def atWork (p : Program Op (Except NotiError Unit)) : Prop := (awaits p).any OpKind.atWork

/-- No call reads the row while another is at work on it. -/
def Apart (s : OverlapState Bytes) : OverlapLabel → Prop
  | .step i _ => ∀ p, s.calls[i]? = some p → awaits p = some .getById →
      ∀ j q, j ≠ i → s.calls[j]? = some q → ¬ atWork q
  | _ => True

def Sends (s : OverlapState Bytes) : OverlapLabel → Prop
  | .step i _ => ∃ p, s.calls[i]? = some p ∧ awaits p = some .send
  | _ => False

def DispatchPc.atWork (pc : DispatchPc) : Prop := pc.kind.any OpKind.atWork

theorem DispatchStep.table_of_not_atWork {d : Deployment Bytes} {id : Uuid} {w w' : World Bytes}
    {pc pc' : DispatchPc} {o : Outcome}
    (hs : DispatchStep d id o w pc w' pc') (hpc : ¬ pc.atWork) : w'.table = w.table := by
  cases hs with
  | loadFail hf => cases hf <;> rfl
  | scheduleFail _ hf => cases hf <;> rfl
  | load | loadTerminal | loadMissing | schedule | scheduleUnencoded | fallback => rfl
  | _ => exact absurd rfl hpc

namespace Overlap

variable {d : Deployment Bytes} {id : Uuid}

def RowLive (id : Uuid) (t : NotificationTable) : Prop :=
  ∃ n, t.getById id = some n ∧ n.status.live

def RowSent (id : Uuid) (t : NotificationTable) : Prop :=
  ∃ n, t.getById id = some n ∧ n.status = .sent

/-- Either no call is at work on the row, or one is, and the row is live. -/
inductive Phase (id : Uuid) (pcs : List DispatchPc) (t : NotificationTable) (accepted : Bool) :
    Prop where
  | idle : (∀ (j : Nat) (pc : DispatchPc), pcs[j]? = some pc → ¬ pc.atWork) →
      (accepted → RowSent id t) → Phase id pcs t accepted
  | working (i : Nat) (pc : DispatchPc) : pcs[i]? = some pc → pc.atWork →
      (∀ (j : Nat) (pc' : DispatchPc), j ≠ i → pcs[j]? = some pc' → ¬ pc'.atWork) →
      RowLive id t → (accepted ↔ ∃ ref, pc = .succeed ref) → Phase id pcs t accepted

theorem RowLive.updateStatus {t : NotificationTable} (h : RowLive id t)
    {status : NotificationStatus} (hlive : status.live) (now : Int)
    (error providerRef : Option String) :
    RowLive id (t.updateStatus now id status error providerRef) := by
  obtain ⟨n, hn, -⟩ := h
  exact ⟨withStatus now status error providerRef n, by simp [hn], hlive⟩

theorem RowLive.incrementRetry {t : NotificationTable} (h : RowLive id t) (now nextRetryAt : Int) :
    RowLive id (t.incrementRetry now id nextRetryAt) := by
  obtain ⟨n, hn, hlive⟩ := h
  exact ⟨withRetry now nextRetryAt n, by simp [hn], hlive⟩

theorem RowLive.sent {t : NotificationTable} (h : RowLive id t) (now : Int)
    (error providerRef : Option String) :
    RowSent id (t.updateStatus now id .sent error providerRef) := by
  obtain ⟨n, hn, -⟩ := h
  exact ⟨withStatus now .sent error providerRef n, by simp [hn], rfl⟩

theorem RowLive.not_sent {t : NotificationTable} (h : RowLive id t) : ¬ RowSent id t := by
  obtain ⟨n, hn, hlive⟩ := h
  rintro ⟨n', hn', hsent⟩
  rw [hn] at hn'
  cases hn'
  rw [hsent] at hlive
  cases hlive

theorem Phase.start {pcs : List DispatchPc} {t : NotificationTable} {accepted : Bool}
    (h : Phase id pcs t accepted) : Phase id (pcs ++ [.load]) t accepted := by
  have old : ∀ {j : Nat} {q : DispatchPc}, (pcs ++ [.load])[j]? = some q → q.atWork →
      pcs[j]? = some q := by
    intro j q hq hwork
    by_cases hj : j < pcs.length
    · rwa [List.getElem?_append_left hj] at hq
    · rw [List.getElem?_append_right (Nat.le_of_not_lt hj)] at hq
      obtain rfl : DispatchPc.load = q :=
        List.mem_singleton.mp (List.mem_of_getElem? hq) |>.symm
      cases hwork
  cases h with
  | idle hidle hsent => exact .idle (fun j q hq hwork => hidle j q (old hq hwork) hwork) hsent
  | working i pc hi hpc hother hlive hacc =>
    refine .working i pc ?_ hpc (fun j q hj hq hwork => hother j q hj (old hq hwork) hwork) hlive
      hacc
    rw [List.getElem?_append_left (List.getElem?_eq_some_iff.mp hi).1, hi]

section Set

variable {pcs : List DispatchPc} {t : NotificationTable} {accepted : Bool} {k : Nat}
  {pc pc' : DispatchPc}

private theorem getElem_set_of_ne {j : Nat} {q : DispatchPc} (hj : j ≠ k)
    (hq : (pcs.set k pc')[j]? = some q) : pcs[j]? = some q := by
  rwa [List.getElem?_set_ne hj.symm] at hq

private theorem getElem_set_self (hk : pcs[k]? = some pc) : (pcs.set k pc')[k]? = some pc' := by
  have hlt := (List.getElem?_eq_some_iff.mp hk).1
  simp [hlt]

theorem idle_set (hk : pcs[k]? = some pc)
    (hother : ∀ (j : Nat) (q : DispatchPc), j ≠ k → pcs[j]? = some q → ¬ q.atWork)
    (hpc' : ¬ pc'.atWork) (hsent : accepted → RowSent id t) :
    Phase id (pcs.set k pc') t accepted := by
  refine .idle (fun j q hq => ?_) hsent
  by_cases hj : j = k
  · subst hj
    rw [getElem_set_self hk] at hq
    cases hq
    exact hpc'
  · exact hother j q hj (getElem_set_of_ne hj hq)

theorem working_set (hk : pcs[k]? = some pc)
    (hother : ∀ (j : Nat) (q : DispatchPc), j ≠ k → pcs[j]? = some q → ¬ q.atWork)
    (hpc' : pc'.atWork) (hlive : RowLive id t) (hacc : accepted ↔ ∃ ref, pc' = .succeed ref) :
    Phase id (pcs.set k pc') t accepted :=
  .working k pc' (getElem_set_self hk) hpc'
    (fun j q hj hq => hother j q hj (getElem_set_of_ne hj hq)) hlive hacc

theorem Phase.set_of_not_atWork (h : Phase id pcs t accepted) (hk : pcs[k]? = some pc)
    (hpc : ¬ pc.atWork) (hpc' : ¬ pc'.atWork) : Phase id (pcs.set k pc') t accepted := by
  cases h with
  | idle hidle hsent => exact idle_set hk (fun j q _ hq => hidle j q hq) hpc' hsent
  | working i q hi hq hother hlive hacc =>
    have hik : i ≠ k := by
      rintro rfl
      rw [hk] at hi
      cases hi
      exact hpc hq
    refine .working i q (by rw [List.getElem?_set_ne hik.symm, hi]) hq ?_ hlive hacc
    intro j r hj hr
    by_cases hjk : j = k
    · subst hjk
      rw [getElem_set_self hk] at hr
      cases hr
      exact hpc'
    · exact hother j r hj (getElem_set_of_ne hjk hr)

theorem Phase.of_atWork (h : Phase id pcs t accepted) (hk : pcs[k]? = some pc) (hpc : pc.atWork) :
    (∀ (j : Nat) (q : DispatchPc), j ≠ k → pcs[j]? = some q → ¬ q.atWork) ∧ RowLive id t ∧
      (accepted ↔ ∃ ref, pc = .succeed ref) := by
  cases h with
  | idle hidle => exact absurd hpc (hidle k pc hk)
  | working i q hi hq hother hlive hacc =>
    obtain rfl : i = k := by
      by_contra hne
      exact hother k pc (Ne.symm hne) hk hpc
    rw [hk] at hi
    cases hi
    exact ⟨hother, hlive, hacc⟩

end Set

/-- A step of the call at work: the row stays live until the call stores `Sent`, gives
up or hands the retry to the queue. -/
theorem Phase.step_atWork {pcs : List DispatchPc} {w w' : World Bytes} {accepted : Bool} {k : Nat}
    {pc pc' : DispatchPc} {o : Outcome} (h : Phase id pcs w.table accepted) (hk : pcs[k]? = some pc)
    (hpc : pc.atWork) (hok : pc.kind.any OpKind.repository → o = .ok)
    (hs : DispatchStep d id o w pc w' pc') :
    Phase id (pcs.set k pc') w'.table (accepted || (pc.kind = some .send && o.isText)) := by
  obtain ⟨hother, hlive, hacc⟩ := h.of_atWork hk hpc
  have fresh : (¬ ∃ ref, pc = .succeed ref) → accepted = false := by
    intro hne
    simpa using mt hacc.mp hne
  have idle : ∀ {t : NotificationTable} {b : Bool}, ¬ pc'.atWork → (b → RowSent id t) →
      Phase id (pcs.set k pc') t b := idle_set hk hother
  have working : ∀ {t : NotificationTable} {b : Bool}, pc'.atWork → RowLive id t →
      (b ↔ ∃ ref, pc' = .succeed ref) → Phase id (pcs.set k pc') t b := working_set hk hother
  cases hs with
  | load | loadTerminal | loadMissing | loadFail => cases hpc
  | markFail hf | giveUpFail hf | succeedFail hf | bumpFail hf | rependFail hf =>
    exact absurd (hok rfl) hf.ne_ok
  | mark =>
    rw [fresh (by simp)]
    exact working rfl (hlive.updateStatus rfl _ none none) (by simp [DispatchPc.kind])
  | @render _ n content =>
    rw [fresh (by simp)]
    by_cases hws : n.channel = .webSocket
    · simp only [DispatchPc.afterRender, if_pos hws] at working ⊢
      exact working rfl hlive (by simp [DispatchPc.kind])
    · simp only [DispatchPc.afterRender, if_neg hws] at working ⊢
      exact working rfl hlive (by simp [DispatchPc.kind])
  | renderFail =>
    rw [fresh (by simp)]
    exact working rfl hlive (by simp [DispatchPc.kind])
  | giveUp =>
    rw [fresh (by simp)]
    exact idle (by simp [DispatchPc.atWork, DispatchPc.kind]) (by simp [DispatchPc.kind])
  | encode =>
    rw [fresh (by simp)]
    exact working rfl hlive (by simp [DispatchPc.kind])
  | encodeFail =>
    rw [fresh (by simp)]
    exact idle (by simp [DispatchPc.atWork, DispatchPc.kind]) (by simp [DispatchPc.kind])
  | send => exact working rfl hlive (by simp [DispatchPc.kind, Outcome.isText])
  | sendFail | sendExhausted =>
    rw [fresh (by simp)]
    exact working rfl hlive (by simp [Outcome.isText])
  | succeed =>
    exact idle (by simp [DispatchPc.atWork, DispatchPc.kind]) fun _ => hlive.sent _ none _
  | clock =>
    rw [fresh (by simp)]
    exact working rfl hlive (by simp [DispatchPc.kind])
  | bump =>
    rw [fresh (by simp)]
    exact working rfl (hlive.incrementRetry _ _) (by simp [DispatchPc.kind])
  | repend =>
    rw [fresh (by simp)]
    refine idle ?_ (by simp [DispatchPc.kind])
    cases d.mq <;> simp [DispatchPc.retryVia, DispatchPc.atWork, DispatchPc.kind, OpKind.atWork]
  | schedule | scheduleFail | scheduleUnencoded | fallback => cases hpc

theorem Phase.step_not_atWork {pcs : List DispatchPc} {w w' : World Bytes} {accepted : Bool}
    {k : Nat} {pc pc' : DispatchPc} {o : Outcome} (h : Phase id pcs w.table accepted)
    (hk : pcs[k]? = some pc) (hpc : ¬ pc.atWork)
    (hapart : pc.kind = some .getById →
      ∀ (j : Nat) (q : DispatchPc), j ≠ k → pcs[j]? = some q → ¬ q.atWork)
    (hs : DispatchStep d id o w pc w' pc') :
    Phase id (pcs.set k pc') w'.table accepted := by
  rw [hs.table_of_not_atWork hpc]
  have settled : ¬ pc'.atWork → Phase id (pcs.set k pc') w.table accepted :=
    h.set_of_not_atWork hk hpc
  cases hs with
  | load hn hlive =>
    cases h with
    | idle hidle hsent =>
      refine working_set hk (hapart rfl) rfl ⟨_, hn, hlive⟩ ?_
      simpa using fun hacc => RowLive.not_sent ⟨_, hn, hlive⟩ (hsent hacc)
    | working i q hi hq =>
      have hik : i ≠ k := by
        rintro rfl
        rw [hk] at hi
        cases hi
        exact hpc hq
      exact absurd hq (hapart rfl i q hik hi)
  | loadFail | loadTerminal | loadMissing | schedule | scheduleFail | scheduleUnencoded
  | fallback =>
    exact settled (by simp [DispatchPc.atWork, DispatchPc.kind, OpKind.atWork])
  | _ => exact absurd rfl hpc

/-- Every call is what is left of `dispatch(id)` somewhere, and the calls are in phase. -/
def Inv (d : Deployment Bytes) (id : Uuid) (s : OverlapState Bytes) : Prop :=
  ∃ pcs : List DispatchPc, s.calls = pcs.map (DispatchPc.prog d.mq id) ∧
    Phase id pcs s.world.table s.accepted

theorem step_eq_some {s s' : OverlapState Bytes} {pcs : List DispatchPc} {k : Nat} {o : Outcome}
    (hcalls : s.calls = pcs.map (DispatchPc.prog d.mq id))
    (h : (overlapSystem d id).step s (.step k o) = some s') :
    ∃ pc pc', pcs[k]? = some pc ∧ (pc.kind.any OpKind.repository → o = .ok) ∧
      DispatchStep d id o s.world pc s'.world pc' ∧
      s'.calls = (pcs.set k pc').map (DispatchPc.prog d.mq id) ∧
      s'.accepted = (s.accepted || (pc.kind = some .send && o.isText)) := by
  obtain ⟨p, hp, h⟩ := Option.bind_eq_some_iff.mp h
  rw [hcalls, List.getElem?_map, Option.map_eq_some_iff] at hp
  obtain ⟨pc, hk, rfl⟩ := hp
  rw [Option.ite_none_left_eq_some, Option.map_eq_some_iff] at h
  obtain ⟨hok, ⟨p', world⟩, hstep, rfl⟩ := h
  obtain ⟨pc', rfl, hs⟩ := dispatchStep_of_step hstep
  rw [DispatchPc.awaits_prog] at hok
  refine ⟨pc, pc', hk, ?_, hs, ?_, ?_⟩
  · intro hrepo
    by_contra hne
    exact hok ⟨hrepo, hne⟩
  · rw [hcalls, List.map_set]
  · simp only [DispatchPc.awaits_prog]

theorem apart_pcs {s : OverlapState Bytes} {pcs : List DispatchPc} {k : Nat} {o : Outcome}
    {pc : DispatchPc} (hcalls : s.calls = pcs.map (DispatchPc.prog d.mq id))
    (hk : pcs[k]? = some pc) (h : Apart s (.step k o)) (hkind : pc.kind = some .getById) :
    ∀ (j : Nat) (q : DispatchPc), j ≠ k → pcs[j]? = some q → ¬ q.atWork := by
  intro j q hj hq hwork
  refine h (pc.prog d.mq id) ?_ ?_ j (q.prog d.mq id) hj ?_ ?_
  · rw [hcalls, List.getElem?_map, hk]
    rfl
  · rw [DispatchPc.awaits_prog, hkind]
  · rw [hcalls, List.getElem?_map, hq]
    rfl
  · rw [NotiService.atWork, DispatchPc.awaits_prog]
    exact hwork

theorem inv_step {s s' : OverlapState Bytes} {l : OverlapLabel} (h : Inv d id s) (hok : Apart s l)
    (hstep : (overlapSystem d id).step s l = some s') : Inv d id s' := by
  obtain ⟨pcs, hcalls, hphase⟩ := h
  cases l with
  | start =>
    obtain rfl := Option.some.inj hstep
    exact ⟨pcs ++ [.load], by simp [hcalls, DispatchPc.prog], hphase.start⟩
  | step k o =>
    obtain ⟨pc, pc', hk, hrepo, hs, hcalls', hacc⟩ := step_eq_some hcalls hstep
    refine ⟨_, hcalls', ?_⟩
    rw [hacc]
    by_cases hpc : pc.atWork
    · exact hphase.step_atWork hk hpc hrepo hs
    · have hsend : pc.kind ≠ some .send := by
        intro hkind
        exact hpc (by simp [DispatchPc.atWork, hkind, OpKind.atWork])
      simpa [hsend] using (hphase.step_not_atWork hk hpc (apart_pcs hcalls hk hok) hs)
  | tick ms =>
    obtain rfl := Option.some.inj hstep
    exact ⟨pcs, hcalls, hphase⟩

theorem inv_reachable {s : OverlapState Bytes} (h : (overlapSystem d id).Reachable Apart s) :
    Inv d id s := by
  refine h.invariant ?_ fun s l t hinv hok hstep => inv_step hinv hok hstep
  rintro s ⟨hcalls, hacc⟩
  exact ⟨[], hcalls, .idle (by simp) (by simp [hacc])⟩

end Overlap

open Overlap

/-- While no call reads the row during another's work, an accepted notification is
not sent again and a row that is `Sent` is not written again. -/
theorem dispatch_sends_once (d : Deployment Bytes) (id : Uuid) (s t : OverlapState Bytes)
    (l : OverlapLabel) (h : (overlapSystem d id).Reachable Apart s)
    (hstep : (overlapSystem d id).step s l = some t) :
    (s.accepted → ¬ Sends s l) ∧
      ∀ n, s.world.table.getById id = some n → n.status = .sent →
        t.world.table.getById id = some n := by
  obtain ⟨pcs, hcalls, hphase⟩ := inv_reachable h
  cases l with
  | start =>
    obtain rfl := Option.some.inj hstep
    exact ⟨fun _ hsends => hsends, fun n hn _ => hn⟩
  | tick ms =>
    obtain rfl := Option.some.inj hstep
    exact ⟨fun _ hsends => hsends, fun n hn _ => hn⟩
  | step k o =>
    obtain ⟨pc, pc', hk, hrepo, hs, -, -⟩ := step_eq_some hcalls hstep
    constructor
    · rintro hacc ⟨p, hp, hkind⟩
      rw [hcalls, List.getElem?_map, hk] at hp
      cases hp
      rw [DispatchPc.awaits_prog] at hkind
      have hpc : pc.atWork := by simp [DispatchPc.atWork, hkind, OpKind.atWork]
      obtain ⟨ref, rfl⟩ := (hphase.of_atWork hk hpc).2.2.mp hacc
      cases hkind
    · intro n hn hsent
      have hpc : ¬ pc.atWork := fun hpc =>
        (hphase.of_atWork hk hpc).2.1.not_sent ⟨n, hn, hsent⟩
      rw [hs.table_of_not_atWork hpc, hn]

def OverlapState.start : OverlapState NotificationTask := ⟨.boot 0 Request.stored, [], false⟩

/-- One call sends the row and stores `Sent`; a second one finds it so. -/
theorem dispatch_sends_once_then_skips :
    ∃ s t, (overlapSystem (.plain true) ⟨1⟩).Reachable Apart s ∧ s.accepted = true ∧
      (overlapSystem (.plain true) ⟨1⟩).step s .start = some t ∧
      (s.accepted → ¬ Sends s .start) ∧
      ∀ n, s.world.table.getById ⟨1⟩ = some n → n.status = .sent →
        t.world.table.getById ⟨1⟩ = some n := by
  obtain ⟨s, hrun, hacc⟩ : ∃ s, (overlapSystem (.plain true) ⟨1⟩).runWhen
      (fun s _ => s.calls.length ≤ 1) .start
      [.start, .step 0 .ok, .step 0 .ok, .step 0 (.text "hello"), .step 0 (.text "ref"),
        .step 0 .ok] = some s ∧ s.accepted = true := ⟨_, rfl, rfl⟩
  have apart : ∀ (s : OverlapState NotificationTask) (l : OverlapLabel),
      decide (s.calls.length ≤ 1) = true → Apart s l := by
    intro s l hlen
    cases l with
    | step i o =>
      intro p hp _ j q hj hq
      have hi := (List.getElem?_eq_some_iff.mp hp).1
      have hj' := (List.getElem?_eq_some_iff.mp hq).1
      have := of_decide_eq_true hlen
      omega
    | _ => trivial
  have reach := (System.Reachable.start (s := OverlapState.start)
    (S := overlapSystem (.plain true) ⟨1⟩) ⟨rfl, rfl⟩).runWhen apart hrun
  exact ⟨s, _, reach, hacc, rfl, dispatch_sends_once (.plain true) ⟨1⟩ s _ .start reach rfl⟩

/-- Two calls read the row before either has sent: both send. -/
theorem dispatch_sends_twice :
    ∃ s l t, (overlapSystem (.plain true) ⟨1⟩).Reachable System.always s ∧
      (overlapSystem (.plain true) ⟨1⟩).step s l = some t ∧ s.accepted = true ∧ Sends s l := by
  obtain ⟨s, hrun, hacc, hsends, t, ht⟩ : ∃ s, (overlapSystem (.plain true) ⟨1⟩).run .start
      [.start, .start, .step 0 .ok, .step 1 .ok, .step 0 .ok, .step 1 .ok,
        .step 0 (.text "hello"), .step 0 (.text "ref"), .step 1 (.text "hello")] = some s ∧
      s.accepted = true ∧ Sends s (.step 1 (.text "ref")) ∧
      ∃ t, (overlapSystem (.plain true) ⟨1⟩).step s (.step 1 (.text "ref")) = some t :=
    ⟨_, rfl, rfl, ⟨_, rfl, rfl⟩, _, rfl⟩
  exact ⟨s, _, t, System.Reachable.run (.start ⟨rfl, rfl⟩) hrun, ht, hacc, hsends⟩

end NotiService
