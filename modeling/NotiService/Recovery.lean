import NotiService.QueueSteps
import Mathlib.Data.List.Perm.Subperm

/-! The boot sweep as one run of `recover_pending` over any database. Its rows are
those due when it selects and those it found stuck. It triggers as many of them as
its batch holds, each once: all of them when they fit, and some of them otherwise. -/

namespace NotiService
open Foundation Orchestrator NotificationTable

variable {Bytes : Type} {d : Deployment Bytes}

/-- Some time passes, then the call has its outcome. -/
def execAfter (d : Deployment Bytes) (i : Nat × Outcome) {β : Type} (op : Op β)
    (w : World Bytes) : Option (β × World Bytes) := exec d i.2 op (w.tick i.1)

theorem step_execAfter {α : Type} {i : Nat × Outcome} (p : Program Op α) (w : World Bytes) :
    Program.step (execAfter d i) p w = Program.step (exec d i.2) p (w.tick i.1) := by
  cases p <;> rfl

/-- Pending and due at `t₂`, or stuck in `Processing` at `t₁`. -/
def sweepable (t₁ t₂ secs : Int) (n : Notification) : Bool := due t₂ n || stuck t₁ secs n

def NotificationTable.sweepableRows (t : NotificationTable) (t₁ t₂ secs : Int) :
    List Notification := t.rows.filter (sweepable t₁ t₂ secs)

theorem dueRows_resetStuckProcessing (t : NotificationTable) {t₁ t₂ : Int} (secs : Int)
    (h : t₁ ≤ t₂) : ((t.resetStuckProcessing t₁ secs).dueRows t₂).map Notification.id =
      (t.sweepableRows t₁ t₂ secs).map Notification.id := by
  have hdue : ∀ n, due t₂ (if stuck t₁ secs n then reset t₁ n else n) =
      sweepable t₁ t₂ secs n := by
    intro n
    cases hs : stuck t₁ secs n with
    | false => simp [sweepable, hs]
    | true =>
      simp [sweepable, hs, due, reset, skewTolerance]
      omega
  have hid : ∀ n, (if stuck t₁ secs n then reset t₁ n else n).id = n.id := by
    intro n
    split <;> rfl
  show (((t.rows.map fun n => if stuck t₁ secs n then reset t₁ n else n).filter
    (due t₂)).map Notification.id) = _
  rw [List.filter_map, List.map_map]
  simp only [Function.comp_def, hdue, hid]
  rfl

theorem play_triggerPc {α : Type} {id : Uuid} {rest : Program Op (Except NotiError α)}
    (pc : TriggerPc) {script : List (Nat × Outcome)} {w w' : World Bytes}
    {r : Except NotiError α}
    (h : Program.play (execAfter d) (pc.prog d.mq id rest) script w = some (r, w')) :
    ∃ script' w₁, Program.play (execAfter d) rest script' w₁ = some (r, w') ∧
      w₁.triggered = w.triggered ++ (if pc = .enter then [id] else []) := by
  induction script generalizing pc w with
  | nil =>
    cases pc with
    | finished => exact ⟨[], w, h, by simp⟩
    | _ => cases h
  | cons i script ih =>
    by_cases hpc : pc = .finished
    · subst hpc
      exact ⟨_, w, h, by simp⟩
    · have hopen : (pc.prog d.mq id rest).isDone = false := by
        cases pc with
        | finished => exact absurd rfl hpc
        | _ => rfl
      obtain ⟨_, _, p, w₁, heq, hstep, hplay⟩ := Program.step_of_play _ hopen h
      cases heq
      rw [step_execAfter] at hstep
      obtain ⟨pc', rfl, hs⟩ := triggerStep_of_step hpc hstep
      obtain ⟨htriggered, hpc'⟩ := hs.triggered
      obtain ⟨script', w₂, hrest, hw₂⟩ := ih pc' hplay
      refine ⟨script', w₂, hrest, ?_⟩
      rw [hw₂, if_neg hpc', List.append_nil, htriggered]
      rfl

theorem play_loop {count : Nat} {due : List Notification} {script : List (Nat × Outcome)}
    {w w' : World Bytes} {r : Except NotiError Nat}
    (h : Program.play (execAfter d) ((RecoverPc.loop count due).prog d.mq) script w =
      some (r, w')) :
    r = .ok count ∧ w'.triggered = w.triggered ++ due.map Notification.id := by
  induction due generalizing script w with
  | nil =>
    obtain ⟨-, rfl, rfl⟩ := (Program.play_done_eq_some _).mp h
    exact ⟨rfl, by simp⟩
  | cons n due ih =>
    obtain ⟨script', w₁, hrest, hw₁⟩ := play_triggerPc .enter h
    rw [← RecoverPc.prog_loop] at hrest
    obtain ⟨hr, hw'⟩ := ih hrest
    refine ⟨hr, ?_⟩
    rw [hw', hw₁]
    simp

theorem play_recoverPending {secs limit : Int} {script : List (Nat × Outcome)}
    {w w' : World Bytes} {count : Nat}
    (h : Program.play (execAfter d) (recoverPending d.mq secs limit).run script w =
      some (.ok count, w')) :
    ∃ first second rest ids due, script = first :: second :: rest ∧
      (w.table.resetStuckProcessing (w.now + first.1) secs).getPendingForRetry
        (w.now + first.1 + second.1) limit ids = some due ∧
      count = due.length ∧ w'.triggered = w.triggered ++ due.map Notification.id := by
  obtain ⟨⟨ms₁, o₁⟩, _, p, w₁, rfl, hstep₁, h⟩ :=
    Program.step_of_play _ (p := (RecoverPc.reset secs limit).prog d.mq) rfl h
  rw [step_execAfter] at hstep₁
  obtain ⟨pc, rfl, hs₁⟩ := recoverStep_of_step
    (show (RecoverPc.reset secs limit).Normal from trivial)
    hstep₁
  cases hs₁ with
  | resetFail => cases ((Program.play_done_eq_some _).mp h).2.1
  | reset =>
    obtain ⟨⟨ms₂, o₂⟩, rest, p, w₂, rfl, hstep₂, h⟩ := Program.step_of_play _ rfl h
    rw [step_execAfter] at hstep₂
    obtain ⟨pc, rfl, hs₂⟩ := recoverStep_of_step (show (RecoverPc.select limit).Normal from trivial)
      hstep₂
    cases hs₂ with
    | selectFail => cases ((Program.play_done_eq_some _).mp h).2.1
    | select hdue =>
      obtain ⟨hcount, htriggered⟩ := play_loop h
      exact ⟨(ms₁, _), (ms₂, _), rest, _, _, rfl, hdue, Except.ok.inj hcount, htriggered⟩

/-- A sweep that returns has triggered each sweepable row once, and no other, just when its batch
holds them all. It triggers as many of them as the batch holds in any case. -/
theorem recoverPending_triggers (d : Deployment Bytes) (secs limit : Int)
    (script : List (Nat × Outcome)) (w w' : World Bytes) (count : Nat)
    (h : Program.play (execAfter d) (recoverPending d.mq secs limit).run script w =
      some (.ok count, w')) :
    ∃ first second rest t₁ t₂ ids, script = first :: second :: rest ∧ t₁ = w.now + first.1 ∧
      t₂ = t₁ + second.1 ∧ w'.triggered = w.triggered ++ ids ∧ count = ids.length ∧ ids.Nodup ∧
      (∀ id ∈ ids, id ∈ (w.table.sweepableRows t₁ t₂ secs).map Notification.id) ∧
      ids.length = min limit.toNat (w.table.sweepableRows t₁ t₂ secs).length ∧
      (ids.Perm ((w.table.sweepableRows t₁ t₂ secs).map Notification.id) ↔
        (w.table.sweepableRows t₁ t₂ secs).length ≤ limit.toNat) := by
  obtain ⟨first, second, rest, ids, due, hscript, hdue, rfl, htriggered⟩ := play_recoverPending h
  obtain ⟨rfl, hnodup, hfound, hlen⟩ := getPendingForRetry_eq_some hdue
  have hrows := dueRows_resetStuckProcessing w.table secs
    (show w.now + first.1 ≤ w.now + first.1 + second.1 by omega)
  have hrowsLen := congrArg List.length hrows
  simp only [List.length_map] at hrowsLen
  have hsub : due.map Notification.id ⊆ (w.table.sweepableRows (w.now + first.1)
      (w.now + first.1 + second.1) secs).map Notification.id := by
    intro id hid
    obtain ⟨n, hn, hndue⟩ := hfound id hid
    rw [← hrows]
    obtain rfl := id_of_getById hn
    exact List.mem_map_of_mem (mem_dueRows.mpr ⟨hn, hndue⟩)
  rw [hrowsLen] at hlen
  refine ⟨first, second, rest, _, _, _, hscript, rfl, rfl, htriggered, by simp, hnodup, hsub, hlen,
    fun hperm => ?_, fun hfits => ?_⟩
  · have hall := hperm.length_eq
    rw [hlen, List.length_map] at hall
    omega
  · refine (hnodup.subperm hsub).perm_of_length_le ?_
    rw [hlen, List.length_map]
    omega

def backlog : NotificationTable where
  table := ⟨[Request.sample.notification ⟨1⟩ 0 0 0, Request.sample.notification ⟨2⟩ 0 0 0],
    by decide⟩
  keysUnique := by simp [Request.notification, Request.sample]

/-- A batch of two holds the whole backlog. -/
theorem recoverPending_triggers_backlog :
    ∃ script w', Program.play (execAfter (.plain true)) (recoverPending true 300 2).run script
        (.boot 0 backlog) = some (.ok 2, w') ∧
      ∃ (first second : Nat × Outcome) (rest : List (Nat × Outcome)) (t₁ t₂ : Int)
        (ids : List Uuid), script = first :: second :: rest ∧ t₁ = 0 + first.1 ∧
        t₂ = t₁ + second.1 ∧ w'.triggered = [] ++ ids ∧ 2 = ids.length ∧ ids.Nodup ∧
        (∀ id ∈ ids, id ∈ (backlog.sweepableRows t₁ t₂ 300).map Notification.id) ∧
        ids.length = min (2 : Int).toNat (backlog.sweepableRows t₁ t₂ 300).length ∧
        (ids.Perm ((backlog.sweepableRows t₁ t₂ 300).map Notification.id) ↔
          (backlog.sweepableRows t₁ t₂ 300).length ≤ (2 : Int).toNat) := by
  obtain ⟨w', h⟩ : ∃ w', Program.play (execAfter (.plain true)) (recoverPending true 300 2).run
      [(0, .ok), (5, .rows [⟨2⟩, ⟨1⟩]), (0, .ok), (0, .ok), (0, .ok), (0, .ok)]
      (.boot 0 backlog) = some (.ok 2, w') := ⟨_, rfl⟩
  exact ⟨_, w', h, recoverPending_triggers (.plain true) 300 2 _ (.boot 0 backlog) w' 2 h⟩

/-- With a batch of one, the sweep returns and one of two due rows is left. -/
theorem recoverPending_leaves_backlog :
    ∃ script w', Program.play (execAfter (.plain true)) (recoverPending true 300 1).run script
        (.boot 0 backlog) = some (.ok 1, w') ∧
      ∃ n ∈ backlog.rows, due 0 n = true ∧ n.id ∉ w'.triggered := by
  obtain ⟨w', h, ht⟩ : ∃ w', Program.play (execAfter (.plain true))
      (recoverPending true 300 1).run [(0, .ok), (0, .rows [⟨1⟩]), (0, .ok), (0, .ok)]
      (.boot 0 backlog) = some (.ok 1, w') ∧ w'.triggered = [⟨1⟩] := ⟨_, rfl, rfl⟩
  refine ⟨_, w', h, Request.sample.notification ⟨2⟩ 0 0 0, .tail _ (.head _), by decide, ?_⟩
  rw [ht]
  decide

end NotiService
