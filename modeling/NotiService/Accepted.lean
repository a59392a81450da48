import NotiService.QueueSteps
import NotiService.Foundation.Slots
import NotiService.Foundation.Transition
import Mathlib.Data.List.InsertIdx

/-! Calls of `queue_notification` with one idempotency key, replayed, failed and dropped
at any await. A duplicate returns the id of the row it finds and takes it that the
call which inserted the row has triggered it. -/

namespace NotiService
open Foundation Orchestrator NotificationTable

variable {Bytes : Type}

structure AcceptedState (Bytes : Type) where
  world : World Bytes
  calls : List (Program Op (Except NotiError Uuid))

inductive AcceptedLabel where
  | request (r : Request)
  | step (i : Nat) (o : Outcome)
  | drop (i : Nat)
  | tick (ms : Nat)

def acceptedSystem (d : Deployment Bytes) (key : String) :
    System (AcceptedState Bytes) AcceptedLabel where
  init s := s.calls = [] ∧ s.world.table.getByIdempotencyKey key = none
  step s
    | .request r =>
      if r.idempotencyKey = some key then some { s with calls := s.calls ++ [r.prog d.mq] }
      else none
    | .step i o => s.calls[i]?.bind fun p =>
      (Program.step (exec d o) p s.world).map fun (p', world) =>
        { world, calls := s.calls.set i p' }
    | .drop i => s.calls[i]?.bind fun p =>
      if p.isDone then none else some { s with calls := s.calls.eraseIdx i }
    | .tick ms => some { s with world := s.world.tick ms }

/-- The call has inserted its row and not entered `trigger_dispatch` yet. -/
def Untriggered (p : Program Op (Except NotiError Uuid)) : Prop :=
  awaits p = some .setValue ∨ awaits p = some .enterTriggerDispatch

/-- The call that inserts the row is told so, is not dropped before it triggers, and no
other call is answered by `create` meanwhile. -/
def SeenThrough (key : String) (s : AcceptedState Bytes) : AcceptedLabel → Prop
  | .step i o => ∀ p, s.calls[i]? = some p → awaits p = some .create →
      (∀ e, o = .failAfter e → s.world.table.getByIdempotencyKey key ≠ none) ∧
      (o = .ok → ∀ q ∈ s.calls, ¬ Untriggered q)
  | .drop i => ∀ p, s.calls[i]? = some p → ¬ Untriggered p
  | _ => True

def AcceptedState.Triggered (s : AcceptedState Bytes) : Prop :=
  ∀ p ∈ s.calls, ∀ id, p.result = some (.ok id) → id ∈ s.world.triggered

namespace Accepted

variable {d : Deployment Bytes} {key : String}

def Holds (pc : QueuePc) (id : Uuid) : Prop :=
  (∃ k, pc = .cache id k) ∨ pc = .trigger id .enter

/-- What is known of a call of the key: what it asks for, and what it has done once
it is past the trigger. -/
def Sound (key : String) (triggered : List Uuid) (c : Request × QueuePc) : Prop :=
  c.1.idempotencyKey = some key ∧ match c.2 with
  | .create n => n.idempotencyKey = some key
  | .trigger id pc => pc ≠ .enter → id ∈ triggered
  | .done (.ok id) => id ∈ triggered
  | _ => True

/-- A stored row of the key has been triggered, or a call is about to trigger it. -/
structure Inv (d : Deployment Bytes) (key : String) (s : AcceptedState Bytes)
    (cs : List (Request × QueuePc)) : Prop where
  calls : s.calls = cs.map fun c => c.2.prog d.mq c.1
  sound : ∀ c ∈ cs, Sound key s.world.triggered c
  covered : ∀ row ∈ s.world.table.rows, row.idempotencyKey = some key →
    row.id ∈ s.world.triggered ∨ ∃ c ∈ cs, Holds c.2 row.id

theorem Sound.mono {t t' : List Uuid} (h : t ⊆ t') {c : Request × QueuePc} (hc : Sound key t c) :
    Sound key t' c := by
  obtain ⟨r, pc⟩ := c
  refine ⟨hc.1, ?_⟩
  have hpc := hc.2
  cases pc with
  | trigger id pc => exact fun hne => h (hpc hne)
  | done res =>
    cases res with
    | error e => trivial
    | ok id => exact h hpc
  | _ => exact hpc

theorem untriggered_iff (pc : QueuePc) (r : Request) :
    Untriggered (pc.prog d.mq r) ↔ ∃ id, Holds pc id := by
  rw [Untriggered, QueuePc.awaits_prog]
  cases pc with
  | trigger id pc => cases pc <;> simp [QueuePc.kind, TriggerPc.kind, Holds]
  | _ => simp [QueuePc.kind, Holds]

theorem Inv.set {s : AcceptedState Bytes} {cs : List (Request × QueuePc)} (h : Inv d key s cs)
    {i : Nat} {r : Request} {pc pc' : QueuePc} {w : World Bytes} (hi : cs[i]? = some (r, pc))
    (hsub : s.world.triggered ⊆ w.triggered) (hsound : Sound key w.triggered (r, pc'))
    (hheld : ∀ id, Holds pc id → id ∈ w.triggered ∨ Holds pc' id)
    (hrows : ∀ row ∈ w.table.rows, row.idempotencyKey = some key →
      row ∈ s.world.table.rows ∨ row.id ∈ w.triggered ∨ Holds pc' row.id) :
    Inv d key ⟨w, s.calls.set i (pc'.prog d.mq r)⟩ (cs.set i (r, pc')) where
  calls := by rw [h.calls, List.map_set]
  sound := Slots.forall_mem_set hsound fun c hc => (h.sound c hc).mono hsub
  covered := by
    intro row hrow hkey
    have new : Holds pc' row.id → ∃ c ∈ cs.set i (r, pc'), Holds c.2 row.id :=
      fun hholds => ⟨(r, pc'), Slots.mem_set_self hi, hholds⟩
    rcases hrows row hrow hkey with hold | htriggered | hholds
    · rcases h.covered row hold hkey with htriggered | hc
      · exact .inl (hsub htriggered)
      · rcases Slots.exists_mem_set hi hc with hholds | hc
        · exact (hheld row.id hholds).imp_right new
        · exact .inr hc
    · exact .inl htriggered
    · exact .inr (new hholds)

theorem Inv.queueStep {s : AcceptedState Bytes} {cs : List (Request × QueuePc)}
    (h : Inv d key s cs) {i : Nat} {r : Request} {pc pc' : QueuePc} {o : Outcome} {w : World Bytes}
    (hi : cs[i]? = some (r, pc)) (hok : SeenThrough key s (.step i o))
    (hs : QueueStep d r o s.world pc w pc') :
    Inv d key ⟨w, s.calls.set i (pc'.prog d.mq r)⟩ (cs.set i (r, pc')) := by
  have hr : r.idempotencyKey = some key := (h.sound _ (List.mem_of_getElem? hi)).1
  have hpc := (h.sound _ (List.mem_of_getElem? hi)).2
  have hcall : s.calls[i]? = some (pc.prog d.mq r) := by
    rw [h.calls, List.getElem?_map, hi]
    rfl
  have silent : (∀ id, ¬ Holds pc id) → w.table = s.world.table →
      w.triggered = s.world.triggered → Sound key s.world.triggered (r, pc') →
      Inv d key ⟨w, s.calls.set i (pc'.prog d.mq r)⟩ (cs.set i (r, pc')) := by
    intro hpc htable htriggered hsound
    refine h.set hi (by simp [htriggered]) (htriggered ▸ hsound)
      (fun id hid => absurd hid (hpc id)) fun row hrow _ => .inl (htable ▸ hrow)
  cases hs with
  | ident | clock | clock₂ => exact silent (by simp [Holds]) rfl rfl ⟨hr, trivial⟩
  | clock₃ => exact silent (by simp [Holds]) rfl rfl ⟨hr, hr⟩
  | createRefused => exact silent (by simp [Holds]) rfl rfl ⟨hr, trivial⟩
  | @create _ n row table hc =>
    have hn : n.idempotencyKey = some key := hpc
    rcases create_cases s.world.table n with ⟨k, existing, hk, hmem, hekey, heq⟩ |
      ⟨-, -, t', heq, hrows, -⟩ | ⟨-, e, heq⟩
    · rw [heq] at hc
      cases hc
      rw [hn] at hk
      cases hk
      have hsame : ∀ pc', Sound key s.world.triggered (r, pc') →
          Inv d key ⟨s.world, s.calls.set i (pc'.prog d.mq r)⟩ (cs.set i (r, pc')) :=
        fun pc' hsound => h.set hi (by simp) hsound (by simp [Holds]) fun row hrow _ => .inl hrow
      by_cases hid : row.id = n.id
      · rw [QueuePc.afterCreate_same hid hn]
        exact hsame _ ⟨hr, trivial⟩
      · rw [QueuePc.afterCreate_other hid]
        refine hsame _ ⟨hr, ?_⟩
        rcases h.covered row hmem hekey with htriggered | ⟨c, hc, hholds⟩
        · exact htriggered
        · have hq : c.2.prog d.mq c.1 ∈ s.calls := by
            rw [h.calls]
            exact List.mem_map_of_mem hc
          exact absurd ((untriggered_iff c.2 c.1).mpr ⟨_, hholds⟩)
            ((hok _ hcall (QueuePc.awaits_prog ..)).2 rfl _ hq)
    · rw [heq] at hc
      cases hc
      rw [QueuePc.afterCreate_same (show (insertedRow n).id = n.id from rfl) hn]
      refine h.set hi (by simp) ⟨hr, trivial⟩ (by simp [Holds]) ?_
      intro row hrow _
      rcases List.mem_append.mp ((hrows ▸ hrow : row ∈ s.world.table.rows ++ [insertedRow n]))
        with hold | hnew
      · exact .inl hold
      · rw [List.mem_singleton.mp hnew]
        exact .inr (.inr (.inl ⟨key, rfl⟩))
    · rw [heq] at hc
      cases hc
  | @createFail _ _ n row table e _ hc hf =>
    have hn : n.idempotencyKey = some key := hpc
    cases hf with
    | before => exact silent (by simp [Holds]) rfl rfl ⟨hr, trivial⟩
    | after =>
      rcases create_cases s.world.table n with ⟨k, existing, hk, hmem, hekey, heq⟩ |
        ⟨hnone, -, -⟩ | ⟨-, e, heq⟩
      · rw [heq] at hc
        cases hc
        exact silent (by simp [Holds]) rfl rfl ⟨hr, trivial⟩
      · exact absurd (getByIdempotencyKey_eq_none.mpr fun m hm => hnone m hm key hn)
          ((hok _ hcall (QueuePc.awaits_prog ..)).1 e rfl)
      · rw [heq] at hc
        cases hc
  | @cache _ _ id k =>
    refine h.set hi (by simp) ⟨hr, fun hne => absurd rfl hne⟩ ?_ fun row hrow _ => .inl hrow
    rintro id' (⟨k, hk⟩ | hk) <;> cases hk
    exact .inr (.inr rfl)
  | @trigger _ _ id pc _ pc' ht =>
    obtain ⟨htriggered, hpc'⟩ := ht.triggered
    have hid : id ∈ w.triggered := by
      rw [htriggered]
      by_cases henter : pc = .enter
      · simp [henter]
      · simp [hpc henter]
    refine h.set hi (by simp [htriggered]) ⟨hr, fun _ => hid⟩ ?_
      fun row hrow _ => .inl (ht.table_eq ▸ hrow)
    rintro id' (⟨k, hk⟩ | hk) <;> cases hk
    exact .inl hid

theorem inv_step {s s' : AcceptedState Bytes} {cs : List (Request × QueuePc)} {l : AcceptedLabel}
    (h : Inv d key s cs) (hok : SeenThrough key s l)
    (hstep : (acceptedSystem d key).step s l = some s') : ∃ cs', Inv d key s' cs' := by
  cases l with
  | request r =>
    obtain ⟨hr, hs⟩ := Option.ite_none_right_eq_some.mp hstep
    obtain rfl := Option.some.inj hs
    refine ⟨cs ++ [(r, .ident)], by simp [h.calls, QueuePc.prog], ?_, ?_⟩
    · intro c hc
      rcases List.mem_append.mp hc with hc | hc
      · exact h.sound c hc
      · rw [List.mem_singleton.mp hc]
        exact ⟨hr, trivial⟩
    · intro row hrow hkey
      refine (h.covered row hrow hkey).imp_right ?_
      rintro ⟨c, hc, hholds⟩
      exact ⟨c, List.mem_append_left _ hc, hholds⟩
  | step i o =>
    obtain ⟨p, hp, hmap⟩ := Option.bind_eq_some_iff.mp hstep
    obtain ⟨⟨p', w⟩, hprog, rfl⟩ := Option.map_eq_some_iff.mp hmap
    rw [h.calls, List.getElem?_map, Option.map_eq_some_iff] at hp
    obtain ⟨⟨r, pc⟩, hi, rfl⟩ := hp
    obtain ⟨pc', rfl, hs⟩ := queueStep_of_step hprog
    exact ⟨_, h.queueStep hi hok hs⟩
  | drop i =>
    obtain ⟨p, hp, hs⟩ := Option.bind_eq_some_iff.mp hstep
    obtain ⟨-, hs⟩ := Option.ite_none_left_eq_some.mp hs
    obtain rfl := Option.some.inj hs
    have hnot := hok p hp
    rw [h.calls, List.getElem?_map, Option.map_eq_some_iff] at hp
    obtain ⟨c, hi, rfl⟩ := hp
    refine ⟨cs.eraseIdx i, by simp [h.calls, List.eraseIdx_map], Slots.forall_mem_eraseIdx h.sound,
      ?_⟩
    intro row hrow hkey
    refine (h.covered row hrow hkey).imp_right fun hc => ?_
    rcases Slots.exists_mem_eraseIdx hi hc with hholds | hc
    · exact absurd ((untriggered_iff c.2 c.1).mpr ⟨_, hholds⟩) hnot
    · exact hc
  | tick ms =>
    obtain rfl := Option.some.inj hstep
    exact ⟨cs, h.calls, h.sound, h.covered⟩

theorem inv_reachable {s : AcceptedState Bytes}
    (h : (acceptedSystem d key).Reachable (SeenThrough key) s) : ∃ cs, Inv d key s cs := by
  refine h.invariant (P := fun s => ∃ cs, Inv d key s cs) ?_
    fun s l t ⟨cs, hinv⟩ hok hstep => inv_step hinv hok hstep
  rintro s ⟨hcalls, hnone⟩
  exact ⟨[], hcalls, by simp, fun row hrow hkey =>
    absurd hkey (getByIdempotencyKey_eq_none.mp hnone row hrow)⟩

theorem result_prog {pc : QueuePc} {r : Request} {id : Uuid}
    (h : (pc.prog d.mq r).result = some (.ok id)) :
    pc = .done (.ok id) ∨ pc = .trigger id .finished := by
  cases pc with
  | done res =>
    cases h
    exact .inl rfl
  | trigger id' pc =>
    cases pc with
    | finished =>
      cases h
      exact .inr rfl
    | _ => cases h
  | _ => cases h

end Accepted

/-- While every inserting call is seen through, what has been accepted has been
triggered. -/
theorem queueNotification_triggered (d : Deployment Bytes) (key : String) (s : AcceptedState Bytes)
    (h : (acceptedSystem d key).Reachable (SeenThrough key) s) : s.Triggered := by
  obtain ⟨cs, hinv⟩ := Accepted.inv_reachable h
  intro p hp id hresult
  rw [hinv.calls] at hp
  obtain ⟨⟨r, pc⟩, hc, rfl⟩ := List.mem_map.mp hp
  have hsound := (hinv.sound _ hc).2
  rcases Accepted.result_prog hresult with rfl | rfl
  · exact hsound
  · exact hsound (by simp)

def Request.keyed : Request := { Request.sample with idempotencyKey := some "key" }

def AcceptedState.start : AcceptedState NotificationTask := ⟨.boot 0 .empty, []⟩

instance (p : Program Op (Except NotiError Uuid)) : Decidable (Untriggered p) :=
  inferInstanceAs (Decidable (_ ∨ _))

def seenThrough (s : AcceptedState Bytes) : AcceptedLabel → Bool
  | .step i (.failAfter _) => s.calls[i]?.bind awaits ≠ some .create
  | .step i _ => s.calls[i]?.bind awaits ≠ some .create || s.calls.all fun q => ¬ Untriggered q
  | .drop _ => false
  | _ => true

theorem seenThrough_of_check {key : String} (s : AcceptedState Bytes) (l : AcceptedLabel)
    (h : seenThrough s l = true) : SeenThrough key s l := by
  cases l with
  | step i o =>
    intro p hp hcreate
    have hawaits : s.calls[i]?.bind awaits = some .create := by rw [hp, Option.bind_some, hcreate]
    unfold seenThrough at h
    split at h
    · next heq =>
      cases heq
      exact absurd hawaits (of_decide_eq_true h)
    · next hother heq =>
      cases heq
      have hall := (Bool.or_eq_true_iff.mp h).resolve_left fun hne =>
        absurd hawaits (of_decide_eq_true hne)
      refine ⟨fun e he => absurd he (hother e), fun _ q hq => ?_⟩
      exact of_decide_eq_true (List.all_eq_true.mp hall q hq)
    · next heq => cases heq
    · next _ hother heq => exact absurd rfl (hother i o)
  | drop i => cases h
  | _ => trivial

/-- A second call arrives while the first has stored its row and not triggered it, and finds the
row once that is done. -/
theorem queueNotification_triggered_duplicate :
    ∃ s, (acceptedSystem (.plain true) "key").Reachable (SeenThrough "key") s ∧
      s.calls.map Program.result = [some (.ok ⟨1⟩), some (.ok ⟨1⟩)] ∧ s.Triggered := by
  obtain ⟨s, hrun, hresult⟩ : ∃ s, (acceptedSystem (.plain true) "key").runWhen seenThrough .start
      [.request .keyed, .step 0 (.fresh ⟨1⟩), .step 0 .ok, .step 0 .ok, .step 0 .ok, .step 0 .ok,
        .request .keyed, .step 1 (.fresh ⟨2⟩), .step 1 .ok, .step 1 .ok, .step 1 .ok,
        .step 0 .ok, .step 0 .ok, .step 0 .ok, .step 1 .ok] = some s ∧
      s.calls.map Program.result = [some (.ok ⟨1⟩), some (.ok ⟨1⟩)] := ⟨_, rfl, rfl⟩
  have start : (acceptedSystem (.plain true) "key").Reachable (SeenThrough "key") .start :=
    System.Reachable.start ⟨rfl, rfl⟩
  have reach := start.runWhen seenThrough_of_check hrun
  exact ⟨s, reach, hresult, queueNotification_triggered (.plain true) "key" s reach⟩

/-- `create` commits and reports an error; the retry is told `Ok`, and nothing has been
triggered. -/
theorem queueNotification_not_triggered :
    ∃ s, (acceptedSystem (.plain true) "key").Reachable System.always s ∧ ¬ s.Triggered := by
  obtain ⟨s, hrun, hcalls, hworld⟩ : ∃ s, (acceptedSystem (.plain true) "key").run .start
      [.request .keyed, .step 0 (.fresh ⟨1⟩), .step 0 .ok, .step 0 .ok, .step 0 .ok,
        .step 0 (.failAfter (.database "connection reset")),
        .request .keyed, .step 1 (.fresh ⟨2⟩), .step 1 .ok, .step 1 .ok, .step 1 .ok,
        .step 1 .ok] = some s ∧
      s.calls = [.done (.error (.database "connection reset")), .done (.ok ⟨1⟩)] ∧
      s.world.triggered = [] := ⟨_, rfl, rfl, rfl⟩
  refine ⟨s, System.Reachable.run (.start ⟨rfl, rfl⟩) hrun, fun h => ?_⟩
  have := h (.done (.ok ⟨1⟩)) (by simp [hcalls]) ⟨1⟩ rfl
  simp [hworld] at this

end NotiService
