import NotiService.DispatchSteps
import NotiService.QueueSteps

/-! What the steps do to the rows and the clock. A dispatch changes its own row only. The
retry count and the retry time of a row change where a retry is recorded, except that
the sweep makes a row it resets due at once. -/

namespace NotiService
open Foundation Orchestrator NotificationTable

variable {Bytes : Type} {d : Deployment Bytes} {id : Uuid} {o : Outcome} {w w' : World Bytes}

theorem TriggerStep.now_eq {pc pc' : TriggerPc} (h : TriggerStep d id o w pc w' pc') :
    w'.now = w.now := by
  cases h with
  | publishFail _ hf => cases hf <;> rfl
  | _ => rfl

theorem QueueStep.now_eq {r : Request} {pc pc' : QueuePc} (h : QueueStep d r o w pc w' pc') :
    w'.now = w.now := by
  cases h with
  | createFail _ hf => cases hf <;> rfl
  | trigger ht => exact ht.now_eq
  | _ => rfl

theorem RecoverStep.now_eq {pc pc' : RecoverPc} (h : RecoverStep d o w pc w' pc') :
    w'.now = w.now := by
  cases h with
  | resetFail hf => cases hf <;> rfl
  | trigger ht => exact ht.now_eq
  | triggered ht => exact ht.now_eq
  | _ => rfl

theorem DispatchStep.now_eq {pc pc' : DispatchPc} (h : DispatchStep d id o w pc w' pc') :
    w'.now = w.now := by
  cases h with
  | loadFail hf | markFail hf | giveUpFail hf | succeedFail hf | bumpFail hf | rependFail hf
  | scheduleFail _ hf => cases hf <;> rfl
  | _ => rfl

theorem DispatchStep.frame {pc pc' : DispatchPc} (h : DispatchStep d id o w pc w' pc') {k : Uuid}
    (hk : k ≠ id) : w'.table.getById k = w.table.getById k := by
  have hstatus : ∀ status error ref,
      (w.updateStatus id status error ref).table.getById k = w.table.getById k := by
    simp [hk]
  have hretry : ∀ t, (w.incrementRetry id t).table.getById k = w.table.getById k := by
    simp [hk]
  cases h with
  | mark | giveUp | succeed | repend => exact hstatus ..
  | bump => exact hretry _
  | markFail hf | giveUpFail hf | succeedFail hf | rependFail hf =>
    cases hf with
    | before => rfl
    | after => exact hstatus ..
  | bumpFail hf =>
    cases hf with
    | before => rfl
    | after => exact hretry _
  | loadFail hf | scheduleFail _ hf => cases hf <;> rfl
  | _ => rfl

/-- No retry of the row is recorded: its count stays, and its retry time stays or is
now. A row that is new has not been tried. -/
structure World.NoRetry (w w' : World Bytes) (id : Uuid) : Prop where
  kept : ∀ n, w.table.getById id = some n → ∃ n', w'.table.getById id = some n' ∧
    n'.retryCount = n.retryCount ∧ (n'.nextRetryAt = n.nextRetryAt ∨ n'.nextRetryAt = w.now)
  new : w.table.getById id = none → ∀ n', w'.table.getById id = some n' → n'.retryCount = 0

namespace World.NoRetry

theorem of_getById (h : w'.table.getById id = w.table.getById id) : w.NoRetry w' id :=
  ⟨fun n hn => ⟨n, h.trans hn, rfl, .inl rfl⟩, fun hnone n hn => by
    rw [h, hnone] at hn
    cases hn⟩

theorem of_table (h : w'.table = w.table) : w.NoRetry w' id :=
  of_getById (by rw [h])

theorem of_failed {e : NotiError} {w₁ : World Bytes} (hf : Failed e w w₁ o w')
    (h : w.NoRetry w₁ id) : w.NoRetry w' id := by
  cases hf with
  | before => exact of_table rfl
  | after => exact h

theorem updateStatus (w : World Bytes) (id : Uuid) (status : NotificationStatus)
    (error providerRef : Option String) (k : Uuid) :
    w.NoRetry (w.updateStatus id status error providerRef) k := by
  by_cases hk : k = id
  · subst hk
    refine ⟨fun n hn => ⟨withStatus w.now status error providerRef n, ?_, rfl, .inl rfl⟩,
      fun hnone n' hn' => ?_⟩
    · simp [hn]
    · simp [hnone] at hn'
  · exact of_getById (by simp [hk])

theorem resetStuckProcessing (w : World Bytes) (secs : Int) (k : Uuid) :
    w.NoRetry (w.resetStuckProcessing secs) k := by
  constructor
  · intro n hn
    refine ⟨if stuck w.now secs n then reset w.now n else n, ?_, ?_⟩
    · simp [World.resetStuckProcessing, getById_resetStuckProcessing, hn]
    split
    · exact ⟨rfl, .inr rfl⟩
    · exact ⟨rfl, .inl rfl⟩
  · intro hnone n' hn'
    simp [World.resetStuckProcessing, getById_resetStuckProcessing, hnone] at hn'

theorem create {n row : Notification} {table : NotificationTable}
    (h : w.table.create n = .ok (row, table)) (k : Uuid) : w.NoRetry { w with table } k := by
  rcases create_cases w.table n with ⟨_, existing, -, -, -, heq⟩ | ⟨-, hid, t', heq, -, hget⟩ |
    ⟨-, e, heq⟩
  · rw [heq] at h
    cases h
    exact of_table rfl
  · rw [heq] at h
    cases h
    by_cases hk : k = n.id
    · subst hk
      refine ⟨fun n' hn' => absurd hn' (by simp [hid]), fun _ n' hn' => ?_⟩
      have := (hget n.id).symm.trans hn'
      rw [if_pos rfl] at this
      rw [← Option.some.inj this]
      rfl
    · exact of_getById ((hget k).trans (if_neg hk))
  · rw [heq] at h
    cases h

end World.NoRetry

theorem QueueStep.noRetry {r : Request} {pc pc' : QueuePc} (h : QueueStep d r o w pc w' pc')
    (k : Uuid) : w.NoRetry w' k := by
  cases h with
  | create hc => exact .create hc k
  | createFail hc hf => exact .of_failed hf (.create hc k)
  | trigger ht => exact .of_table ht.table_eq
  | _ => exact .of_table rfl

theorem RecoverStep.noRetry {pc pc' : RecoverPc} (h : RecoverStep d o w pc w' pc') (k : Uuid) :
    w.NoRetry w' k := by
  cases h with
  | reset => exact .resetStuckProcessing w _ k
  | resetFail hf => exact .of_failed hf (.resetStuckProcessing w _ k)
  | trigger ht => exact .of_table ht.table_eq
  | triggered ht => exact .of_table ht.table_eq
  | _ => exact .of_table rfl

def RecordsRetry {α : Type} (p : Program Op α) (o : Outcome) : Prop :=
  awaits p = some .incrementRetry ∧ ∀ e, o ≠ .fail e

def DispatchPc.RecordsRetry (pc : DispatchPc) (o : Outcome) : Prop :=
  pc.kind = some .incrementRetry ∧ ∀ e, o ≠ .fail e

theorem DispatchStep.noRetry {pc pc' : DispatchPc} (h : DispatchStep d id o w pc w' pc') {k : Uuid}
    (hk : k = id → ¬ pc.RecordsRetry o) : w.NoRetry w' k := by
  by_cases hid : k = id
  · have hno := hk hid
    cases h with
    | mark | giveUp | succeed | repend => exact .updateStatus ..
    | markFail hf | giveUpFail hf | succeedFail hf | rependFail hf =>
      exact .of_failed hf (.updateStatus ..)
    | bump => exact absurd ⟨rfl, nofun⟩ hno
    | bumpFail hf =>
      cases hf with
      | before => exact .of_table rfl
      | after => exact absurd ⟨rfl, nofun⟩ hno
    | loadFail hf | scheduleFail _ hf => exact .of_failed hf (.of_table rfl)
    | _ => exact .of_table rfl
  · exact .of_getById (h.frame hid)

theorem DispatchStep.recordsRetry {pc pc' : DispatchPc} (h : DispatchStep d id o w pc w' pc')
    (hretry : pc.RecordsRetry o) : ∃ n e t, pc = .bump n e t ∧
      w' = w.incrementRetry id (t + delayMs (n.retryCount + 1)) ∧
      (pc' = .repend n e ∨ ∃ e', pc' = .done (.error e')) := by
  obtain ⟨hkind, hfail⟩ := hretry
  cases h with
  | bump => exact ⟨_, _, _, rfl, rfl, .inl rfl⟩
  | bumpFail hf =>
    cases hf with
    | before => exact absurd rfl (hfail _)
    | after => exact ⟨_, _, _, rfl, rfl, .inr ⟨_, rfl⟩⟩
  | _ => simp [DispatchPc.kind] at hkind

def World.RetriesGrow (w w' : World Bytes) : Prop :=
  ∀ k n, w.table.getById k = some n →
    ∃ n', w'.table.getById k = some n' ∧ n.retryCount ≤ n'.retryCount

theorem World.RetriesGrow.of_noRetry (h : ∀ k, w.NoRetry w' k) : w.RetriesGrow w' := by
  intro k n hn
  obtain ⟨n', hn', hcount, -⟩ := (h k).kept n hn
  exact ⟨n', hn', Int.le_of_eq hcount.symm⟩

theorem DispatchStep.retriesGrow {pc pc' : DispatchPc} (h : DispatchStep d id o w pc w' pc') :
    w.RetriesGrow w' := by
  by_cases hretry : pc.RecordsRetry o
  · obtain ⟨n, e, t, -, rfl, -⟩ := h.recordsRetry hretry
    intro k row hrow
    by_cases hk : k = id
    · subst hk
      refine ⟨withRetry w.now (t + delayMs (n.retryCount + 1)) row, ?_, ?_⟩
      · simp [hrow]
      · exact Int.le_add_of_nonneg_right (by decide)
    · exact ⟨row, by simp [hk, hrow], Int.le_refl _⟩
  · exact .of_noRetry fun k => h.noRetry fun _ => hretry

end NotiService
