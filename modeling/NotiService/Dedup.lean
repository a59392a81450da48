import NotiService.RowHistory
import NotiService.Foundation.Slots

/-! A finite set of `queue_notification` calls racing each other, with every call of an
adapter succeeding. Of the calls with one key, the one that inserts the row owns it and
triggers it; the others return its id. What the calls of a key do is the same with the
other calls left out. -/

namespace NotiService
open Foundation Orchestrator NotificationTable

variable {Bytes : Type}

structure DedupState (Bytes : Type) where
  world : World Bytes
  calls : List (Program Op (Except NotiError Uuid))

inductive DedupLabel where
  | step (i : Nat) (o : Outcome)
  | tick (ms : Nat)

def dedupSystem (d : Deployment Bytes) (requests : List Request) :
    System (DedupState Bytes) DedupLabel where
  init s := s.calls = requests.map (Request.prog d.mq) ∧ s.world.triggered = [] ∧
    ∀ r ∈ requests, ∀ key, r.idempotencyKey = some key →
      s.world.table.getByIdempotencyKey key = none
  step s
    | .step i o => s.calls[i]?.bind fun p =>
      (Program.step (exec d o) p s.world).map fun (p', world) =>
        { world, calls := s.calls.set i p' }
    | .tick ms => some { s with world := s.world.tick ms }

def DedupLabel.succeeds : DedupLabel → Prop
  | .step _ o => o.failed = false
  | .tick _ => True

def DedupLabel.ofKey (requests : List Request) (key : String) : DedupLabel → Bool
  | .step i _ => (requests[i]?.bind Request.idempotencyKey) = some key
  | .tick _ => true

def DedupState.result (s : DedupState Bytes) (i : Nat) : Option (Except NotiError Uuid) :=
  s.calls[i]?.bind Program.result

def NotificationTable.rowsOf (t : NotificationTable) (key : String) : List Notification :=
  t.rows.filter fun n => n.idempotencyKey = some key

namespace Dedup

/-- The id a call has been given for its row, unless it has found another's. -/
def owns : QueuePc → Option Uuid
  | .clock id | .clock₂ id _ | .clock₃ id _ _ => some id
  | .create n => some n.id
  | .cache id _ | .trigger id _ => some id
  | .ident | .done _ => none

def Stored (w : World Bytes) (r : Request) (id : Uuid) : Prop :=
  id ∈ w.issued ∧ ∃ t t' t'', w.table.getById id = some (r.notification id t t' t'')

def Unused (w : World Bytes) (id : Uuid) : Prop :=
  id ∈ w.issued ∧ w.table.getById id = none ∧ w.triggered.count id = 0

def Stage (w : World Bytes) (r : Request) : QueuePc → Prop
  | .ident => True
  | .clock id | .clock₂ id _ | .clock₃ id _ _ => Unused w id
  | .create n => Unused w n.id ∧ ∃ t t' t'', n = r.notification n.id t t' t''
  | .cache id _ => Stored w r id ∧ w.triggered.count id = 0
  | .trigger id pc => Stored w r id ∧ w.triggered.count id = if pc = .enter then 0 else 1
  | .done (.ok id) => ∃ key row, r.idempotencyKey = some key ∧
      w.table.getById id = some row ∧ row.idempotencyKey = some key
  | .done (.error _) => False

/-- A step leaves what is stored and what does not concern the ids of `mine`. -/
structure Leaves (w w' : World Bytes) (mine : Uuid → Prop) : Prop where
  issued : w.issued ⊆ w'.issued
  rows : ∀ id n, w.table.getById id = some n → w'.table.getById id = some n
  absent : ∀ id, ¬ mine id → w.table.getById id = none → w'.table.getById id = none
  count : ∀ id, ¬ mine id → w'.triggered.count id = w.triggered.count id

theorem Leaves.refl (w : World Bytes) (mine : Uuid → Prop) : Leaves w w mine :=
  ⟨fun _ h => h, fun _ _ h => h, fun _ _ h => h, fun _ _ => rfl⟩

theorem Stage.of_leaves {w w' : World Bytes} {r : Request} {pc : QueuePc}
    {mine : Uuid → Prop} (h : Stage w r pc) (hl : Leaves w w' mine)
    (hmine : ∀ id, owns pc = some id → ¬ mine id) : Stage w' r pc := by
  have unused : ∀ {id}, owns pc = some id → Unused w id → Unused w' id := fun ho hu =>
    ⟨hl.issued hu.1, hl.absent _ (hmine _ ho) hu.2.1, (hl.count _ (hmine _ ho)).trans hu.2.2⟩
  have stored : ∀ {id}, Stored w r id → Stored w' r id := fun ⟨hi, t, t', t'', hget⟩ =>
    ⟨hl.issued hi, t, t', t'', hl.rows _ _ hget⟩
  cases pc with
  | ident => trivial
  | clock | clock₂ | clock₃ => exact unused rfl h
  | create => exact ⟨unused rfl h.1, h.2⟩
  | cache => exact ⟨stored h.1, (hl.count _ (hmine _ rfl)).trans h.2⟩
  | trigger => exact ⟨stored h.1, (hl.count _ (hmine _ rfl)).trans h.2⟩
  | done res =>
    cases res with
    | error => exact h
    | ok id =>
      obtain ⟨key, row, hr, hget, hkey⟩ := h
      exact ⟨key, row, hr, hl.rows _ _ hget, hkey⟩

section Step

variable {d : Deployment Bytes} {r : Request} {o : Outcome} {w w' : World Bytes} {pc pc' : QueuePc}

theorem create_unused {n row : Notification} {table : NotificationTable}
    (hn : w.table.getById n.id = none) (h : w.table.create n = .ok (row, table)) :
    (∃ key, n.idempotencyKey = some key ∧ row.idempotencyKey = some key ∧
      w.table.getById row.id = some row ∧ row.id ≠ n.id ∧ table = w.table) ∨
    ((∀ m ∈ w.table.rows, ∀ key, n.idempotencyKey = some key → m.idempotencyKey ≠ some key) ∧
      row = insertedRow n ∧ table.rows = w.table.rows ++ [row] ∧
      ∀ k, table.getById k = if k = n.id then some row else w.table.getById k) := by
  rcases create_cases w.table n with ⟨key, existing, hkey, hmem, hekey, heq⟩ |
    ⟨hfresh, -, table', heq, hrows, hget⟩ | ⟨hne, -⟩
  · rw [heq] at h
    cases h
    have hstored := mem_rows_iff.mp hmem
    refine .inl ⟨key, hkey, hekey, hstored, ?_, rfl⟩
    intro hid
    rw [hid, hn] at hstored
    cases hstored
  · rw [heq] at h
    cases h
    exact .inr ⟨hfresh, rfl, hrows, hget⟩
  · exact absurd hn hne

theorem create_ne_error {n : Notification} {e : NotiError} (hn : w.table.getById n.id = none) :
    w.table.create n ≠ .error e := by
  intro hc
  rcases create_cases w.table n with ⟨_, _, -, -, -, heq⟩ | ⟨-, -, _, heq, -⟩ | ⟨hne, -⟩
  · rw [heq] at hc
    cases hc
  · rw [heq] at hc
    cases hc
  · exact absurd hn hne

/-- One step of a call: where it leads, and that it leaves the other calls alone. -/
structure Advances (r : Request) (w : World Bytes) (pc : QueuePc) (w' : World Bytes)
    (pc' : QueuePc) : Prop where
  stage : Stage w' r pc'
  leaves : Leaves w w' fun id => owns pc = some id
  issued : w'.triggered ⊆ w'.issued
  claimed : ∀ id, owns pc' = some id → owns pc = some id ∨ id ∉ w.issued
  rows : ∀ row ∈ w'.table.rows, owns pc' = some row.id ∨
    (row ∈ w.table.rows ∧ owns pc ≠ some row.id)

theorem advances_ident {id : Uuid} (hissued : w.triggered ⊆ w.issued) (hnew : id ∉ w.issued)
    (hnone : w.table.getById id = none) :
    Advances r w .ident { w with issued := id :: w.issued } (.clock id) where
  stage := ⟨List.mem_cons_self .., hnone, List.count_eq_zero.mpr fun hm => hnew (hissued hm)⟩
  leaves := ⟨fun _ hm => List.mem_cons_of_mem _ hm, fun _ _ h => h, fun _ _ h => h, fun _ _ => rfl⟩
  issued _ hm := List.mem_cons_of_mem _ (hissued hm)
  claimed _ hk := .inr (Option.some.inj hk ▸ hnew)
  rows _ hrow := .inr ⟨hrow, nofun⟩

theorem Advances.of_same (hissued : w.triggered ⊆ w.issued) (hstage : Stage w r pc')
    (howns : owns pc' = owns pc) : Advances r w pc w pc' where
  stage := hstage
  leaves := .refl w _
  issued := hissued
  claimed _ hid := .inl (howns ▸ hid)
  rows row hrow := by
    by_cases hid : owns pc = some row.id
    · exact .inl (howns.trans hid)
    · exact .inr ⟨hrow, hid⟩

theorem advances_create {n row : Notification} {table : NotificationTable}
    (hissued : w.triggered ⊆ w.issued) (h : Stage w r (.create n))
    (hc : w.table.create n = .ok (row, table)) :
    Advances r w (.create n) { w with table } (.afterCreate n (.ok row)) := by
  obtain ⟨⟨hgiven, hnone, hcount⟩, t, t', t'', hn⟩ := h
  have unstored : ∀ m, w.table.getById n.id ≠ some m := by
    intro m hm
    rw [hnone] at hm
    cases hm
  rcases create_unused hnone hc with ⟨key, hkey, hrkey, hget, hne, rfl⟩ | ⟨-, hrow, hrows, hget⟩
  · rw [QueuePc.afterCreate_other hne]
    have hreq : r.idempotencyKey = n.idempotencyKey := by
      rw [hn]
      rfl
    refine ⟨⟨key, row, hreq.trans hkey, hget, hrkey⟩, .refl w _, hissued, nofun,
      fun m hm => .inr ⟨hm, fun hid => ?_⟩⟩
    have hstored := mem_rows_iff.mp hm
    rw [← Option.some.inj hid] at hstored
    exact unstored m hstored
  · have hrown : row = n := by
      rw [hrow, hn]
      rfl
    subst hrown
    have hstored : Stored { w with table } r row.id := by
      refine ⟨hgiven, t, t', t'', ?_⟩
      show table.getById row.id = _
      rw [hget, if_pos rfl, ← hn]
    have hsame : ∀ id, id ≠ row.id → table.getById id = w.table.getById id := by
      intro id hid
      rw [hget, if_neg hid]
    have howns : owns (.afterCreate row (.ok row)) = some row.id := by
      cases hkey : row.idempotencyKey <;> simp [QueuePc.afterCreate, hkey, owns]
    refine ⟨?_, ⟨fun _ h => h, fun id m hm => ?_, fun id hid hnone' => ?_, fun _ _ => rfl⟩,
      hissued, fun id hid => .inl (howns.symm.trans hid), fun m hm => ?_⟩
    · cases hkey : row.idempotencyKey with
      | none =>
        simp only [QueuePc.afterCreate, hkey, if_pos]
        exact ⟨hstored, hcount⟩
      | some key =>
        rw [QueuePc.afterCreate_same rfl hkey]
        exact ⟨hstored, hcount⟩
    · refine (hsame id ?_).trans hm
      rintro rfl
      exact unstored m hm
    · refine (hsame id ?_).trans hnone'
      rintro rfl
      exact hid rfl
    · change m ∈ table.rows at hm
      rw [hrows] at hm
      rcases List.mem_append.mp hm with hm | hm
      · refine .inr ⟨hm, fun hid => ?_⟩
        have hm' := mem_rows_iff.mp hm
        rw [← Option.some.inj hid] at hm'
        exact unstored m hm'
      · rw [List.mem_singleton.mp hm]
        exact .inl howns

theorem advances_trigger {id : Uuid} {tpc tpc' : TriggerPc} (hissued : w.triggered ⊆ w.issued)
    (h : Stage w r (.trigger id tpc)) (ht : TriggerStep d id o w tpc w' tpc') :
    Advances r w (.trigger id tpc) w' (.trigger id tpc') := by
  obtain ⟨⟨hgiven, t, t', t'', hget⟩, hcount⟩ := h
  obtain ⟨htriggered, hne⟩ := ht.triggered
  have htable := ht.table_eq
  have hsame := ht.issued_eq
  refine ⟨⟨⟨hsame ▸ hgiven, t, t', t'', by rw [htable, hget]⟩, ?_⟩,
    ⟨fun k hk => hsame ▸ hk, fun k m hm => by rw [htable, hm],
      fun k _ hk => by rw [htable, hk], fun k hk => ?_⟩, fun k hk => ?_, fun k hk => .inl hk,
    fun m hm => ?_⟩
  · rw [htriggered, if_neg hne, List.count_append, hcount]
    by_cases he : tpc = .enter <;> simp [he]
  · have hik : k ≠ id := fun e => hk (e ▸ rfl)
    rw [htriggered, List.count_append]
    by_cases he : tpc = .enter <;> simp [he, Ne.symm hik]
  · rw [htriggered] at hk
    rw [hsame]
    rcases List.mem_append.mp hk with hk | hk
    · exact hissued hk
    · by_cases he : tpc = .enter
      · rw [if_pos he, List.mem_singleton] at hk
        rw [hk]
        exact hgiven
      · rw [if_neg he] at hk
        cases hk
  · rw [htable] at hm
    by_cases hid : id = m.id
    · exact .inl (congrArg some hid)
    · exact .inr ⟨hm, fun h => hid (Option.some.inj h)⟩

theorem advances_step (h : Stage w r pc) (hissued : w.triggered ⊆ w.issued)
    (hok : o.failed = false) (hs : QueueStep d r o w pc w' pc') : Advances r w pc w' pc' := by
  cases hs with
  | ident hnew hnone => exact advances_ident hissued hnew hnone
  | clock | clock₂ => exact .of_same hissued h rfl
  | clock₃ => exact .of_same hissued ⟨h, _, _, _, rfl⟩ rfl
  | create hc => exact advances_create hissued h hc
  | createFail _ hf => exact absurd hf.failed (by simp [hok])
  | createRefused hc => exact absurd hc (create_ne_error h.1.2.1)
  | cache => exact .of_same hissued ⟨h.1, h.2⟩ rfl
  | trigger ht => exact advances_trigger hissued h ht

end Step

/-- The calls with the points they stand at; no two own one id, and every row with a key
of the set has an owner among them. -/
structure Inv (d : Deployment Bytes) (requests : List Request) (s : DedupState Bytes)
    (cs : List (Request × QueuePc)) : Prop where
  calls : s.calls = cs.map fun c => c.2.prog d.mq c.1
  asked : cs.map Prod.fst = requests
  stage : ∀ c ∈ cs, Stage s.world c.1 c.2
  issued : s.world.triggered ⊆ s.world.issued
  apart : ∀ (i j : Nat) (c c' : Request × QueuePc) (id : Uuid), cs[i]? = some c →
    cs[j]? = some c' → owns c.2 = some id → owns c'.2 = some id → i = j
  inserted : ∀ row ∈ s.world.table.rows, ∀ r ∈ requests, ∀ key, r.idempotencyKey = some key →
    row.idempotencyKey = some key → ∃ c ∈ cs, owns c.2 = some row.id

theorem Stage.given {w : World Bytes} {r : Request} {pc : QueuePc} {id : Uuid} (h : Stage w r pc)
    (hid : owns pc = some id) : id ∈ w.issued := by
  cases pc with
  | ident | done => cases hid
  | clock | clock₂ | clock₃ => exact Option.some.inj hid ▸ h.1
  | create | cache | trigger => exact Option.some.inj hid ▸ h.1.1

variable {d : Deployment Bytes} {requests : List Request} {s t : DedupState Bytes}
  {cs : List (Request × QueuePc)}

theorem inv_start (h : (dedupSystem d requests).init s) :
    Inv d requests s (requests.map fun r => (r, .ident)) := by
  obtain ⟨hcalls, htriggered, hnew⟩ := h
  have ident : ∀ {i : Nat} {c : Request × QueuePc},
      (requests.map fun r => (r, QueuePc.ident))[i]? = some c → owns c.2 = none := by
    intro i c hc
    obtain ⟨r, -, rfl⟩ := Option.map_eq_some_iff.mp ((List.getElem?_map ..).symm.trans hc)
    rfl
  refine ⟨by simp [hcalls, QueuePc.prog, Function.comp_def], by simp [Function.comp_def],
    ?_, by simp [htriggered], ?_, ?_⟩
  · intro c hc
    obtain ⟨r, -, rfl⟩ := List.mem_map.mp hc
    trivial
  · intro i j c c' id hc _ hid
    rw [ident hc] at hid
    cases hid
  · intro row hrow r hr key hkey hrow'
    exact absurd hrow' (getByIdempotencyKey_eq_none.mp (hnew r hr key hkey) row hrow)

theorem Inv.set {i : Nat} {r : Request} {pc pc' : QueuePc} {w : World Bytes}
    (h : Inv d requests s cs) (hi : cs[i]? = some (r, pc)) (hs : Advances r s.world pc w pc') :
    Inv d requests ⟨w, s.calls.set i (pc'.prog d.mq r)⟩ (cs.set i (r, pc')) := by
  have hlt := (List.getElem?_eq_some_iff.mp hi).1
  have other : ∀ {j : Nat} {c : Request × QueuePc}, (cs.set i (r, pc'))[j]? = some c →
      (j = i ∧ c = (r, pc')) ∨ (j ≠ i ∧ cs[j]? = some c) := by
    intro j c hc
    by_cases hj : j = i
    · subst hj
      rw [List.getElem?_set_self hlt] at hc
      exact .inl ⟨rfl, (Option.some.inj hc).symm⟩
    · rw [List.getElem?_set_ne (Ne.symm hj)] at hc
      exact .inr ⟨hj, hc⟩
  have foreign : ∀ {j : Nat} {c : Request × QueuePc} {id : Uuid}, j ≠ i → cs[j]? = some c →
      owns c.2 = some id → owns pc' ≠ some id := by
    intro j c id hj hc hid hown
    rcases hs.claimed id hown with hmine | hnew
    · exact hj (h.apart j i c _ id hc hi hid hmine)
    · exact hnew ((h.stage c (List.mem_of_getElem? hc)).given hid)
  refine ⟨by rw [h.calls, List.map_set], ?_, fun c hc => ?_, hs.issued, ?_, ?_⟩
  · have hr : (cs.map Prod.fst)[i]? = some r := by
      rw [List.getElem?_map, hi]
      rfl
    obtain ⟨hlt', hget⟩ := List.getElem?_eq_some_iff.mp hr
    rw [List.map_set, ← h.asked]
    exact (congrArg _ hget.symm).trans (List.set_getElem_self hlt')
  · obtain ⟨j, hj⟩ := List.mem_iff_getElem?.mp hc
    rcases other hj with ⟨-, rfl⟩ | ⟨hne, hj⟩
    · exact hs.stage
    · exact (h.stage c (List.mem_of_getElem? hj)).of_leaves hs.leaves fun id hid hmine =>
        hne (h.apart j i c _ id hj hi hid hmine)
  · intro j k c c' id hj hk hid hid'
    rcases other hj with ⟨hji, rfl⟩ | ⟨hji, hj'⟩ <;> rcases other hk with ⟨hki, rfl⟩ | ⟨hki, hk'⟩
    · exact hji.trans hki.symm
    · exact absurd hid (foreign hki hk' hid')
    · exact absurd hid' (foreign hji hj' hid)
    · exact h.apart j k c c' id hj' hk' hid hid'
  · intro row hrow r' hr' key hkey hrkey
    rcases hs.rows row hrow with hown | ⟨hold, hne⟩
    · exact ⟨(r, pc'), Slots.mem_set_self hi, hown⟩
    · obtain ⟨c, hc, hid⟩ := h.inserted row hold r' hr' key hkey hrkey
      obtain ⟨j, hj⟩ := List.mem_iff_getElem?.mp hc
      have hji : j ≠ i := by
        rintro rfl
        rw [hi] at hj
        cases hj
        exact hne hid
      exact ⟨c, List.mem_of_getElem? (by rw [List.getElem?_set_ne (Ne.symm hji), hj]), hid⟩

theorem step_cases {l : DedupLabel} (h : Inv d requests s cs) (hok : l.succeeds)
    (hs : (dedupSystem d requests).step s l = some t) :
    (∃ ms, l = .tick ms ∧ t = { s with world := s.world.tick ms }) ∨
      ∃ i o r pc w pc', l = .step i o ∧ cs[i]? = some (r, pc) ∧
        QueueStep d r o s.world pc w pc' ∧ Advances r s.world pc w pc' ∧
        (∀ id key, pc = .cache id key → o = .ok) ∧
        t = ⟨w, s.calls.set i (pc'.prog d.mq r)⟩ := by
  cases l with
  | tick ms =>
    cases hs
    exact .inl ⟨ms, rfl, rfl⟩
  | step i o =>
    right
    obtain ⟨p, hp, hs⟩ := Option.bind_eq_some_iff.mp hs
    obtain ⟨⟨p', w⟩, hstep, rfl⟩ := Option.map_eq_some_iff.mp hs
    rw [h.calls] at hp
    obtain ⟨⟨r, pc⟩, hi, rfl⟩ := Option.map_eq_some_iff.mp ((List.getElem?_map ..).symm.trans hp)
    have hcache : ∀ id key, pc = .cache id key → o = .ok := by
      rintro id key rfl
      exact QueuePc.ok_of_cache hstep hok
    obtain ⟨pc', rfl, hq⟩ := queueStep_of_step hstep
    exact ⟨i, o, r, pc, w, pc', rfl, hi, hq,
      advances_step (h.stage _ (List.mem_of_getElem? hi)) h.issued hok hq, hcache, rfl⟩

theorem Inv.step {l : DedupLabel} (h : Inv d requests s cs) (hok : l.succeeds)
    (hs : (dedupSystem d requests).step s l = some t) : ∃ cs', Inv d requests t cs' := by
  rcases step_cases h hok hs with ⟨ms, rfl, rfl⟩ | ⟨i, o, r, pc, w, pc', rfl, hi, -, hadv, -, rfl⟩
  · have hleaves : Leaves s.world (s.world.tick ms) fun _ => False :=
      ⟨fun _ h => h, fun _ _ h => h, fun _ _ h => h, fun _ _ => rfl⟩
    exact ⟨cs, h.calls, h.asked,
      fun c hc => (h.stage c hc).of_leaves hleaves fun _ _ hf => hf, h.issued, h.apart,
      h.inserted⟩
  · exact ⟨_, h.set hi hadv⟩

theorem inv_run {s₀ : DedupState Bytes} {ls : List DedupLabel}
    (h₀ : (dedupSystem d requests).init s₀) (hls : ∀ l ∈ ls, l.succeeds)
    (hrun : (dedupSystem d requests).run s₀ ls = some s) : ∃ cs, Inv d requests s cs :=
  System.run_invariant (P := fun s => ∃ cs, Inv d requests s cs)
    (fun _ _ _ ⟨_, hcs⟩ hok hs => hcs.step hok hs) ⟨_, inv_start h₀⟩ hls hrun

theorem Inv.finished (h : Inv d requests s cs) {i : Nat} {r : Request} {pc : QueuePc}
    (hi : cs[i]? = some (r, pc)) (hdone : (pc.prog d.mq r).isDone) :
    (∃ id t t' t'', s.result i = some (.ok id) ∧ owns pc = some id ∧
      s.world.table.getById id = some (r.notification id t t' t'') ∧
      s.world.triggered.count id = 1) ∨
    ∃ id key row, s.result i = some (.ok id) ∧ r.idempotencyKey = some key ∧
      s.world.table.getById id = some row ∧ row.idempotencyKey = some key := by
  have hresult : s.result i = (pc.prog d.mq r).result := by
    rw [DedupState.result, h.calls, List.getElem?_map, hi]
    rfl
  have hst := h.stage _ (List.mem_of_getElem? hi)
  rcases QueuePc.of_isDone d.mq r hdone with ⟨res, rfl⟩ | ⟨id, rfl⟩
  · cases res with
    | error e => exact hst.elim
    | ok id =>
      obtain ⟨key, row, hr, hget, hkey⟩ := hst
      exact .inr ⟨id, key, row, hresult, hr, hget, hkey⟩
  · obtain ⟨⟨-, t, t', t'', hget⟩, hcount⟩ := hst
    exact .inl ⟨id, t, t', t'', hresult, rfl, hget, hcount⟩

theorem Inv.getElem?_eq (h : Inv d requests s cs) {i : Nat} {r : Request}
    (hr : requests[i]? = some r) : ∃ pc, cs[i]? = some (r, pc) := by
  rw [← h.asked, List.getElem?_map] at hr
  obtain ⟨⟨r', pc⟩, hi, rfl⟩ := Option.map_eq_some_iff.mp hr
  exact ⟨pc, hi⟩

theorem Inv.isDone (h : Inv d requests s cs) (hdone : ∀ p ∈ s.calls, p.isDone) {i : Nat}
    {r : Request} {pc : QueuePc} (hi : cs[i]? = some (r, pc)) : (pc.prog d.mq r).isDone := by
  refine hdone _ ?_
  rw [h.calls]
  exact List.mem_map_of_mem (f := fun c => c.2.prog d.mq c.1) (List.mem_of_getElem? hi)

theorem Inv.keyed (h : Inv d requests s cs) (hdone : ∀ p ∈ s.calls, p.isDone) {key : String}
    {r : Request} (hr : r ∈ requests) (hkey : r.idempotencyKey = some key) :
    ∃ row ∈ s.world.table.rows, row.idempotencyKey = some key ∧
      (∀ row' ∈ s.world.table.rows, row'.idempotencyKey = some key → row' = row) ∧
      s.world.triggered.count row.id = 1 ∧
      ∀ (i : Nat) r', requests[i]? = some r' → r'.idempotencyKey = some key →
        s.result i = some (.ok row.id) := by
  have found : ∀ (i : Nat) r', requests[i]? = some r' → r'.idempotencyKey = some key →
      ∃ row ∈ s.world.table.rows, row.idempotencyKey = some key ∧
        s.result i = some (.ok row.id) := by
    intro i r' hi hkey'
    obtain ⟨pc, hc⟩ := h.getElem?_eq hi
    rcases h.finished hc (h.isDone hdone hc) with
      ⟨id, t, t', t'', hres, -, hget, -⟩ | ⟨id, key', row, hres, hrkey, hget, hrow⟩
    · exact ⟨r'.notification id t t' t'', mem_rows_iff.mpr hget, hkey', hres⟩
    · obtain rfl := id_of_getById hget
      exact ⟨row, mem_rows_iff.mpr hget, hrow.trans (hrkey.symm.trans hkey'), hres⟩
  obtain ⟨i, hi⟩ := List.mem_iff_getElem?.mp hr
  obtain ⟨row, hrow, hrkey, -⟩ := found i r hi hkey
  have unique : ∀ row' ∈ s.world.table.rows, row'.idempotencyKey = some key → row' = row :=
    fun row' hrow' hrkey' => s.world.table.keysUnique row' hrow' row hrow key hrkey' hrkey
  refine ⟨row, hrow, hrkey, unique, ?_, fun i r' hi hkey' => ?_⟩
  · obtain ⟨⟨r', pc⟩, hc, hown⟩ := h.inserted row hrow r hr key hkey hrkey
    obtain ⟨j, hj⟩ := List.mem_iff_getElem?.mp hc
    have hpc : ∃ id, pc = .trigger id .finished := by
      rcases QueuePc.of_isDone d.mq r' (h.isDone hdone hj) with ⟨res, rfl⟩ | hfin
      · cases hown
      · exact hfin
    obtain ⟨id, rfl⟩ := hpc
    obtain rfl := Option.some.inj hown
    exact (h.stage _ hc).2
  · obtain ⟨row', hrow', hrkey', hres⟩ := found i r' hi hkey'
    rw [unique row' hrow' hrkey'] at hres
    exact hres

theorem Inv.unkeyed (h : Inv d requests s cs) (hdone : ∀ p ∈ s.calls, p.isDone) {i : Nat}
    {r : Request} (hr : requests[i]? = some r) (hkey : r.idempotencyKey = none) :
    ∃ id t t' t'', s.result i = some (.ok id) ∧
      s.world.table.getById id = some (r.notification id t t' t'') ∧
      s.world.triggered.count id = 1 ∧ ∀ j, s.result j = some (.ok id) → j = i := by
  obtain ⟨pc, hi⟩ := h.getElem?_eq hr
  rcases h.finished hi (h.isDone hdone hi) with
    ⟨id, t, t', t'', hres, hown, hget, hcount⟩ | ⟨_, key, _, -, hrkey, -⟩
  · refine ⟨id, t, t', t'', hres, hget, hcount, fun j hj => ?_⟩
    obtain ⟨p, hp, hpres⟩ := Option.bind_eq_some_iff.mp hj
    rw [h.calls] at hp
    obtain ⟨⟨r', pc'⟩, hj', rfl⟩ := Option.map_eq_some_iff.mp ((List.getElem?_map ..).symm.trans hp)
    rcases h.finished hj' (h.isDone hdone hj') with
      ⟨id', _, _, _, hres', hown', -, -⟩ | ⟨id', key, row, hres', -, hget', hrow⟩
    · obtain rfl : id' = id := by simpa [hj] using hres'.symm
      exact h.apart j i _ _ id' hj' hi hown' hown
    · obtain rfl : id' = id := by simpa [hj] using hres'.symm
      rw [hget] at hget'
      obtain rfl := Option.some.inj hget'
      exact absurd (hkey.symm.trans hrow) nofun
  · rw [hkey] at hrkey
    cases hrkey

section Others

variable {key : String} {w w' w₁ : World Bytes} {r : Request} {o : Outcome} {pc pc' : QueuePc}

/-- `w'` is `w` with only the calls of `key` made. -/
structure Near (key : String) (w w' : World Bytes) : Prop where
  now : w'.now = w.now
  rows : w'.table.rowsOf key = w.table.rowsOf key
  absent : ∀ id, w.table.getById id = none → w'.table.getById id = none
  issued : w'.issued ⊆ w.issued
  triggered : w'.triggered ⊆ w.triggered
  count : ∀ row ∈ w.table.rowsOf key, w'.triggered.count row.id = w.triggered.count row.id

theorem mem_rowsOf {t : NotificationTable} {n : Notification} :
    n ∈ t.rowsOf key ↔ n ∈ t.rows ∧ n.idempotencyKey = some key := by
  simp [NotificationTable.rowsOf]

theorem Near.refl (w : World Bytes) : Near key w w :=
  ⟨rfl, rfl, fun _ h => h, fun _ h => h, fun _ h => h, fun _ _ => rfl⟩

theorem rowsOf_append {t t' : NotificationTable} {row : Notification}
    (h : t'.rows = t.rows ++ [row]) : t'.rowsOf key = t.rowsOf key ++ [row].filter
      fun n => n.idempotencyKey = some key := by
  rw [NotificationTable.rowsOf, h, List.filter_append]
  rfl

theorem Near.create (h : Near key w w') {n row : Notification} {table : NotificationTable}
    (hkey : n.idempotencyKey = some key) (hn : Unused w n.id)
    (hc : w.table.create n = .ok (row, table)) :
    ∃ table', w'.table.create n = .ok (row, table') ∧
      Near key { w with table } { w' with table := table' } := by
  have hn' := h.absent _ hn.2.1
  obtain ⟨⟨row', table'⟩, hc'⟩ : ∃ p, w'.table.create n = .ok p := by
    cases hc' : w'.table.create n with
    | error e => exact absurd hc' (create_ne_error hn')
    | ok p => exact ⟨p, rfl⟩
  have shared : ∀ m, m ∈ w.table.rows ∧ m.idempotencyKey = some key ↔
      m ∈ w'.table.rows ∧ m.idempotencyKey = some key := by
    intro m
    rw [← mem_rowsOf, ← mem_rowsOf, h.rows]
  rcases create_unused hn.2.1 hc with ⟨k, hk, hrk, hget, hne, rfl⟩ | ⟨hfresh, hrow, hrows, hget⟩ <;>
    rcases create_unused hn' hc' with ⟨k', hk', hrk', hget', hne', rfl⟩ |
      ⟨hfresh', hrow', hrows', hget'⟩
  · obtain rfl : key = k := Option.some.inj (hkey.symm.trans hk)
    obtain rfl : key = k' := Option.some.inj (hkey.symm.trans hk')
    have hmem := ((shared row).mp ⟨mem_rows_iff.mpr hget, hrk⟩).1
    obtain rfl := w'.table.keysUnique row hmem row' (mem_rows_iff.mpr hget') key hrk hrk'
    exact ⟨_, hc', h⟩
  · obtain rfl : key = k := Option.some.inj (hkey.symm.trans hk)
    exact absurd hrk (hfresh' row ((shared row).mp ⟨mem_rows_iff.mpr hget, hrk⟩).1 key hkey)
  · obtain rfl : key = k' := Option.some.inj (hkey.symm.trans hk')
    exact absurd hrk' (hfresh row' ((shared row').mpr ⟨mem_rows_iff.mpr hget', hrk'⟩).1 key hkey)
  · subst hrow hrow'
    refine ⟨table', hc', h.now, ?_, fun id hid => ?_, h.issued, h.triggered, fun m hm => ?_⟩
    · show table'.rowsOf key = table.rowsOf key
      rw [rowsOf_append hrows, rowsOf_append hrows', h.rows]
    · change table.getById id = none at hid
      show table'.getById id = none
      rw [hget] at hid
      rw [hget']
      by_cases hi : id = n.id
      · rw [if_pos hi] at hid
        cases hid
      · rw [if_neg hi] at hid ⊢
        exact h.absent id hid
    · change m ∈ table.rowsOf key at hm
      rw [rowsOf_append hrows] at hm
      rcases List.mem_append.mp hm with hm | hm
      · exact h.count m hm
      · obtain rfl := List.mem_singleton.mp (List.mem_filter.mp hm).1
        have hzero := List.count_eq_zero.mp hn.2.2
        exact (List.count_eq_zero.mpr fun hm => hzero (h.triggered hm)).trans hn.2.2.symm

theorem publishDispatch_any {d : Deployment Bytes} {now : Int} {id : Uuid} {b : Amqp.Broker Bytes}
    (b' : Amqp.Broker Bytes) :
    (∀ b₁, RabbitMQ.publishDispatch d.topology d.codec now id b = .ok b₁ →
      ∃ b₂, RabbitMQ.publishDispatch d.topology d.codec now id b' = .ok b₂) ∧
    ∀ e, RabbitMQ.publishDispatch d.topology d.codec now id b = .error e →
      RabbitMQ.publishDispatch d.topology d.codec now id b' = .error e := by
  unfold RabbitMQ.publishDispatch RabbitMQ.publishTask
  cases d.codec.toVec ⟨id, 0⟩ with
  | error e => exact ⟨nofun, fun _ h => h⟩
  | ok payload => exact ⟨fun _ _ => ⟨_, rfl⟩, nofun⟩

theorem Near.trigger (h : Near key w w') {id : Uuid} {tpc tpc' : TriggerPc}
    (hok : o.failed = false) (hs : TriggerStep d id o w tpc w₁ tpc') :
    ∃ w₁', TriggerStep d id o w' tpc w₁' tpc' ∧ Near key w₁ w₁' := by
  cases hs with
  | enter =>
    refine ⟨_, .enter, h.now, h.rows, h.absent, h.issued, fun k hk => ?_, fun row hrow => ?_⟩
    · rcases List.mem_append.mp hk with hk | hk
      · exact List.mem_append_left _ (h.triggered hk)
      · exact List.mem_append_right _ hk
    · show (w'.triggered ++ [id]).count row.id = (w.triggered ++ [id]).count row.id
      rw [List.count_append, List.count_append, h.count row hrow]
  | publish hp =>
    rw [← h.now] at hp
    obtain ⟨b, hb⟩ := (publishDispatch_any w'.broker).1 _ hp
    exact ⟨_, .publish hb, h.now, h.rows, h.absent, h.issued, h.triggered, h.count⟩
  | publishFail _ hf => exact absurd hf.failed (by simp [hok])
  | publishUnencoded hp =>
    rw [← h.now] at hp
    exact ⟨_, .publishUnencoded ((publishDispatch_any w'.broker).2 _ hp), h⟩
  | spawn => exact ⟨_, .spawn, h.now, h.rows, h.absent, h.issued, h.triggered, h.count⟩

/-- A call with the key takes the same step whether or not the other calls are made. -/
theorem Near.step (h : Near key w w') (hst : Stage w r pc) (hkey : r.idempotencyKey = some key)
    (hok : o.failed = false) (hs : QueueStep d r o w pc w₁ pc') :
    ∃ w₁', QueueStep d r o w' pc w₁' pc' ∧ Near key w₁ w₁' := by
  cases hs with
  | @ident _ id hnew hnone =>
    refine ⟨_, .ident (fun hm => hnew (h.issued hm)) (h.absent id hnone), h.now, h.rows, h.absent,
      fun k hk => ?_, h.triggered, h.count⟩
    rcases List.mem_cons.mp hk with rfl | hk
    · exact List.mem_cons_self ..
    · exact List.mem_cons_of_mem _ (h.issued hk)
  | clock => exact ⟨w', h.now ▸ .clock, h⟩
  | clock₂ => exact ⟨w', h.now ▸ .clock₂, h⟩
  | clock₃ => exact ⟨w', h.now ▸ .clock₃, h⟩
  | create hc =>
    obtain ⟨hunused, t, t', t'', hn⟩ := hst
    have hnkey := (congrArg Notification.idempotencyKey hn).trans hkey
    obtain ⟨table', hc', hnear⟩ := h.create hnkey hunused hc
    exact ⟨_, .create hc', hnear⟩
  | createFail _ hf => exact absurd hf.failed (by simp [hok])
  | createRefused hc => exact absurd hc (create_ne_error hst.1.2.1)
  | cache => exact ⟨w', .cache, h⟩
  | trigger ht =>
    obtain ⟨w₁', ht', hnear⟩ := h.trigger hok ht
    exact ⟨w₁', .trigger ht', hnear⟩

theorem rowsOf_other (hst : Stage w r pc) (hkey : r.idempotencyKey ≠ some key)
    (hok : o.failed = false) (hs : QueueStep d r o w pc w₁ pc') :
    w₁.table.rowsOf key = w.table.rowsOf key := by
  cases hs with
  | @create _ n row table hc =>
    obtain ⟨hunused, t, t', t'', hn⟩ := hst
    rcases create_unused hunused.2.1 hc with ⟨_, -, -, -, -, rfl⟩ | ⟨-, hrow, hrows, -⟩
    · rfl
    · have hrkey : row.idempotencyKey = r.idempotencyKey := by
        rw [hrow, hn]
        rfl
      show table.rowsOf key = w.table.rowsOf key
      rw [rowsOf_append hrows]
      simp [hrkey, hkey]
  | createFail _ hf => exact absurd hf.failed (by simp [hok])
  | trigger ht => rw [ht.table_eq]
  | _ => rfl

theorem triggered_subset (hs : QueueStep d r o w pc w₁ pc') : w.triggered ⊆ w₁.triggered := by
  cases hs with
  | createFail _ hf => cases hf <;> exact fun _ h => h
  | trigger ht =>
    rw [ht.triggered.1]
    exact List.subset_append_left ..
  | _ => exact fun _ h => h

theorem Stage.key_of_owned (hst : Stage w r pc) {row : Notification} (hrow : row ∈ w.table.rows)
    (hown : owns pc = some row.id) : row.idempotencyKey = r.idempotencyKey := by
  have hget := mem_rows_iff.mp hrow
  have unused : ∀ {id}, id = row.id → Unused w id → row.idempotencyKey = r.idempotencyKey := by
    rintro _ rfl ⟨-, hnone, -⟩
    rw [hget] at hnone
    cases hnone
  have stored : ∀ {id}, id = row.id → Stored w r id →
      row.idempotencyKey = r.idempotencyKey := by
    rintro _ rfl ⟨-, t, t', t'', hstored⟩
    rw [Option.some.inj (hget.symm.trans hstored)]
    rfl
  cases pc with
  | ident | done => cases hown
  | clock | clock₂ | clock₃ => exact unused (Option.some.inj hown) hst
  | create => exact unused (Option.some.inj hown) hst.1
  | cache | trigger => exact stored (Option.some.inj hown) hst.1

theorem Near.skip (h : Near key w w') (hst : Stage w r pc) (hkey : r.idempotencyKey ≠ some key)
    (hok : o.failed = false) (hs : QueueStep d r o w pc w₁ pc') (hadv : Advances r w pc w₁ pc') :
    Near key w₁ w' := by
  have hrows := rowsOf_other hst hkey hok hs
  refine ⟨h.now.trans hs.now_eq.symm, h.rows.trans hrows.symm, fun id hid => h.absent id ?_,
    fun _ hk => hadv.leaves.issued (h.issued hk), fun _ hk => triggered_subset hs (h.triggered hk),
    fun row hrow => ?_⟩
  · cases hget : w.table.getById id with
    | none => rfl
    | some n =>
      rw [hadv.leaves.rows id n hget] at hid
      cases hid
  · rw [hrows] at hrow
    rw [h.count row hrow, hadv.leaves.count row.id]
    intro hown
    obtain ⟨hmem, hrkey⟩ := mem_rowsOf.mp hrow
    exact hkey ((hst.key_of_owned hmem hown).symm.trans hrkey)

structure Apart (d : Deployment Bytes) (requests : List Request) (key : String)
    (s s' : DedupState Bytes) : Prop where
  inv : ∃ cs, Inv d requests s cs
  near : Near key s.world s'.world
  calls : ∀ (i : Nat) r, requests[i]? = some r → r.idempotencyKey = some key →
    s'.calls[i]? = s.calls[i]?

theorem Inv.request (h : Inv d requests s cs) {i : Nat} {c : Request × QueuePc}
    (hi : cs[i]? = some c) : requests[i]? = some c.1 := by
  rw [← h.asked, List.getElem?_map, hi]
  rfl

theorem Apart.keep {s s' t : DedupState Bytes} {l : DedupLabel}
    (h : Apart d requests key s s') (hok : l.succeeds) (hl : l.ofKey requests key)
    (hs : (dedupSystem d requests).step s l = some t) :
    ∃ t', (dedupSystem d requests).step s' l = some t' ∧ Apart d requests key t t' := by
  obtain ⟨cs, hcs⟩ := h.inv
  have hinv := hcs.step hok hs
  rcases step_cases hcs hok hs with
    ⟨ms, rfl, rfl⟩ | ⟨i, o, r, pc, w, pc', rfl, hi, hq, -, hcache, rfl⟩
  · refine ⟨_, rfl, hinv, ?_, h.calls⟩
    exact ⟨congrArg (· + (ms : Int)) h.near.now, h.near.rows, h.near.absent, h.near.issued,
      h.near.triggered, h.near.count⟩
  · have hr := hcs.request hi
    have hkey : r.idempotencyKey = some key := by
      simpa [DedupLabel.ofKey, hr] using hl
    obtain ⟨w', hq', hnear⟩ := h.near.step (hcs.stage _ (List.mem_of_getElem? hi)) hkey hok hq
    have hcall : s'.calls[i]? = some (pc.prog d.mq r) := by
      rw [h.calls i r hr hkey, hcs.calls, List.getElem?_map, hi]
      rfl
    refine ⟨⟨w', s'.calls.set i (pc'.prog d.mq r)⟩, ?_, hinv, hnear, fun j r' hj hrkey => ?_⟩
    · show (s'.calls[i]?.bind _) = _
      rw [hcall, Option.bind_some, hq'.step hcache]
      rfl
    · show (s'.calls.set i _)[j]? = (s.calls.set i _)[j]?
      rw [List.getElem?_set, List.getElem?_set]
      by_cases hij : i = j
      · subst hij
        have hlen : i < s.calls.length := by
          rw [hcs.calls, List.length_map]
          exact (List.getElem?_eq_some_iff.mp hi).1
        simp [hlen, (List.getElem?_eq_some_iff.mp hcall).1]
      · rw [if_neg hij, if_neg hij, h.calls j r' hj hrkey]

theorem Apart.skip {s s' t : DedupState Bytes} {l : DedupLabel}
    (h : Apart d requests key s s') (hok : l.succeeds) (hl : l.ofKey requests key = false)
    (hs : (dedupSystem d requests).step s l = some t) : Apart d requests key t s' := by
  obtain ⟨cs, hcs⟩ := h.inv
  have hinv := hcs.step hok hs
  rcases step_cases hcs hok hs with
    ⟨ms, rfl, rfl⟩ | ⟨i, o, r, pc, w, pc', rfl, hi, hq, hadv, -, rfl⟩
  · cases hl
  · have hr := hcs.request hi
    have hkey : r.idempotencyKey ≠ some key := by
      simpa [DedupLabel.ofKey, hr] using hl
    refine ⟨hinv, h.near.skip (hcs.stage _ (List.mem_of_getElem? hi)) hkey hok hq hadv,
      fun j r' hj hrkey => ?_⟩
    have hij : i ≠ j := by
      rintro rfl
      obtain rfl := Option.some.inj (hr.symm.trans hj)
      exact hkey hrkey
    exact (h.calls j r' hj hrkey).trans (List.getElem?_set_ne hij).symm

end Others

end Dedup

/-- Any number of racing calls: when they are over, each key has one row, which all its
calls return and which is triggered once, and each call without a key has its own. What
the calls of a key have done at any point is what they do alone. -/
theorem queueNotification_dedup (d : Deployment Bytes) (requests : List Request)
    (s₀ s : DedupState Bytes) (ls : List DedupLabel) (h₀ : (dedupSystem d requests).init s₀)
    (hls : ∀ l ∈ ls, l.succeeds) (hrun : (dedupSystem d requests).run s₀ ls = some s) :
    ((∀ p ∈ s.calls, p.isDone) →
      (∀ key, ∀ r ∈ requests, r.idempotencyKey = some key →
        ∃ row ∈ s.world.table.rows, row.idempotencyKey = some key ∧
          (∀ row' ∈ s.world.table.rows, row'.idempotencyKey = some key → row' = row) ∧
          s.world.triggered.count row.id = 1 ∧
          ∀ (i : Nat) r', requests[i]? = some r' → r'.idempotencyKey = some key →
            s.result i = some (.ok row.id)) ∧
      ∀ (i : Nat) r, requests[i]? = some r → r.idempotencyKey = none →
        ∃ id t t' t'', s.result i = some (.ok id) ∧
          s.world.table.getById id = some (r.notification id t t' t'') ∧
          s.world.triggered.count id = 1 ∧ ∀ j, s.result j = some (.ok id) → j = i) ∧
    ∀ key, ∃ s', (dedupSystem d requests).run s₀ (ls.filter (DedupLabel.ofKey requests key)) =
        some s' ∧ s'.world.table.rowsOf key = s.world.table.rowsOf key ∧
      (∀ row ∈ s.world.table.rowsOf key,
        s'.world.triggered.count row.id = s.world.triggered.count row.id) ∧
      ∀ (i : Nat) r, requests[i]? = some r → r.idempotencyKey = some key →
        s'.calls[i]? = s.calls[i]? := by
  constructor
  · intro hdone
    obtain ⟨cs, hcs⟩ := Dedup.inv_run h₀ hls hrun
    exact ⟨fun key r hr hkey => hcs.keyed hdone hr hkey,
      fun i r hr hkey => hcs.unkeyed hdone hr hkey⟩
  · intro key
    obtain ⟨s', hrun', hapart⟩ := System.run_filter (R := Dedup.Apart d requests key)
      (fun s s' l t h hok hl hs => h.keep hok hl hs)
      (fun s s' l t h hok hl hs => h.skip hok hl hs)
      ⟨⟨_, Dedup.inv_start h₀⟩, .refl _, fun _ _ _ _ => rfl⟩ hls hrun
    exact ⟨s', hrun', hapart.near.rows, hapart.near.count, hapart.calls⟩

def Request.tagged (key : Option String) : Request :=
  { Request.sample with idempotencyKey := key }

def DedupState.start (requests : List Request) : DedupState NotificationTask :=
  ⟨.boot 0 .empty, requests.map (Request.prog true)⟩

/-- Two calls of a key and one without a key, each about to insert when the others are. -/
theorem queueNotification_dedup_race :
    ∃ (s : DedupState NotificationTask) (row : Notification),
      (dedupSystem (.plain true) [.tagged (some "order-1"), .tagged (some "order-1"),
          .tagged none]).run (.start [.tagged (some "order-1"), .tagged (some "order-1"),
            .tagged none])
        [.step 0 (.fresh ⟨1⟩), .step 1 (.fresh ⟨2⟩), .step 2 (.fresh ⟨3⟩), .step 0 .ok, .step 1 .ok,
          .step 2 .ok, .step 0 .ok, .tick 5, .step 1 .ok, .step 2 .ok, .step 0 .ok, .step 1 .ok,
          .step 2 .ok, .step 1 .ok, .step 0 .ok, .step 2 .ok, .step 1 .ok, .step 1 .ok,
          .step 2 .ok, .step 2 .ok, .step 1 .ok] = some s ∧
      row ∈ s.world.table.rows ∧ row.idempotencyKey = some "order-1" ∧
      s.world.triggered.count row.id = 1 ∧
      s.result 0 = some (.ok row.id) ∧ s.result 1 = some (.ok row.id) := by
  obtain ⟨s, hrun, hdone⟩ : ∃ s, (dedupSystem (.plain true) [.tagged (some "order-1"),
      .tagged (some "order-1"), .tagged none]).run
        (.start [.tagged (some "order-1"), .tagged (some "order-1"), .tagged none])
        [.step 0 (.fresh ⟨1⟩), .step 1 (.fresh ⟨2⟩), .step 2 (.fresh ⟨3⟩), .step 0 .ok, .step 1 .ok,
          .step 2 .ok, .step 0 .ok, .tick 5, .step 1 .ok, .step 2 .ok, .step 0 .ok, .step 1 .ok,
          .step 2 .ok, .step 1 .ok, .step 0 .ok, .step 2 .ok, .step 1 .ok, .step 1 .ok,
          .step 2 .ok, .step 2 .ok, .step 1 .ok] = some s ∧
      s.calls.all Program.isDone = true := ⟨_, rfl, rfl⟩
  have hinit : (dedupSystem (.plain true) [.tagged (some "order-1"), .tagged (some "order-1"),
      .tagged none]).init
        (.start [.tagged (some "order-1"), .tagged (some "order-1"), .tagged none]) :=
    ⟨rfl, rfl, fun _ _ _ _ => rfl⟩
  obtain ⟨row, hrow, hkey, -, hcount, hres⟩ := ((queueNotification_dedup (.plain true) _ _ s _ hinit
    (by simp [DedupLabel.succeeds, Outcome.failed]) hrun).1
    (List.all_eq_true.mp hdone)).1 "order-1" (.tagged (some "order-1")) (.head _) rfl
  exact ⟨s, row, hrun, hrow, hkey, hcount, hres 0 _ rfl rfl, hres 1 _ rfl rfl⟩

end NotiService
