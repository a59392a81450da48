import NotiService.Consumer
import NotiService.CreatedRows
import NotiService.Foundation.Ensure

/-! Redelivery of a Kafka record. Handling a record ensures its rows one after the other
and stops at the first failure, so handling it again ensures the rest. Only a sign-in
does something else first: it has counted itself, and its own redelivery is no longer the
first one. -/

namespace NotiService
open Foundation Orchestrator NotificationTable Events

variable {Bytes : Type}

def World.contents (w : World Bytes) : List Request := w.table.rows.map Notification.request

def OwnedRecord.requests (env : EventEnv) (rec : OwnedRecord) : List Request :=
  (rec.queued env).map (Queued.request (rec.ctx env))

/-- One or more failing attempts, with time between them. -/
inductive Failing (d : Deployment Bytes) (env : EventEnv) (rec : OwnedRecord) :
    World Bytes → World Bytes → Prop where
  | once {w w' script e} :
      Program.play (exec d) (Consumer.handleRecord d.mq env rec) script w = some (.error e, w') →
      Failing d env rec w w'
  | again {w w₁ w' ms script e} : Failing d env rec w w₁ →
      Program.play (exec d) (Consumer.handleRecord d.mq env rec) script (w₁.tick ms) =
        some (.error e, w') → Failing d env rec w w'

/-- The sign-in would not be the first. -/
def OwnedRecord.Skips (env : EventEnv) (rec : OwnedRecord) (w : World Bytes) : Prop :=
  ∃ key, rec.counter env = some key ∧ 0 < w.count key

namespace Redelivery

theorem contents_create {w : World Bytes} {n row : Notification} {table : NotificationTable}
    {key : String} (hkey : n.idempotencyKey = some key) (h : w.table.create n = .ok (row, table)) :
    World.contents { w with table } = ensure Request.idempotencyKey w.contents n.request := by
  rcases create_cases w.table n with ⟨key', m, hkey', hm, hmkey, hc⟩ | ⟨hfresh, -, t, hc, hrows,
    -⟩ |
    ⟨-, e, hc⟩
  · cases h.symm.trans hc
    refine (ensure_of_mem (List.mem_map.mpr ⟨row.request, List.mem_map_of_mem hm, ?_⟩)).symm
    exact hmkey.trans hkey'.symm
  · cases h.symm.trans hc
    rw [ensure_of_notMem]
    · simp only [World.contents, hrows, List.map_append, List.map_cons, List.map_nil]
      rfl
    · rintro hmem
      obtain ⟨r, hr, hrkey⟩ := List.mem_map.mp hmem
      obtain ⟨m, hm, rfl⟩ := List.mem_map.mp hr
      exact hfresh m hm key hkey (hrkey.trans hkey)
  · cases h.symm.trans hc

/-- How far a call for `r` has come from the contents `cs`. -/
def Made (cs : List Request) (r : Request) (w : World Bytes) : QueuePc → Prop
  | .ident => w.contents = cs
  | .clock id | .clock₂ id _ | .clock₃ id _ _ => w.contents = cs ∧ w.table.getById id = none
  | .create n => w.contents = cs ∧ w.table.getById n.id = none ∧ n.request = r
  | .cache _ _ | .trigger _ _ | .done (.ok _) =>
    w.contents = ensure Request.idempotencyKey cs r
  | .done (.error _) => w.contents = cs ∨ w.contents = ensure Request.idempotencyKey cs r

def Erred : QueuePc → Prop
  | .done (.error _) => True
  | _ => False

variable {d : Deployment Bytes} {cs : List Request} {r : Request}

theorem made_afterCreate {w : World Bytes} {n : Notification} {key : String}
    (hkey : n.idempotencyKey = some key) (row : Notification)
    (h : w.contents = ensure Request.idempotencyKey cs r) :
    Made cs r w (.afterCreate n (.ok row)) ∧ ¬ Erred (.afterCreate n (.ok row)) := by
  by_cases hid : row.id = n.id
  · rw [QueuePc.afterCreate_same hid hkey]
    exact ⟨h, id⟩
  · rw [QueuePc.afterCreate_other hid]
    exact ⟨h, id⟩

theorem made_step {o : Outcome} {w w' : World Bytes} {pc pc' : QueuePc} {key : String}
    (hkey : r.idempotencyKey = some key) (hs : QueueStep d r o w pc w' pc')
    (hm : Made cs r w pc) : Made cs r w' pc' ∧ (Erred pc' → o.failed) := by
  cases hs with
  | ident _ hnone => exact ⟨⟨hm, hnone⟩, False.elim⟩
  | clock | clock₂ => exact ⟨hm, False.elim⟩
  | clock₃ => exact ⟨⟨hm.1, hm.2, rfl⟩, False.elim⟩
  | @create _ n row _ hc =>
    obtain ⟨rfl, -, rfl⟩ := hm
    have hmade := made_afterCreate hkey row (contents_create hkey hc)
    exact ⟨hmade.1, fun herr => absurd herr hmade.2⟩
  | createFail hc hf =>
    obtain ⟨rfl, -, rfl⟩ := hm
    refine ⟨?_, fun _ => hf.failed⟩
    cases hf with
    | before => exact .inl rfl
    | after => exact .inr (contents_create hkey hc)
  | @createRefused _ _ n _ hc =>
    -- the id was new when it was drawn, and the call is alone
    rcases create_cases w.table n with ⟨_, _, _, _, _, hc'⟩ | ⟨_, _, _, hc', _, _⟩ | ⟨hid, -⟩
    · cases hc.symm.trans hc'
    · cases hc.symm.trans hc'
    · exact absurd hm.2.1 hid
  | cache => exact ⟨hm, False.elim⟩
  | trigger ht => exact ⟨(congrArg (List.map _ ∘ rows) ht.table_eq).trans hm, False.elim⟩

theorem made_done {pc : QueuePc} {w : World Bytes} {res : Except NotiError Uuid}
    (hdone : pc.prog d.mq r = .done res) (hm : Made cs r w pc) :
    Made cs r w (.done res) ∧ (Erred (.done res) → Erred pc) := by
  rcases QueuePc.of_isDone _ _ (by rw [hdone]; rfl) with ⟨res', rfl⟩ | ⟨id, rfl⟩
  · obtain rfl := Program.done.inj hdone
    exact ⟨hm, id⟩
  · obtain rfl := Program.done.inj hdone
    exact ⟨hm, False.elim⟩

theorem play_made {pc : QueuePc} {script : List Outcome} {w w' : World Bytes} {key : String}
    {res : Except NotiError Uuid} (hkey : r.idempotencyKey = some key)
    (h : Program.play (exec d) (pc.prog d.mq r) script w = some (res, w'))
    (hm : Made cs r w pc) : Made cs r w' (.done res) ∧
      (Erred (.done res) → Erred pc ∨ ∃ o ∈ script, o.failed) := by
  refine Program.play_points
    (P := fun w pc' => Made cs r w pc' ∧ (Erred pc' → Erred pc ∨ ∃ o ∈ script, o.failed))
    (Q := fun w res => Made cs r w (.done res) ∧
      (Erred (.done res) → Erred pc ∨ ∃ o ∈ script, o.failed))
    (exec d) ?_ ?_ (fun o ho => ho) ⟨hm, .inl⟩ h
  · intro o pc₁ w₁ p w₂ ho hP hstep
    obtain ⟨pc₂, rfl, hs⟩ := queueStep_of_step hstep
    obtain ⟨hm₂, hfailed⟩ := made_step hkey hs hP.1
    exact ⟨pc₂, rfl, hm₂, fun herr => .inr ⟨o, ho, hfailed herr⟩⟩
  · intro pc₁ w₁ res₁ hP hdone
    obtain ⟨hmade, herr⟩ := made_done hdone hP.1
    exact ⟨hmade, fun hres => hP.2 (herr hres)⟩

variable {mq : Bool} {ctx : MsgCtx}

theorem play_queue {q : Queued} {script : List Outcome} {w w' : World Bytes}
    {res : Except NotiError Unit}
    (h : Program.play (exec d) (queue d.mq ctx q).run script w = some (res, w')) :
    match res with
    | .ok () => w'.contents = ensure Request.idempotencyKey w.contents (q.request ctx)
    | .error _ => (∃ o ∈ script, o.failed) ∧ (w'.contents = w.contents ∨
        w'.contents = ensure Request.idempotencyKey w.contents (q.request ctx)) := by
  rw [queue_run] at h
  obtain ⟨res', rfl, hrequest⟩ := Program.play_map_eq_some _ h
  have hmade : Made w.contents (q.request ctx) w .ident := rfl
  obtain ⟨hmade, herr⟩ := play_made rfl hrequest hmade
  cases res' with
  | ok id => exact hmade
  | error e => exact ⟨(herr trivial).resolve_left id, hmade⟩

theorem play_queueAll {qs : List Queued} {script : List Outcome} {w w' : World Bytes}
    {res : Except NotiError Unit}
    (h : Program.play (exec d) (queueAll d.mq ctx qs).run script w = some (res, w')) :
    match res with
    | .ok () => w'.contents =
        ensureAll Request.idempotencyKey w.contents (qs.map (Queued.request ctx))
    | .error _ => (∃ o ∈ script, o.failed) ∧ ∃ us, us <+: qs.map (Queued.request ctx) ∧
        w'.contents = ensureAll Request.idempotencyKey w.contents us := by
  induction qs generalizing script w with
  | nil =>
    obtain ⟨-, rfl, rfl⟩ := (Program.play_done_eq_some _).mp h
    rfl
  | cons q qs ih =>
    obtain ⟨script₁, script₂, a, w₁, rfl, h₁, h₂⟩ := Program.play_bind_eq_some _ h
    have hq := play_queue h₁
    cases a with
    | error e =>
      obtain ⟨-, rfl, rfl⟩ := (Program.play_done_eq_some _).mp h₂
      obtain ⟨⟨o, ho, hfailed⟩, hq⟩ := hq
      refine ⟨⟨o, by simp [ho], hfailed⟩, ?_⟩
      rcases hq with hq | hq
      · exact ⟨[], List.nil_prefix, hq⟩
      · exact ⟨[q.request ctx], by simp, hq⟩
    | ok _ =>
      have hrest := ih h₂
      rw [List.map_cons]
      cases res with
      | ok _ => exact hrest.trans (congrArg (ensureAll _ · _) hq)
      | error e =>
        obtain ⟨⟨o, ho, hfailed⟩, us, hus, hcontents⟩ := hrest
        refine ⟨⟨o, by simp [ho], hfailed⟩, q.request ctx :: us,
          List.cons_prefix_cons.mpr ⟨rfl, hus⟩, ?_⟩
        rw [hcontents, hq, ensureAll_cons]

/-- What one handling of a record makes of the contents, by the outcomes of its calls
and by its result. -/
structure Handled {ε : Type} (env : EventEnv) (rec : OwnedRecord) (script : List Outcome)
    (w w' : World Bytes) (res : Except ε Unit) : Prop where
  some_requests : ∃ us, us <+: rec.requests env ∧
    w'.contents = ensureAll Request.idempotencyKey w.contents us
  all_requests : (∀ o ∈ script, o.failed = false) → ¬ rec.Skips env w →
    w'.contents = ensureAll Request.idempotencyKey w.contents (rec.requests env)
  first : ∀ e, res = .error e → ¬ rec.Skips env w ∨ rec.requests env = []
  skipped : rec.Skips env w → w'.contents = w.contents

variable {env : EventEnv} {rec : OwnedRecord} {script script₁ : List Outcome}
  {w w₁ w' : World Bytes} {res : Except NotiError Unit}

theorem handled_unchanged (hsame : w'.contents = w.contents)
    (hwhy : (∃ o ∈ script, o.failed) ∨ rec.Skips env w) :
    Handled (ε := NotiError) env rec script w w' (.ok ()) where
  some_requests := ⟨[], List.nil_prefix, hsame⟩
  all_requests hok hfirst := by
    obtain ⟨o, ho, hf⟩ := hwhy.resolve_right hfirst
    simp [hok o ho] at hf
  first := nofun
  skipped _ := hsame

theorem handled_queueAll (hfirst : ¬ rec.Skips env w) (hsame : w₁.contents = w.contents)
    (hsub : script₁ ⊆ script)
    (h : Program.play (exec d) (queueAll d.mq (rec.ctx env) (rec.queued env)).run script₁ w₁ =
      some (res, w')) : Handled env rec script w w' res := by
  have hplay := play_queueAll h
  rw [hsame] at hplay
  cases res with
  | ok _ =>
    exact ⟨⟨_, List.prefix_refl _, hplay⟩, fun _ _ => hplay, nofun,
      fun hskips => absurd hskips hfirst⟩
  | error e =>
    obtain ⟨⟨o, ho, hf⟩, hus⟩ := hplay
    refine ⟨hus, fun hok _ => ?_, fun _ _ => .inl hfirst, fun hskips => absurd hskips hfirst⟩
    simp [hok o (hsub ho)] at hf

theorem play_handling
    (h : Program.play (exec d) (rec.handling d.mq env).run script w = some (res, w')) :
    Handled env rec script w w' res := by
  unfold OwnedRecord.handling at h
  cases hc : rec.counter env with
  | none =>
    rw [hc] at h
    refine handled_queueAll ?_ rfl (List.Subset.refl _) h
    rintro ⟨key, hkey, -⟩
    cases hc.symm.trans hkey
  | some key =>
    rw [hc] at h
    dsimp only at h
    rw [alertIfNew_run] at h
    obtain ⟨o, script, p, w₁, rfl, hstep, hrest⟩ := Program.step_of_play _ rfl h
    obtain ⟨answer, hanswer, rfl⟩ := (Program.step_call_eq_some _ _ _ _ _ _).mp hstep
    have hskips : rec.Skips env w ↔ 0 < w.count key := by simp [OwnedRecord.Skips, hc]
    rcases World.answer_eq_some.mp hanswer with ⟨-, rfl, rfl⟩ | ⟨e, rfl, hf⟩
    · by_cases hseen : 0 < w.count key
      · rw [afterBump_later (Nat.succ_lt_succ hseen)] at hrest
        obtain ⟨-, rfl, rfl⟩ := (Program.play_done_eq_some _).mp hrest
        exact handled_unchanged rfl (.inr (hskips.mpr hseen))
      · rw [afterBump_first (by omega)] at hrest
        have hsame : (w.incrementWithTtl key loginIpMemorySecs).contents = w.contents := rfl
        exact handled_queueAll (mt hskips.mp hseen) hsame (List.subset_cons_self ..) hrest
    · -- with the cache down the alert is skipped
      obtain ⟨-, rfl, rfl⟩ := (Program.play_done_eq_some _).mp hrest
      refine handled_unchanged ?_ (.inl ⟨o, by simp, hf.failed⟩)
      cases hf <;> rfl

theorem play_handleRecord {res : Except RecordError Unit}
    (h : Program.play (exec d) (Consumer.handleRecord d.mq env rec) script w = some (res, w')) :
    Handled env rec script w w' res := by
  rcases Consumer.handleRecord_cases d.mq env rec with ⟨a, ha, hnone⟩ | heq
  · rw [ha] at h
    obtain ⟨-, rfl, rfl⟩ := (Program.play_done_eq_some _).mp h
    have hnil : rec.requests env = [] := by simp [OwnedRecord.requests, OwnedRecord.queued, hnone]
    exact ⟨⟨[], List.nil_prefix, rfl⟩, fun _ _ => by rw [hnil]; rfl, fun _ _ => .inr hnil,
      fun _ => rfl⟩
  · rw [heq] at h
    obtain ⟨res', rfl, hplay⟩ := Program.play_map_eq_some _ h
    obtain ⟨hsome, hall, hfirst, hskipped⟩ := play_handling hplay
    refine ⟨hsome, hall, ?_, hskipped⟩
    intro e he
    cases res' with
    | ok _ => cases he
    | error e' => exact hfirst e' rfl

theorem Failing.contents (h : Failing d env rec w w') :
    ∃ us, us <+: rec.requests env ∧
      w'.contents = ensureAll Request.idempotencyKey w.contents us := by
  induction h with
  | once hplay => exact (play_handleRecord hplay).some_requests
  | again _ hplay ih =>
    obtain ⟨us, hus, hw₁⟩ := ih
    obtain ⟨vs, hvs, hw'⟩ := (play_handleRecord hplay).some_requests
    have hw' : _ = ensureAll Request.idempotencyKey (World.contents _) vs := hw'
    rw [hw', show (World.tick _ _).contents = _ from hw₁]
    exact ensureAll_prefixes hus hvs

theorem Failing.first (h : Failing d env rec w w') :
    ¬ rec.Skips env w ∨ rec.requests env = [] := by
  induction h with
  | once hplay => exact (play_handleRecord hplay).first _ rfl
  | again _ _ ih => exact ih

end Redelivery

theorem World.nodup_keys (w : World Bytes) :
    (w.contents.filterMap Request.idempotencyKey).Nodup := by
  have hrows : w.table.rows.Nodup := w.table.table.nodup.of_map _
  rw [World.contents, List.filterMap_map]
  refine List.pairwise_filterMap.mpr (hrows.imp_of_mem ?_)
  intro m n hm hn hne key hmk key' hnk heq
  subst heq
  exact hne (w.table.keysUnique m hm n hn key hmk hnk)

theorem getByIdempotencyKey_ne_none {w : World Bytes} {key : String} :
    w.table.getByIdempotencyKey key ≠ none ↔
      some key ∈ w.contents.map Request.idempotencyKey := by
  rw [Ne, getByIdempotencyKey_eq_none]
  simp only [World.contents, List.map_map, List.mem_map, Function.comp_apply, not_forall,
    not_not, exists_prop]
  rfl

/-- A record whose handling failed and then went through has its rows as if it had gone
through at once, exactly if it is no sign-in that its own attempts have counted. -/
theorem redelivery_completes (d : Deployment Bytes) (env : EventEnv) (rec : OwnedRecord)
    {w w₁ w₂ once : World Bytes} {ms : Nat} {script script' : List Outcome}
    {r r' : Except RecordError Unit} (hfailing : Failing d env rec w w₁)
    (hagain : Program.play (exec d) (Consumer.handleRecord d.mq env rec) script (w₁.tick ms) =
      some (r, w₂)) (hok : ∀ o ∈ script, o.failed = false)
    (honce : Program.play (exec d) (Consumer.handleRecord d.mq env rec) script' w =
      some (r', once)) (hok' : ∀ o ∈ script', o.failed = false) :
    (w₂.contents = once.contents ∧ (w₂.contents.filterMap Request.idempotencyKey).Nodup) ↔
      ∀ key, rec.counter env = some key → (w₁.tick ms).count key = 0 ∨
        ∀ q ∈ rec.queued env,
          w₁.table.getByIdempotencyKey ((rec.ctx env).idem q.label) ≠ none := by
  obtain ⟨us, hus, hw₁⟩ := Redelivery.Failing.contents hfailing
  have hw₂ := Redelivery.play_handleRecord hagain
  have hwhole : once.contents = ensureAll Request.idempotencyKey w.contents (rec.requests env) := by
    rcases Redelivery.Failing.first hfailing with hfirst | hnil
    · exact (Redelivery.play_handleRecord honce).all_requests hok' hfirst
    · obtain ⟨vs, hvs, hcontents⟩ := (Redelivery.play_handleRecord honce).some_requests
      rw [hnil] at hvs ⊢
      rwa [List.prefix_nil.mp hvs] at hcontents
  rw [and_iff_left w₂.nodup_keys, hwhole]
  by_cases hskips : rec.Skips env (w₁.tick ms)
  · obtain ⟨key, hkey, hcount⟩ := id hskips
    have hsame : w₂.contents = w₁.contents := hw₂.skipped hskips
    simp only [hkey, Option.some.injEq, forall_eq', getByIdempotencyKey_ne_none, hsame]
    rw [or_iff_right (by omega)]
    constructor
    · intro h q hq
      rw [h]
      exact key_mem_ensureAll w.contents (List.mem_map_of_mem hq)
    · intro h
      have hall : ensureAll Request.idempotencyKey w₁.contents (rec.requests env) =
          w₁.contents := by
        refine ensureAll_of_mem fun x hx => ?_
        obtain ⟨q, hq, rfl⟩ := List.mem_map.mp hx
        exact h q hq
      rw [← hall, hw₁, ensureAll_absorb hus]
  · refine iff_of_true ?_ fun key hkey => .inl ?_
    · have htick : (w₁.tick ms).contents = w₁.contents := rfl
      rw [hw₂.all_requests hok hskips, htick, hw₁, ensureAll_absorb hus]
    · by_contra hne
      exact hskips ⟨key, hkey, Nat.pos_of_ne_zero hne⟩

def unlinkedPayload : String := "\x7b\"event_type\":\"UserWalletUnlinked\",\"data\":\x7b" ++
  "\"user_id\":\"00000000-0000-0000-0000-000000000007\",\"wallet_address\":\"abc\"\x7d\x7d"

def loggedInPayload : String := "\x7b\"event_type\":\"UserLoggedIn\",\"data\":\x7b" ++
  "\"user_id\":\"00000000-0000-0000-0000-000000000007\",\"ip_address\":\"10.0.0.1\"\x7d\x7d"

def EventEnv.accountEvents : EventEnv := .knowing
  [(unlinkedPayload, .obj [("event_type", .str "UserWalletUnlinked"), ("data", .obj [
    ("user_id", .str "00000000-0000-0000-0000-000000000007"), ("wallet_address", .str "abc")])]),
  (loggedInPayload, .obj [("event_type", .str "UserLoggedIn"), ("data", .obj [
    ("user_id", .str "00000000-0000-0000-0000-000000000007"), ("ip_address", .str "10.0.0.1")])])]
  [⟨7⟩]

def OwnedRecord.walletUnlinked : OwnedRecord := ⟨some unlinkedPayload, "iam.user.events", 0, 7⟩

def OwnedRecord.loggedIn : OwnedRecord := ⟨some loggedInPayload, "iam.user.events", 0, 7⟩

def creating (id : Uuid) : List Outcome := .fresh id :: List.replicate 7 .ok

/-- The second of two notifications fails; the redelivery finds the first. -/
theorem redelivery_completes_twoNotifications :
    ∃ w₁ w₂ once : World NotificationTask, w₂.contents.length = 2 ∧
      Failing (.plain true) .accountEvents .walletUnlinked (.boot 0 .empty) w₁ ∧
      ((w₂.contents = once.contents ∧ (w₂.contents.filterMap Request.idempotencyKey).Nodup) ↔
        ∀ key, OwnedRecord.walletUnlinked.counter .accountEvents = some key →
          (w₁.tick 0).count key = 0 ∨ ∀ q ∈ OwnedRecord.walletUnlinked.queued .accountEvents,
            w₁.table.getByIdempotencyKey
              ((OwnedRecord.walletUnlinked.ctx .accountEvents).idem q.label) ≠ none) := by
  let handle (script : List Outcome) (w : World NotificationTask) :=
    Program.play (exec (.plain true))
      (Consumer.handleRecord true .accountEvents .walletUnlinked) script w
  let again : List Outcome := .fresh ⟨3⟩ :: List.replicate 4 .ok ++ creating ⟨4⟩
  have hrun : ((handle (creating ⟨1⟩ ++ [.fresh ⟨2⟩, .ok, .ok, .ok, .fail (.database "reset")])
      (.boot 0 .empty)).bind fun (r, w₁) => (handle again (w₁.tick 0)).bind fun (_, w₂) =>
        (handle (creating ⟨1⟩ ++ creating ⟨2⟩) (.boot 0 .empty)).map fun _ =>
          r.toOption.isNone && w₂.contents.length = 2) = some true := by decide +kernel
  obtain ⟨⟨r, w₁⟩, h₁, hrun⟩ := Option.bind_eq_some_iff.mp hrun
  obtain ⟨⟨_, w₂⟩, h₂, hrun⟩ := Option.bind_eq_some_iff.mp hrun
  obtain ⟨⟨_, once⟩, h₃, hrun⟩ := Option.map_eq_some_iff.mp hrun
  cases r with
  | ok _ => cases hrun
  | error e =>
    have hfailing : Failing (.plain true) .accountEvents .walletUnlinked _ w₁ := .once h₁
    exact ⟨w₁, w₂, once, by simpa [Except.toOption] using hrun, hfailing,
      redelivery_completes (.plain true)
      .accountEvents .walletUnlinked hfailing h₂ (by decide) h₃ (by decide)⟩

/-- A sign-in whose first notification is not created: the redelivery takes itself for a
sign-in from a known address and queues nothing. -/
theorem redelivery_skips_login :
    ∃ (w₁ w₂ once : World NotificationTask) (script script' : List Outcome)
      (r r' : Except RecordError Unit),
      Failing (.plain true) .accountEvents .loggedIn (.boot 0 .empty) w₁ ∧
      Program.play (exec (.plain true)) (Consumer.handleRecord true .accountEvents .loggedIn)
        script w₁ = some (r, w₂) ∧ (∀ o ∈ script, o.failed = false) ∧
      Program.play (exec (.plain true)) (Consumer.handleRecord true .accountEvents .loggedIn)
        script' (.boot 0 .empty) = some (r', once) ∧ (∀ o ∈ script', o.failed = false) ∧
      w₂.contents.length = 0 ∧ once.contents.length = 2 := by
  let handle (script : List Outcome) (w : World NotificationTask) :=
    Program.play (exec (.plain true))
      (Consumer.handleRecord true .accountEvents .loggedIn) script w
  have hrun : ((handle [.ok, .fresh ⟨1⟩, .ok, .ok, .ok, .fail (.database "reset")]
      (.boot 0 .empty)).bind fun (r, w₁) => (handle [.ok] w₁).bind fun (_, w₂) =>
        (handle (.ok :: creating ⟨1⟩ ++ creating ⟨2⟩) (.boot 0 .empty)).map fun (_, once) =>
          r.toOption.isNone && w₂.contents.length = 0 && once.contents.length = 2) =
      some true := by decide +kernel
  obtain ⟨⟨r, w₁⟩, h₁, hrun⟩ := Option.bind_eq_some_iff.mp hrun
  obtain ⟨⟨r₂, w₂⟩, h₂, hrun⟩ := Option.bind_eq_some_iff.mp hrun
  obtain ⟨⟨r₃, once⟩, h₃, hrun⟩ := Option.map_eq_some_iff.mp hrun
  cases r with
  | ok _ => cases hrun
  | error e =>
    simp only [Bool.and_eq_true, decide_eq_true_eq] at hrun
    exact ⟨w₁, w₂, once, _, _, r₂, r₃, .once h₁, h₂, by decide, h₃, by decide, hrun.1.2, hrun.2⟩

end NotiService
