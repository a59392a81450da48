import NotiService.Consumer
import NotiService.CreatedRows
import NotiService.Foundation.JoinedKey

/-! The idempotency keys of Kafka records. A record's handler queues notifications with
pairwise distinct labels, so with distinct keys. Two records share a key in two ways: without
ids, at the same partition and offset of two topics; or with ids, where one id is the
other's after `push:`. -/

namespace NotiService
open Foundation Orchestrator JoinedKey

namespace Events

/-- The labels an event of a type may queue, in order. -/
def labelsOf : String → List String
  | "EmailVerified" => ["email_verified"]
  | "OrderMatched" =>
    ["matched:buyer:ws", "matched:buyer:push", "matched:seller:ws", "matched:seller:push"]
  | "SettlementProcessed" =>
    ["settlement:buyer", "settlement:buyer:push", "settlement:seller", "settlement:seller:push"]
  | "ErcIssued" => ["erc"]
  | "VppDispatched" => ["vpp_dispatch"]
  | "PriceAlertTriggered" => ["price_alert", "price_alert:push"]
  | "PasswordResetRequested" => ["pwd_reset"]
  | "VerificationEmailRequested" => ["verify_email"]
  | "UserOnboarded" => ["onboard"]
  | "MeterOnboarded" => ["meter"]
  | "WalletLinkRequested" => ["wallet_confirm"]
  | "UserWalletLinked" => ["wallet_link", "wallet_link:push"]
  | "UserWalletUnlinked" => ["wallet_unlink", "wallet_unlink:push"]
  | "UserWalletPrimaryChanged" => ["wallet_primary", "wallet_primary:push"]
  | "AccountLocked" => ["account_locked"]
  | "UserLoggedIn" => ["new_login", "new_login:push"]
  | "OrderCreated" => ["order_created"]
  | "OrderUpdate" => ["order_update", "order_update:push"]
  | "MeterRegistered" => ["meter_registered"]
  | "MeterUpdated" => ["meter_registered"]
  | _ => []

private theorem sublist_flatMap {α : Type} {f : α → List Queued} {l : α → List String}
    (h : ∀ a, ((f a).map Queued.label).Sublist (l a)) (as : List α) :
    ((as.flatMap f).map Queued.label).Sublist (as.flatMap l) := by
  induction as with
  | nil => exact .slnil
  | cons a as ih =>
    rw [List.flatMap_cons, List.map_append, List.flatMap_cons]
    exact (h a).append ih

theorem orderMatched_labels (env : EventEnv) (data : Json) :
    ((orderMatched env data).map Queued.label).Sublist (labelsOf "OrderMatched") := by
  unfold orderMatched
  split
  · exact List.nil_sublist _
  · next p _ =>
    refine sublist_flatMap (l := fun party =>
      ["matched:" ++ party.1 ++ ":ws", "matched:" ++ party.1 ++ ":push"]) ?_
      [("buyer", p.buyerId), ("seller", p.sellerId)]
    rintro ⟨role, id⟩
    dsimp only
    cases parseUuid env id with
    | none => exact List.nil_sublist _
    | some uid => exact .refl _

theorem settlementProcessed_labels (env : EventEnv) (data : Json) :
    ((settlementProcessed env data).map Queued.label).Sublist
      (labelsOf "SettlementProcessed") := by
  unfold settlementProcessed
  split
  · exact List.nil_sublist _
  · next p _ =>
    refine sublist_flatMap (l := fun party =>
      ["settlement:" ++ party.1, "settlement:" ++ party.1 ++ ":push"]) ?_
      [("buyer", p.buyerId), ("seller", p.sellerId)]
    rintro ⟨role, id⟩
    dsimp only
    cases parseUuid env id with
    | none => exact List.nil_sublist _
    | some uid => exact .refl _

theorem orderUpdate_labels (env : EventEnv) (data : Json) :
    ((orderUpdate env data).map Queued.label).Sublist (labelsOf "OrderUpdate") := by
  unfold orderUpdate
  split
  · exact List.nil_sublist _
  split
  · exact List.nil_sublist _
  dsimp only
  split
  · exact .refl _
  · exact .cons_cons _ (List.nil_sublist _)

theorem queueing_labels (env : EventEnv) (eventType : String) (data : Json) :
    ((queueing env eventType data).map Queued.label).Sublist (labelsOf eventType) := by
  unfold queueing
  split
  case h_1 | h_21 => exact List.nil_sublist _
  case h_3 => exact orderMatched_labels env data
  case h_4 => exact settlementProcessed_labels env data
  case h_18 => exact orderUpdate_labels env data
  -- every other handler queues all of its labels or nothing
  all_goals
    simp only [emailVerified, ercIssued, vppDispatched, priceAlertTriggered,
      passwordResetRequested, verificationEmailRequested, userOnboarded, meterOnboarded,
      walletLinkRequested, userWalletLinked, userWalletUnlinked, userWalletPrimaryChanged,
      accountLocked, orderCreated, meterRegistered]
    repeat' split
    all_goals first | exact List.nil_sublist _ | exact .refl _

theorem loginCheck_labels {env : EventEnv} {data : Json} {key : String} {alert : List Queued}
    (h : loginCheck env data = some (key, alert)) :
    alert.map Queued.label = labelsOf "UserLoggedIn" := by
  simp only [loginCheck, Option.bind_eq_bind, Option.bind_eq_some_iff, Option.pure_def,
    Option.some.injEq, Prod.mk.injEq] at h
  obtain ⟨p, -, uid, -, ip, -, -, rfl⟩ := h
  rfl

theorem queued_labels (env : EventEnv) (eventType : String) (data : Json) :
    ((queued env eventType data).map Queued.label).Sublist (labelsOf eventType) := by
  unfold queued
  split
  · next h =>
    subst h
    cases hc : loginCheck env data with
    | none => exact List.nil_sublist _
    | some c =>
      rw [← loginCheck_labels hc]
      exact .refl _
  · exact queueing_labels env eventType data

def labels : List String :=
  ["email_verified", "matched:buyer:ws", "matched:buyer:push", "matched:seller:ws",
    "matched:seller:push", "settlement:buyer", "settlement:buyer:push", "settlement:seller",
    "settlement:seller:push", "erc", "vpp_dispatch", "price_alert", "price_alert:push",
    "pwd_reset", "verify_email", "onboard", "meter", "wallet_confirm", "wallet_link",
    "wallet_link:push", "wallet_unlink", "wallet_unlink:push", "wallet_primary",
    "wallet_primary:push", "account_locked", "new_login", "new_login:push", "order_created",
    "order_update", "order_update:push", "meter_registered"]

theorem labelsOf_spec (eventType : String) :
    labelsOf eventType ⊆ labels ∧ (labelsOf eventType).Nodup := by
  unfold labelsOf
  split <;> decide

theorem eq_push_of_join {a b m : String} (ha : a ∈ labels) (hb : b ∈ labels)
    (h : a = join b m) : m = "push" := by
  have table : ∀ a ∈ labels, ∀ b ∈ labels,
      (b.toList ++ [':']).isPrefixOf a.toList → a = join b "push" := by decide +kernel
  have hpre : (b.toList ++ [':']) <+: a.toList := by simp [h, toList_join]
  have := table a ha b hb (List.isPrefixOf_iff_prefix.mpr hpre)
  exact join_right_inj.mp (h.symm.trans this)

theorem kafka_ne_join {l x y : String} (hl : l ∈ labels) : join l x ≠ join "kafka" y := by
  have table : ∀ a ∈ labels, a ≠ "kafka" ∧
      ("kafka".toList ++ [':']).isPrefixOf a.toList = false := by decide
  obtain ⟨hne, hpre⟩ := table l hl
  rw [Ne, join_eq_join]
  rintro (⟨rfl, -⟩ | ⟨m, rfl, -⟩ | ⟨m, h, -⟩)
  · exact hne rfl
  · refine absurd hpre (Bool.not_eq_false _ ▸ List.isPrefixOf_iff_prefix.mpr ?_)
    simp [toList_join]
  · exact absurd (h ▸ colon_mem_join l m) (by decide)

end Events

open Events

theorem MsgCtx.idem_some {ctx : MsgCtx} {id : String} (h : ctx.eventId = some id) (label : String) :
    ctx.idem label = join label id := by
  rw [MsgCtx.idem, h]
  rfl

theorem MsgCtx.idem_none {ctx : MsgCtx} (h : ctx.eventId = none) (label : String) :
    ctx.idem label = join (join (join "kafka" label) ctx.partition.repr) ctx.offset.repr := by
  rw [MsgCtx.idem, h]
  rfl

theorem idem_eq_of_none {c₁ c₂ : MsgCtx} (h₁ : c₁.eventId = none) (h₂ : c₂.eventId = none)
    {a b : String} : c₁.idem a = c₂.idem b ↔
      a = b ∧ c₁.partition = c₂.partition ∧ c₁.offset = c₂.offset := by
  rw [MsgCtx.idem_none h₁, MsgCtx.idem_none h₂, join_repr_eq_join_repr,
    join_repr_eq_join_repr, join_right_inj, and_assoc]

private theorem join_push (label : String) : join label "push" = label ++ ":push" := by
  rw [← String.toList_inj]
  simp [toList_join]

private theorem push_join (id : String) : join "push" id = "push:" ++ id := by
  rw [← String.toList_inj]
  simp [toList_join]

theorem idem_eq_of_some {c₁ c₂ : MsgCtx} {x y : String} (h₁ : c₁.eventId = some x)
    (h₂ : c₂.eventId = some y) (hne : x ≠ y) {a b : String} (ha : a ∈ labels) (hb : b ∈ labels) :
    c₁.idem a = c₂.idem b ↔ (y = "push:" ++ x ∧ a = b ++ ":push") ∨
      (x = "push:" ++ y ∧ b = a ++ ":push") := by
  rw [MsgCtx.idem_some h₁, MsgCtx.idem_some h₂, join_eq_join, or_iff_right fun h => hne h.2]
  simp only [← join_push, ← push_join]
  refine or_congr ⟨?_, fun h => ⟨_, h.symm⟩⟩ ⟨?_, fun h => ⟨_, h.symm⟩⟩
  · rintro ⟨m, hm, hy⟩
    obtain rfl := eq_push_of_join ha hb hm
    exact ⟨hy, hm⟩
  · rintro ⟨m, hm, hx⟩
    obtain rfl := eq_push_of_join hb ha hm
    exact ⟨hx, hm⟩

theorem idem_ne_of_some_none {c₁ c₂ : MsgCtx} {x : String} (h₁ : c₁.eventId = some x)
    (h₂ : c₂.eventId = none) {a b : String} (ha : a ∈ labels) : c₁.idem a ≠ c₂.idem b := by
  rw [MsgCtx.idem_some h₁, MsgCtx.idem_none h₂, join_assoc, join_assoc]
  exact kafka_ne_join ha

/-- The key of the row a call creates. -/
def Op.key {β : Type} (op : Op β) : Option String := op.creates.bind Notification.idempotencyKey

theorem key_request (ctx : MsgCtx) (q : Queued) (id : Uuid) (t t' t'' : Int) :
    ((q.request ctx).notification id t t' t'').idempotencyKey = some (ctx.idem q.label) := rfl

/-- The keys a run of the handler creates rows with. -/
def Keys (mq : Bool) (env : EventEnv) (rec : OwnedRecord) (ks : List String) : Prop :=
  ∃ r, Program.Path Op.key (Consumer.handleRecord mq env rec) ks r

/-- The keys of what a record queues. -/
def OwnedRecord.keys (env : EventEnv) (rec : OwnedRecord) : List String :=
  (rec.queued env).map fun q => (rec.ctx env).idem q.label

theorem Keys.prefix_keys {mq : Bool} {env : EventEnv} {rec : OwnedRecord} {ks : List String}
    (h : Keys mq env rec ks) : ks <+: rec.keys env := by
  have handling : ∀ {ks r}, Program.Path Op.key (rec.handling mq env).run ks r →
      ks <+: rec.keys env := by
    intro ks r h
    unfold OwnedRecord.handling at h
    split at h
    · exact queueAll_rows mq (key_request _) h
    · exact alertIfNew_rows mq (key_request _) h
  obtain ⟨r, h⟩ := h
  rcases Consumer.handleRecord_cases mq env rec with ⟨a, ha, -⟩ | heq
  · rw [ha] at h
    obtain ⟨rfl, -⟩ := Program.path_done h
    exact List.nil_prefix
  · rw [heq] at h
    rcases Program.path_bind h with ⟨hstop, -⟩ | ⟨ks₁, ks₂, a, h₁, h₂, rfl⟩
    · exact handling hstop
    · obtain ⟨rfl, -⟩ := Program.path_done h₂
      rw [List.append_nil]
      exact handling h₁

theorem keys_keys (mq : Bool) (env : EventEnv) (rec : OwnedRecord) :
    Keys mq env rec (rec.keys env) := by
  rcases Consumer.handleRecord_cases mq env rec with ⟨a, -, hnone⟩ | heq
  · refine ⟨none, ?_⟩
    simp only [OwnedRecord.keys, OwnedRecord.queued, hnone, Option.elim_none, List.map_nil]
    exact .stop _
  · have handling : Program.Path Op.key (rec.handling mq env).run (rec.keys env)
        (some (.ok ())) := by
      unfold OwnedRecord.handling
      split
      · exact queueAll_allRows mq (key_request _) _
      · exact alertIfNew_allRows mq (key_request _) _ _
    refine ⟨some (.ok ()), ?_⟩
    rw [heq, ← List.append_nil (rec.keys env)]
    exact handling.bind (.done _)

theorem OwnedRecord.labels_sublist (env : EventEnv) (rec : OwnedRecord) :
    ∃ eventType, ((rec.queued env).map Queued.label).Sublist (labelsOf eventType) := by
  unfold OwnedRecord.queued
  cases rec.event env with
  | none => exact ⟨"", List.nil_sublist _⟩
  | some e => exact ⟨e.eventType, queued_labels env e.eventType e.data⟩

theorem OwnedRecord.label_mem {env : EventEnv} {rec : OwnedRecord} {q : Queued}
    (h : q ∈ rec.queued env) : q.label ∈ Events.labels := by
  obtain ⟨eventType, hsub⟩ := rec.labels_sublist env
  exact (labelsOf_spec eventType).1 (hsub.subset (List.mem_map_of_mem h))

theorem OwnedRecord.nodup_keys (env : EventEnv) (rec : OwnedRecord) : (rec.keys env).Nodup := by
  obtain ⟨eventType, hsub⟩ := rec.labels_sublist env
  have hlabels := (labelsOf_spec eventType).2.sublist hsub
  have hinj : Function.Injective (rec.ctx env).idem := by
    intro a b hab
    cases hid : (rec.ctx env).eventId with
    | none => exact ((idem_eq_of_none hid hid).mp hab).1
    | some id =>
      rw [MsgCtx.idem_some hid, MsgCtx.idem_some hid] at hab
      exact join_left_inj.mp hab
  have hkeys : rec.keys env = ((rec.queued env).map Queued.label).map (rec.ctx env).idem := by
    rw [List.map_map]
    rfl
  rw [hkeys]
  exact hlabels.map hinj

/-- Two records of distinct events. -/
def Distinct (env : EventEnv) (r₁ r₂ : OwnedRecord) : Prop :=
  match r₁.eventId env, r₂.eventId env with
  | some a, some b => a ≠ b
  | none, none => (r₁.topic, r₁.partition, r₁.offset) ≠ (r₂.topic, r₂.partition, r₂.offset)
  | _, _ => True

/-- Both queue a notification of the same label, or one queues the push that goes with
a label of the other. -/
def ShareLabel (env : EventEnv) (r₁ r₂ : OwnedRecord) : Prop :=
  ∃ q₁ ∈ r₁.queued env, ∃ q₂ ∈ r₂.queued env, q₁.label = q₂.label

def PushesFor (env : EventEnv) (r₁ r₂ : OwnedRecord) : Prop :=
  ∃ q₁ ∈ r₁.queued env, ∃ q₂ ∈ r₂.queued env, q₁.label = q₂.label ++ ":push"

/-- Records without ids at the same place of two topics, or one with an id that is
`push:` and then the id of the other. -/
def Collides (env : EventEnv) (r₁ r₂ : OwnedRecord) : Prop :=
  match r₁.eventId env, r₂.eventId env with
  | some a, some b => (b = "push:" ++ a ∧ PushesFor env r₁ r₂) ∨
      (a = "push:" ++ b ∧ PushesFor env r₂ r₁)
  | none, none => r₁.partition = r₂.partition ∧ r₁.offset = r₂.offset ∧ ShareLabel env r₁ r₂
  | _, _ => False

theorem mem_keys {env : EventEnv} {rec : OwnedRecord} {k : String} :
    k ∈ rec.keys env ↔ ∃ q ∈ rec.queued env, (rec.ctx env).idem q.label = k :=
  List.mem_map

theorem collides_iff {env : EventEnv} {r₁ r₂ : OwnedRecord} (h : Distinct env r₁ r₂) :
    Collides env r₁ r₂ ↔ ∃ q₁ ∈ r₁.queued env, ∃ q₂ ∈ r₂.queued env,
      (r₁.ctx env).idem q₁.label = (r₂.ctx env).idem q₂.label := by
  unfold Distinct at h
  unfold Collides
  cases h₁ : r₁.eventId env with
  | none =>
    cases h₂ : r₂.eventId env with
    | none =>
      have hid₁ : (r₁.ctx env).eventId = none := h₁
      have hid₂ : (r₂.ctx env).eventId = none := h₂
      simp only [idem_eq_of_none hid₁ hid₂]
      constructor
      · rintro ⟨hp, ho, q₁, hq₁, q₂, hq₂, hl⟩
        exact ⟨q₁, hq₁, q₂, hq₂, hl, hp, ho⟩
      · rintro ⟨q₁, hq₁, q₂, hq₂, hl, hp, ho⟩
        exact ⟨hp, ho, q₁, hq₁, q₂, hq₂, hl⟩
    | some b =>
      refine iff_of_false id ?_
      rintro ⟨q₁, hq₁, q₂, hq₂, heq⟩
      exact idem_ne_of_some_none h₂ h₁ (OwnedRecord.label_mem hq₂) heq.symm
  | some a =>
    cases h₂ : r₂.eventId env with
    | none =>
      refine iff_of_false id ?_
      rintro ⟨q₁, hq₁, q₂, hq₂, heq⟩
      exact idem_ne_of_some_none h₁ h₂ (OwnedRecord.label_mem hq₁) heq
    | some b =>
      rw [h₁, h₂] at h
      have hid₁ : (r₁.ctx env).eventId = some a := h₁
      have hid₂ : (r₂.ctx env).eventId = some b := h₂
      have keys : ∀ q₁ ∈ r₁.queued env, ∀ q₂ ∈ r₂.queued env, _ :=
        fun q₁ hq₁ q₂ hq₂ => idem_eq_of_some hid₁ hid₂ h
          (OwnedRecord.label_mem hq₁) (OwnedRecord.label_mem hq₂)
      constructor
      · rintro (⟨hb, q₁, hq₁, q₂, hq₂, hl⟩ | ⟨ha, q₂, hq₂, q₁, hq₁, hl⟩)
        · exact ⟨q₁, hq₁, q₂, hq₂, (keys q₁ hq₁ q₂ hq₂).mpr (.inl ⟨hb, hl⟩)⟩
        · exact ⟨q₁, hq₁, q₂, hq₂, (keys q₁ hq₁ q₂ hq₂).mpr (.inr ⟨ha, hl⟩)⟩
      · rintro ⟨q₁, hq₁, q₂, hq₂, heq⟩
        rcases (keys q₁ hq₁ q₂ hq₂).mp heq with ⟨hb, hl⟩ | ⟨ha, hl⟩
        · exact .inl ⟨hb, q₁, hq₁, q₂, hq₂, hl⟩
        · exact .inr ⟨ha, q₂, hq₂, q₁, hq₁, hl⟩

theorem handleRecord_keysDistinct (mq : Bool) {env : EventEnv} {r₁ r₂ : OwnedRecord}
    (h : Distinct env r₁ r₂) :
    ((∀ ks₁ ks₂, Keys mq env r₁ ks₁ → Keys mq env r₂ ks₂ → ks₁.Disjoint ks₂) ∧
      (∀ ks, Keys mq env r₁ ks → ks.Nodup) ∧ ∀ ks, Keys mq env r₂ ks → ks.Nodup) ↔
      ¬ Collides env r₁ r₂ := by
  have nodup : ∀ rec ks, Keys mq env rec ks → ks.Nodup :=
    fun rec ks hks => (rec.nodup_keys env).sublist hks.prefix_keys.sublist
  rw [collides_iff h]
  constructor
  · rintro ⟨hdisjoint, -⟩ ⟨q₁, hq₁, q₂, hq₂, heq⟩
    exact hdisjoint _ _ (keys_keys mq env r₁) (keys_keys mq env r₂)
      (mem_keys.mpr ⟨q₁, hq₁, heq⟩) (mem_keys.mpr ⟨q₂, hq₂, rfl⟩)
  · intro hapart
    refine ⟨?_, nodup r₁, nodup r₂⟩
    intro ks₁ ks₂ h₁ h₂ k hk₁ hk₂
    obtain ⟨q₁, hq₁, rfl⟩ := mem_keys.mp (h₁.prefix_keys.subset hk₁)
    obtain ⟨q₂, hq₂, heq⟩ := mem_keys.mp (h₂.prefix_keys.subset hk₂)
    exact hapart ⟨q₁, hq₁, q₂, hq₂, heq.symm⟩

def verifiedPayload : String := "\x7b\"event_type\":\"EmailVerified\"," ++
  "\"data\":\x7b\"email\":\"ann@example.com\"\x7d\x7d"

def verifiedPayloadWithId : String := "\x7b\"event_type\":\"EmailVerified\",\"id\":\"a\"," ++
  "\"data\":\x7b\"email\":\"ann@example.com\"\x7d\x7d"

/-- A verified address, as a producer may report it without an id or with one. -/
def EventEnv.verified : EventEnv := .knowing
  [(verifiedPayload, .obj [("event_type", .str "EmailVerified"),
    ("data", .obj [("email", .str "ann@example.com")])]),
  (verifiedPayloadWithId, .obj [("event_type", .str "EmailVerified"), ("id", .str "a"),
    ("data", .obj [("email", .str "ann@example.com")])])] []

def OwnedRecord.verified (topic : String) : OwnedRecord := ⟨some verifiedPayload, topic, 0, 7⟩

def OwnedRecord.verifiedWithId : OwnedRecord :=
  ⟨some verifiedPayloadWithId, "iam.user.events", 0, 7⟩

example : (OwnedRecord.verified "iam.user.events").keys .verified =
    ["kafka:email_verified:0:7"] := rfl

theorem handleRecord_keysDistinct_oneId : Distinct .verified .verifiedWithId
      (.verified "iam.audit.events") ∧
    (((∀ ks₁ ks₂, Keys true .verified .verifiedWithId ks₁ →
        Keys true .verified (.verified "iam.audit.events") ks₂ → ks₁.Disjoint ks₂) ∧
      (∀ ks, Keys true .verified .verifiedWithId ks → ks.Nodup) ∧
      ∀ ks, Keys true .verified (.verified "iam.audit.events") ks → ks.Nodup) ↔
      ¬ Collides .verified .verifiedWithId (.verified "iam.audit.events")) ∧
    ¬ Collides .verified .verifiedWithId (.verified "iam.audit.events") := by
  have hid₁ : OwnedRecord.verifiedWithId.eventId .verified = some "a" := rfl
  have hid₂ : (OwnedRecord.verified "iam.audit.events").eventId .verified = none := rfl
  have hdistinct : Distinct .verified .verifiedWithId (.verified "iam.audit.events") := by
    simp [Distinct, hid₁, hid₂]
  exact ⟨hdistinct, handleRecord_keysDistinct true hdistinct, by simp [Collides, hid₁, hid₂]⟩

/-- The record at one place of two topics: the second notification is dropped as a
repetition of the first. -/
theorem handleRecord_keysShared : ∃ r₁ r₂ ks₁ ks₂, r₁.topic = "iam.user.events" ∧
    r₂.topic = "iam.audit.events" ∧ Distinct .verified r₁ r₂ ∧ Keys true .verified r₁ ks₁ ∧
    Keys true .verified r₂ ks₂ ∧ ¬ ks₁.Disjoint ks₂ := by
  have hid : (OwnedRecord.verified "iam.user.events").eventId .verified = none ∧
      (OwnedRecord.verified "iam.audit.events").eventId .verified = none := ⟨rfl, rfl⟩
  have hkeys : (OwnedRecord.verified "iam.user.events").keys .verified =
      (OwnedRecord.verified "iam.audit.events").keys .verified ∧
      (OwnedRecord.verified "iam.audit.events").keys .verified = ["kafka:email_verified:0:7"] :=
    ⟨rfl, rfl⟩
  refine ⟨.verified "iam.user.events", .verified "iam.audit.events", _, _, rfl, rfl, ?_,
    keys_keys true .verified _, keys_keys true .verified _, ?_⟩
  · rw [Distinct, hid.1, hid.2]
    simp [OwnedRecord.verified]
  · rw [hkeys.1, hkeys.2]
    simp

end NotiService
