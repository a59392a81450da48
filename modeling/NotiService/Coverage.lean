import NotiService.Pages
import NotiService.EventKeys

/-! Every notification that the event handlers queue has a template that is shipped, and
gives it the variables it prints, whatever the payload of the event. -/

namespace NotiService
open Foundation

/-- The templates that the handlers use, with the variables they give. -/
def Events.shapes : List (String × List String) :=
  [("push_notification.txt.tera", ["title", "body"]),
   ("welcome.html.tera", ["name", "dashboard_url"]),
   ("trade_matched.txt.tera", ["role", "amount", "price"]),
   ("order_created.txt.tera",
    ["order_id", "order_type", "side", "energy_amount", "price_per_kwh", "status"]),
   ("settlement_processed.txt.tera", ["role", "status", "tx_signature", "amount", "price"]),
   ("erc_issued.html.tera", ["amount", "unit"]),
   ("vpp_dispatched.txt.tera", ["cluster_id", "target_kw", "members_count"]),
   ("price_alert_triggered.txt.tera", ["condition", "target_price", "triggered_price"]),
   ("password_reset.html.tera", ["reset_url"]),
   ("verify_email.html.tera", ["name", "verification_url"]),
   ("user_onboarded.txt.tera", ["user_account_pda", "transaction_signature"]),
   ("order_update.txt.tera", ["order_id", "filled_amount", "status"]),
   ("meter_registered.txt.tera", ["serial_number", "meter_id", "zone_id", "status"]),
   ("meter_onboarded.txt.tera", ["meter_id", "meter_type", "transaction_signature"]),
   ("confirm_wallet.html.tera", ["name", "wallet_address", "confirmation_url"]),
   ("security_alert.txt.tera",
    ["headline", "summary", "wallet_address", "shard_id", "transaction_signature"]),
   ("account_locked.html.tera", ["identifier", "lockout_minutes"]),
   ("new_login.txt.tera", ["username", "ip_address"])]

def Queued.Shaped (q : Queued) : Prop :=
  ∃ members, q.vars = .obj members ∧ (q.templateId, members.map Prod.fst) ∈ Events.shapes

namespace Events

variable {env : EventEnv} {data : Json}

theorem orderMatched_shaped : ∀ q ∈ orderMatched env data, q.Shaped := by
  unfold orderMatched
  split
  · exact fun _ hq => nomatch hq
  · rw [List.forall_mem_flatMap]
    rintro ⟨role, id⟩ -
    dsimp only
    split
    · exact fun _ hq => nomatch hq
    · simp [Queued.Shaped, shapes, queueWs, queuePush]

theorem settlementProcessed_shaped : ∀ q ∈ settlementProcessed env data, q.Shaped := by
  unfold settlementProcessed
  split
  · exact fun _ hq => nomatch hq
  · rw [List.forall_mem_flatMap]
    rintro ⟨role, id⟩ -
    dsimp only
    split
    · exact fun _ hq => nomatch hq
    · simp [Queued.Shaped, shapes, queueWs, queuePush]

theorem queueing_shaped (eventType : String) :
    ∀ q ∈ queueing env eventType data, q.Shaped := by
  unfold queueing
  split
  case h_1 | h_21 => exact fun _ hq => nomatch hq
  case h_3 => exact orderMatched_shaped
  case h_4 => exact settlementProcessed_shaped
  all_goals
    simp only [emailVerified, ercIssued, vppDispatched, priceAlertTriggered,
      passwordResetRequested, verificationEmailRequested, userOnboarded, meterOnboarded,
      walletLinkRequested, userWalletLinked, userWalletUnlinked, userWalletPrimaryChanged,
      accountLocked, orderCreated, meterRegistered, orderUpdate, securityAlert]
    repeat' split
  all_goals simp [Queued.Shaped, shapes, queueWs, queuePush]

theorem queued_shaped (eventType : String) : ∀ q ∈ queued env eventType data, q.Shaped := by
  unfold queued
  split
  · cases hcheck : loginCheck env data with
    | none => exact fun _ hq => nomatch hq
    | some check =>
      simp only [loginCheck, Option.bind_eq_bind, Option.bind_eq_some_iff, Option.pure_def,
        Option.some.injEq] at hcheck
      obtain ⟨p, -, uid, -, ip, -, rfl⟩ := hcheck
      simp [loginAlert, Queued.Shaped, shapes, queueWs, queuePush]
  · exact queueing_shaped eventType

theorem shapes_covered : ∀ shape ∈ shapes, ∃ names, Templates.required shape.1 = some names ∧
    names ⊆ shape.2 := by
  have hdecided : ∀ shape ∈ shapes,
      (Templates.required shape.1).any fun names => names.all (· ∈ shape.2) := by
    decide +kernel
  intro shape hshape
  obtain ⟨names, hnames, hall⟩ := (Option.any_eq_true _ _).mp (hdecided shape hshape)
  exact ⟨names, hnames, fun name hname => by simpa using List.all_eq_true.mp hall name hname⟩

theorem renders_of_shaped {q : Queued} (hq : q.Shaped) (T : Tera) (now : Int) :
    (T.shipped.render q.templateId q.vars now).isSome := by
  obtain ⟨members, hvars, hshape⟩ := hq
  obtain ⟨names, hnames, hsub⟩ := shapes_covered _ hshape
  rw [hvars, Tera.render_isSome_iff]
  refine ⟨names, hnames, fun name hname => ?_⟩
  obtain ⟨member, hmember, rfl⟩ := List.mem_map.mp (hsub hname)
  rw [Json.lookup, Option.isSome_map, List.find?_isSome]
  exact ⟨member, hmember, decide_eq_true rfl⟩

end Events

/-- The requests that the processing of a record makes are those that its event queues, up to
where it stops. -/
theorem handleRecord_requests {mq : Bool} {env : EventEnv} {rec : OwnedRecord}
    {rs : List Request} {r : Option (Except RecordError Unit)}
    (h : Program.Path Op.request (Consumer.handleRecord mq env rec) rs r) :
    rs <+: (rec.queued env).map (Queued.request (rec.ctx env)) := by
  have handling : ∀ {rs r}, Program.Path Op.request (rec.handling mq env).run rs r →
      rs <+: (rec.queued env).map (Queued.request (rec.ctx env)) := by
    intro rs r h
    unfold OwnedRecord.handling at h
    split at h
    · exact Events.queueAll_rows mq (Events.request_request _) h
    · exact Events.alertIfNew_rows mq (Events.request_request _) h
  rcases Consumer.handleRecord_cases mq env rec with ⟨a, ha, -⟩ | heq
  · rw [ha] at h
    obtain ⟨rfl, -⟩ := Program.path_done h
    exact List.nil_prefix
  · rw [heq] at h
    rcases Program.path_bind h with ⟨hstop, -⟩ | ⟨rs₁, rs₂, a, h₁, h₂, rfl⟩
    · exact handling hstop
    · obtain ⟨rfl, -⟩ := Program.path_done h₂
      rw [List.append_nil]
      exact handling h₁

/-- Whatever the record and however its processing goes, every notification it creates has a
template that is shipped and renders with the variables it was given. -/
theorem handleRecord_renders (T : Tera) {mq : Bool} {env : EventEnv} {rec : OwnedRecord}
    {rs : List Request} {r : Option (Except RecordError Unit)}
    (h : Program.Path Op.request (Consumer.handleRecord mq env rec) rs r) :
    ∀ request ∈ rs, ∀ now, (T.shipped.render request.templateId request.vars now).isSome := by
  intro request hrequest now
  obtain ⟨q, hq, rfl⟩ := List.mem_map.mp ((handleRecord_requests h).subset hrequest)
  unfold OwnedRecord.queued at hq
  cases hevent : rec.event env with
  | none =>
    rw [hevent] at hq
    cases hq
  | some e =>
    rw [hevent] at hq
    exact Events.renders_of_shaped (Events.queued_shaped e.eventType q hq) T now

theorem handleRecord_renders_verified :
    Program.Path Op.request (Consumer.handleRecord true .verified (.verified "iam.user.events"))
      [⟨none, .email, "ann@example.com", "welcome.html.tera",
        .obj [("name", .str ""), ("dashboard_url", .str "https://app.gridtokenx.xyz")],
        some "kafka:email_verified:0:7"⟩] (some (.ok ())) ∧
    ∀ now, (Tera.sample.shipped.render "welcome.html.tera" (.obj [("name", .str ""),
      ("dashboard_url", .str "https://app.gridtokenx.xyz")]) now).isSome := by
  let rec₁ := OwnedRecord.verified "iam.user.events"
  have hpath : Program.Path Op.request (Consumer.handleRecord true .verified rec₁)
      ((rec₁.queued .verified).map (Queued.request (rec₁.ctx .verified))) (some (.ok ())) := by
    rcases Consumer.handleRecord_cases true .verified rec₁ with ⟨a, -, hnone⟩ | heq
    · cases hnone
    · rw [heq, ← List.append_nil (List.map _ _)]
      exact (Events.queueAll_allRows true (Events.request_request _) _).bind (.done _)
  refine ⟨hpath, fun now => ?_⟩
  exact handleRecord_renders Tera.sample hpath _ (List.mem_cons_self ..) now

end NotiService
