import NotiService.Consumer
import NotiService.CreatedRows

/-! Every notification that an event queues can be delivered as far as its shape goes: it has an
address of its channel's kind, variables for a template, and a WebSocket notification before each
push. -/

namespace NotiService
open Foundation Json Orchestrator Events

namespace Events

/-- The fields of a payload that name a user who is told of the event on a socket. -/
def partyFields (eventType : String) (data : Json) : List (Option String) :=
  match eventType with
  | "OrderMatched" => (OrderMatched.parse data).elim [] fun p => [p.buyerId, p.sellerId]
  | "SettlementProcessed" =>
    (SettlementProcessed.parse data).elim [] fun p => [p.buyerId, p.sellerId]
  | "VppDispatched" => (VppDispatched.parse data).elim [] fun p => [p.adminUserId, p.userId]
  | "PriceAlertTriggered" => (PriceAlertTriggered.parse data).elim [] fun p => [p.userId]
  | "UserOnboarded" => (UserOnboarded.parse data).elim [] fun p => [p.userId]
  | "MeterOnboarded" => (MeterOnboarded.parse data).elim [] fun p => [p.userId]
  | "UserWalletLinked" => (UserWalletLinked.parse data).elim [] fun p => [p.userId]
  | "UserWalletUnlinked" => (UserWalletUnlinked.parse data).elim [] fun p => [p.userId]
  | "UserWalletPrimaryChanged" =>
    (UserWalletPrimaryChanged.parse data).elim [] fun p => [p.userId]
  | "UserLoggedIn" => (UserLoggedIn.parse data).elim [] fun p => [p.userId]
  | "OrderCreated" => (OrderCreated.parse data).elim [] fun p => [p.userId]
  | "OrderUpdate" => (OrderUpdate.parse data).elim [] fun p => [p.userId]
  | "MeterRegistered" => (MeterRegistered.parse data).elim [] fun p => [p.userId]
  | "MeterUpdated" => (MeterRegistered.parse data).elim [] fun p => [p.userId]
  | _ => []

def IsParty (env : EventEnv) (eventType : String) (data : Json) (uid : Uuid) : Prop :=
  ∃ s, some s ∈ partyFields eventType data ∧ env.parseStr s = some uid

end Events

structure Deliverable (party : Uuid → Prop) (r : Request) : Prop where
  addressed : r.channel = .webSocket ∨ r.channel = .push →
    ∃ uid, r.userId = some uid ∧ r.recipient = uid.toString ∧ party uid
  mailbox : r.channel = .email → r.recipient ≠ ""
  context : ∃ members, r.vars = .obj members
  envelope : r.channel = .push → r.templateId = "push_notification.txt.tera" ∧
    ∃ title body, r.vars.get "title" = some (.str title) ∧ title ≠ "" ∧
      r.vars.get "body" = some (.str body) ∧ body ≠ ""

/-- Each push comes after a WebSocket notification to the same user. -/
def Announced (rs : List Request) : Prop :=
  ∀ before r after, rs = before ++ r :: after → r.channel = .push →
    ∃ w ∈ before, w.channel = .webSocket ∧ w.userId = r.userId

def InShape (party : Uuid → Prop) (rs : List Request) : Prop :=
  (∀ r ∈ rs, Deliverable party r) ∧ Announced rs

section Shape

variable {party : Uuid → Prop} {rs rs' : List Request} {ctx : MsgCtx} {uid : Uuid}

theorem Announced.append (h : Announced rs) (h' : Announced rs') : Announced (rs ++ rs') := by
  intro before r after heq hpush
  rcases List.append_eq_append_iff.mp heq with ⟨rest, rfl, hrest⟩ | ⟨rest, hrs, hrest⟩
  · obtain ⟨w, hw, hsame⟩ := h' rest r after hrest hpush
    exact ⟨w, List.mem_append_right _ hw, hsame⟩
  · cases rest with
    | nil =>
      obtain ⟨w, hw, -⟩ := h' [] r after hrest.symm hpush
      exact absurd hw List.not_mem_nil
    | cons r' rest =>
      obtain ⟨rfl, -⟩ := List.cons.inj hrest
      exact h before r rest hrs hpush

theorem InShape.append (h : InShape party rs) (h' : InShape party rs') :
    InShape party (rs ++ rs') := by
  refine ⟨fun r hr => ?_, h.2.append h'.2⟩
  rcases List.mem_append.mp hr with hr | hr
  · exact h.1 r hr
  · exact h'.1 r hr

theorem InShape.of_initial (h : InShape party rs) (hinitial : rs' <+: rs) : InShape party rs' := by
  obtain ⟨rest, rfl⟩ := hinitial
  refine ⟨fun r hr => h.1 r (List.mem_append_left _ hr), fun before r after heq hpush => ?_⟩
  refine h.2 before r (after ++ rest) ?_ hpush
  rw [heq, List.append_assoc, List.cons_append]

theorem inShape_nil : InShape party [] :=
  ⟨nofun, fun _ _ _ heq => nomatch (List.append_eq_nil_iff.mp heq.symm).2⟩

theorem inShape_flatMap {α : Type} {f : α → List Queued} {as : List α}
    (h : ∀ a ∈ as, InShape party ((f a).map (Queued.request ctx))) :
    InShape party ((as.flatMap f).map (Queued.request ctx)) := by
  induction as with
  | nil => exact inShape_nil
  | cons a as ih =>
    rw [List.flatMap_cons, List.map_append]
    exact (h a (List.mem_cons_self ..)).append (ih fun b hb => h b (List.mem_cons_of_mem _ hb))

theorem announced_singleton {r : Request} (h : r.channel ≠ .push) : Announced [r] := by
  intro before r' after heq hpush
  have hmem : r' ∈ [r] := by
    rw [heq]
    exact List.mem_append_right _ (List.mem_cons_self ..)
  rw [List.mem_singleton.mp hmem] at hpush
  exact absurd hpush h

theorem inShape_mail {label recipient templateId : String} {userId : Option Uuid}
    {members : List (String × Json)} (h : recipient ≠ "") :
    InShape party ([⟨label, userId, .email, recipient, templateId, .obj members⟩].map
      (Queued.request ctx)) := by
  refine ⟨List.forall_mem_singleton.mpr ?_, announced_singleton nofun⟩
  exact ⟨(Or.elim · nofun nofun), fun _ => h, ⟨_, rfl⟩, nofun⟩

variable (h : party uid) {templateId label label' title body : String}
  {members : List (String × Json)}
include h

theorem inShape_ws :
    InShape party ([queueWs uid templateId members label].map (Queued.request ctx)) :=
  ⟨List.forall_mem_singleton.mpr ⟨fun _ => ⟨uid, rfl, rfl, h⟩, nofun, ⟨_, rfl⟩, nofun⟩,
    announced_singleton nofun⟩

theorem inShape_alert (htitle : title ≠ "") (hbody : body ≠ "") :
    InShape party ([queueWs uid templateId members label, queuePush uid title body label'].map
      (Queued.request ctx)) := by
  constructor
  · intro r hr
    rcases List.mem_cons.mp hr with rfl | hr
    · exact inShape_ws h |>.1 _ (List.mem_singleton_self _)
    · obtain rfl := List.mem_singleton.mp hr
      exact ⟨fun _ => ⟨uid, rfl, rfl, h⟩, nofun, ⟨_, rfl⟩, fun _ => ⟨rfl, title, body, rfl, htitle,
        rfl, hbody⟩⟩
  · intro before r after heq hpush
    cases before with
    | nil =>
      obtain ⟨rfl, -⟩ := List.cons.inj heq
      cases hpush
    | cons w before =>
      obtain ⟨rfl, hrest⟩ := List.cons.inj heq
      refine ⟨_, List.mem_cons_self .., rfl, ?_⟩
      cases before with
      | nil =>
        obtain ⟨rfl, -⟩ := List.cons.inj hrest
        rfl
      | cons w' before =>
        obtain ⟨-, hrest⟩ := List.cons.inj hrest
        cases (List.append_eq_nil_iff.mp hrest.symm).2

end Shape

namespace Events

section Handlers

variable (env : EventEnv) (ctx : MsgCtx) (data : Json)

/-- What an event of a type queues is in shape for the parties of its payload. -/
def Sound (eventType : String) (qs : List Queued) : Prop :=
  InShape (IsParty env eventType data) (qs.map (Queued.request ctx))

variable {env data}

theorem isParty {eventType : String} {id : Option String} {uid : Uuid}
    (h : parseUuid env id = some uid) (hfield : id ∈ partyFields eventType data) :
    IsParty env eventType data uid := by
  obtain ⟨s, rfl, hparse⟩ := Option.bind_eq_some_iff.mp h
  exact ⟨s, hfield, hparse⟩

theorem mem_of_side {buyer seller id : Option String} {role : String}
    (h : (role, id) ∈ [("buyer", buyer), ("seller", seller)]) : id ∈ [buyer, seller] :=
  List.mem_map_of_mem h (f := Prod.snd)

variable (env data)

theorem orderMatched_sound : Sound env ctx data "OrderMatched" (orderMatched env data) := by
  unfold orderMatched
  split
  · exact inShape_nil
  · next p hp =>
    refine inShape_flatMap fun (role, id) hid => ?_
    dsimp only
    split
    · exact inShape_nil
    · next uid huid =>
      have hfield : id ∈ partyFields "OrderMatched" data := by
        show id ∈ (OrderMatched.parse data).elim [] fun p => [p.buyerId, p.sellerId]
        rw [hp]
        exact mem_of_side hid
      exact inShape_alert (isParty huid hfield) (by decide) (by simp)

theorem settlementProcessed_sound :
    Sound env ctx data "SettlementProcessed" (settlementProcessed env data) := by
  unfold settlementProcessed
  split
  · exact inShape_nil
  · next p hp =>
    refine inShape_flatMap fun (role, id) hid => ?_
    dsimp only
    split
    · exact inShape_nil
    · next uid huid =>
      have hfield : id ∈ partyFields "SettlementProcessed" data := by
        show id ∈ (SettlementProcessed.parse data).elim [] fun p => [p.buyerId, p.sellerId]
        rw [hp]
        exact mem_of_side hid
      exact inShape_alert (isParty huid hfield) (by decide) (by simp)

theorem vppDispatched_sound : Sound env ctx data "VppDispatched" (vppDispatched env data) := by
  unfold vppDispatched
  split
  · exact inShape_nil
  · next p hp =>
    split
    · exact inShape_nil
    · next uid huid =>
      refine inShape_ws (isParty huid ?_)
      show _ ∈ (VppDispatched.parse data).elim [] fun p => [p.adminUserId, p.userId]
      rw [hp]
      cases hadmin : p.adminUserId <;> simp [hadmin]

theorem orderUpdate_sound : Sound env ctx data "OrderUpdate" (orderUpdate env data) := by
  unfold orderUpdate
  split
  · exact inShape_nil
  · next p hp =>
    split
    · exact inShape_nil
    · next uid huid =>
      have hfield : p.userId ∈ partyFields "OrderUpdate" data := by
        show p.userId ∈ (OrderUpdate.parse data).elim [] fun p => [p.userId]
        rw [hp]
        exact List.mem_singleton_self _
      have hparty : IsParty env "OrderUpdate" data uid := isParty huid hfield
      dsimp only
      split
      · exact inShape_alert hparty (by decide) (by simp)
      · exact inShape_ws hparty

theorem accountLocked_sound : Sound env ctx data "AccountLocked" (accountLocked data) := by
  unfold accountLocked
  split
  · exact inShape_nil
  · split
    · next hat =>
      refine inShape_mail fun hempty => ?_
      rw [hempty] at hat
      cases hat
    · exact inShape_nil

theorem queueing_sound (eventType : String) :
    Sound env ctx data eventType (queueing env eventType data) := by
  unfold queueing
  split
  case h_1 | h_21 => exact inShape_nil
  case h_3 => exact orderMatched_sound env ctx data
  case h_4 => exact settlementProcessed_sound env ctx data
  case h_6 => exact vppDispatched_sound env ctx data
  case h_16 => exact accountLocked_sound env ctx data
  case h_18 => exact orderUpdate_sound env ctx data
  -- every other handler mails, or tells the one user of its payload
  all_goals
    simp only [emailVerified, ercIssued, priceAlertTriggered, passwordResetRequested,
      verificationEmailRequested, userOnboarded, meterOnboarded, walletLinkRequested,
      userWalletLinked, userWalletUnlinked, userWalletPrimaryChanged, orderCreated,
      meterRegistered, securityAlert]
    repeat' split
  all_goals first
    | exact inShape_nil
    | exact inShape_mail (by simp_all)
    | exact inShape_ws (isParty ‹_› (by simp [partyFields, *]))
    | exact inShape_alert (isParty ‹_› (by simp [partyFields, *])) (by decide) (by simp)

theorem queued_sound (eventType : String) :
    Sound env ctx data eventType (queued env eventType data) := by
  unfold queued
  split
  · next hlogin =>
    cases hcheck : loginCheck env data with
    | none => exact inShape_nil
    | some check =>
      simp only [loginCheck, Option.bind_eq_bind, Option.bind_eq_some_iff, Option.pure_def,
        Option.some.injEq] at hcheck
      obtain ⟨p, hp, uid, huid, ip, -, rfl⟩ := hcheck
      refine inShape_alert (isParty huid ?_) (by decide) (by simp)
      subst hlogin
      show p.userId ∈ (UserLoggedIn.parse data).elim [] fun p => [p.userId]
      rw [hp]
      exact List.mem_singleton_self _
  · exact queueing_sound env ctx data eventType

end Handlers

end Events

/-- All that a run of `dispatch` asks to be queued can be delivered as far as its shape goes. -/
theorem dispatch_inShape {mq : Bool} {env : EventEnv} {ctx : MsgCtx} {eventType : String}
    {data : Json} {rs : List Request} {r : Option (Except NotiError Unit)}
    (h : Program.Path Op.request (dispatch mq env ctx eventType data).run rs r) :
    InShape (IsParty env eventType data) rs :=
  (queued_sound env ctx data eventType).of_initial
    (dispatch_rows mq (request_request ctx) h)

def firedPayload : Json := .obj [("user_id", .str (Uuid.toString ⟨7⟩)), ("condition", .str "above")]

theorem dispatch_inShape_fired : InShape (IsParty
    (.knowing [] [⟨7⟩]) "PriceAlertTriggered" firedPayload)
      ((queued (.knowing [] [⟨7⟩]) "PriceAlertTriggered" firedPayload).map
        (Queued.request ⟨0, 7, none⟩)) ∧
    (queued (.knowing [] [⟨7⟩]) "PriceAlertTriggered" firedPayload).map Queued.channel =
      [.webSocket, .push] :=
  ⟨dispatch_inShape (dispatch_allRows true (request_request _)), rfl⟩

end NotiService
