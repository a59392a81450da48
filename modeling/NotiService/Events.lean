import NotiService.Orchestrator
import NotiService.Url
import NotiService.Foundation.Text

/-! Typed Kafka event payloads and per-event handlers. A handler that only queues is the
list of the notifications it queues, in order, each with the label of its idempotency
key: `dispatch` queues one after the other and stops at the first that fails. Sign-ins
ask the cache first. -/

namespace NotiService
open Foundation Json Orchestrator Url

/-- What the handlers use of the uuid and JSON libraries, and the configured base URL. -/
structure EventEnv where
  frontendUrl : Option String
  parseStr : String → Option Uuid
  toString : Json → String
  fromStr : String → Except String Json

structure MsgCtx where
  partition : Int
  offset : Int
  eventId : Option String

def MsgCtx.idem (ctx : MsgCtx) (label : String) : String :=
  match ctx.eventId with
  | some id => label ++ ":" ++ id
  | none => "kafka:" ++ label ++ ":" ++ ctx.partition.repr ++ ":" ++ ctx.offset.repr

/-- The arguments of one call of `queue_notification`, its key by the label. -/
structure Queued where
  label : String
  userId : Option Uuid
  channel : NotificationChannel
  recipient : String
  templateId : String
  vars : Json

def Queued.request (ctx : MsgCtx) (q : Queued) : Request :=
  ⟨q.userId, q.channel, q.recipient, q.templateId, q.vars, some (ctx.idem q.label)⟩

namespace Events

def parseUuid (env : EventEnv) (s : Option String) : Option Uuid := s.bind env.parseStr

/-- A string bare, any other value as compact JSON. -/
def plain (env : EventEnv) (value : Json) : String := value.asStr.getD (env.toString value)

def queuePush (uid : Uuid) (title body label : String) : Queued :=
  ⟨label, some uid, .push, uid.toString, "push_notification.txt.tera",
    .obj [("title", .str title), ("body", .str body)]⟩

def queueWs (uid : Uuid) (templateId : String) (vars : List (String × Json)) (label : String) :
    Queued := ⟨label, some uid, .webSocket, uid.toString, templateId, .obj vars⟩

structure EmailVerified where
  userId : Option String
  email : String
  username : String

def EmailVerified.parse (data : Json) : Option EmailVerified := do
  let [userId, email, username] ← structFields [["user_id"], ["email"], ["username"]] data | none
  return ⟨← optStringField userId, ← stringField email, ← stringField username⟩

def emailVerified (env : EventEnv) (data : Json) : List Queued :=
  match EmailVerified.parse data with
  | none => []
  | some p =>
    if p.email = "" then []
    else
      let dashboardUrl := match env.frontendUrl with
        | none => "https://app.gridtokenx.xyz"
        | some base => trimEndSlashes base
      [⟨"email_verified", parseUuid env p.userId, .email, p.email, "welcome.html.tera",
        .obj [("name", .str p.username), ("dashboard_url", .str dashboardUrl)]⟩]

structure OrderMatched where
  buyerId : Option String
  sellerId : Option String
  amount : Json
  price : Json

def OrderMatched.parse (data : Json) : Option OrderMatched := do
  let [buyerId, sellerId, amount, price] ←
    structFields [["buyer_id"], ["seller_id"], ["amount"], ["price"]] data | none
  return ⟨← optStringField buyerId, ← optStringField sellerId, ← valueField amount,
    ← valueField price⟩

def orderMatched (env : EventEnv) (data : Json) : List Queued :=
  match OrderMatched.parse data with
  | none => []
  | some p =>
    [("buyer", p.buyerId), ("seller", p.sellerId)].flatMap fun (role, id) =>
      match parseUuid env id with
      | none => []
      | some uid =>
        [queueWs uid "trade_matched.txt.tera"
          [("role", .str role), ("amount", p.amount), ("price", p.price)]
          ("matched:" ++ role ++ ":ws"),
        queuePush uid "Trade Matched"
          ("Your " ++ role ++ " order matched: " ++ plain env p.amount ++ " kWh @ " ++
            plain env p.price)
          ("matched:" ++ role ++ ":push")]

structure OrderCreated where
  id : Option String
  userId : Option String
  orderType : String
  side : String
  energyAmount : Json
  pricePerKwh : Json
  status : String

def OrderCreated.parse (data : Json) : Option OrderCreated := do
  let [id, userId, orderType, side, energyAmount, pricePerKwh, status] ←
    structFields [["id"], ["user_id"], ["order_type"], ["side"], ["energy_amount"],
      ["price_per_kwh"], ["status"]] data | none
  return ⟨← optStringField id, ← optStringField userId, ← stringField orderType,
    ← stringField side, ← valueField energyAmount, ← valueField pricePerKwh,
    ← stringField status⟩

def orderCreated (env : EventEnv) (data : Json) : List Queued :=
  match OrderCreated.parse data with
  | none => []
  | some p =>
    match parseUuid env p.userId with
    | none => []
    | some uid =>
      [queueWs uid "order_created.txt.tera"
        [("order_id", .str (p.id.getD "")), ("order_type", .str p.orderType),
          ("side", .str p.side), ("energy_amount", .str (plain env p.energyAmount)),
          ("price_per_kwh", .str (plain env p.pricePerKwh)), ("status", .str p.status)]
        "order_created"]

structure SettlementProcessed where
  status : String
  txSignature : String
  buyerId : Option String
  sellerId : Option String
  amount : Json
  price : Json

def SettlementProcessed.parse (data : Json) : Option SettlementProcessed := do
  let [status, txSignature, buyerId, sellerId, amount, price] ←
    structFields [["status"], ["tx_signature"], ["buyer_id"], ["seller_id"], ["amount"],
      ["price"]] data | none
  return ⟨← stringField status, ← stringField txSignature, ← optStringField buyerId,
    ← optStringField sellerId, ← valueField amount, ← valueField price⟩

def settlementProcessed (env : EventEnv) (data : Json) : List Queued :=
  match SettlementProcessed.parse data with
  | none => []
  | some p =>
    let status := if p.status = "" then "unknown" else p.status
    [("buyer", p.buyerId), ("seller", p.sellerId)].flatMap fun (role, id) =>
      match parseUuid env id with
      | none => []
      | some uid =>
        [queueWs uid "settlement_processed.txt.tera"
          [("role", .str role), ("status", .str status), ("tx_signature", .str p.txSignature),
            ("amount", p.amount), ("price", p.price)]
          ("settlement:" ++ role),
        queuePush uid "Trade Settled"
          ("Your " ++ role ++ " trade settled (" ++ status ++ "): " ++ plain env p.amount ++
            " kWh @ " ++ plain env p.price)
          ("settlement:" ++ role ++ ":push")]

structure ErcIssued where
  userId : Option String
  email : Option String
  recipientEmail : Option String
  energyAmount : Json
  energyUnit : Option String

def ErcIssued.parse (data : Json) : Option ErcIssued := do
  let [userId, email, recipientEmail, energyAmount, energyUnit] ←
    structFields [["user_id"], ["email"], ["recipient_email"], ["energy_amount"],
      ["energy_unit", "unit"]] data | none
  return ⟨← optStringField userId, ← optStringField email, ← optStringField recipientEmail,
    ← valueField energyAmount, ← optStringField energyUnit⟩

def defaultEnergyUnit : String := "MWh"

def ercIssued (env : EventEnv) (data : Json) : List Queued :=
  match ErcIssued.parse data with
  | none => []
  | some p =>
    let email := ((p.email.filter (· ≠ "")).or p.recipientEmail).getD ""
    if email = "" then []
    else
      let unit := ((p.energyUnit.map fun s => String.ofList (Text.trim s.toList)).filter
        (· ≠ "")).getD defaultEnergyUnit
      [⟨"erc", parseUuid env p.userId, .email, email, "erc_issued.html.tera",
        .obj [("amount", p.energyAmount), ("unit", .str unit)]⟩]

structure VppDispatched where
  clusterId : String
  targetKw : F64
  membersCommanded : Nat
  adminUserId : Option String
  userId : Option String

def VppDispatched.parse (data : Json) : Option VppDispatched := do
  let [clusterId, targetKw, membersCommanded, adminUserId, userId] ←
    structFields [["cluster_id"], ["target_kw"], ["members_commanded"], ["admin_user_id"],
      ["user_id"]] data | none
  return ⟨← stringField clusterId, ← f64Field targetKw, ← u64Field membersCommanded,
    ← optStringField adminUserId, ← optStringField userId⟩

def vppDispatched (env : EventEnv) (data : Json) : List Queued :=
  match VppDispatched.parse data with
  | none => []
  | some p =>
    match parseUuid env (p.adminUserId.or p.userId) with
    | none => []
    | some uid =>
      [queueWs uid "vpp_dispatched.txt.tera"
        [("cluster_id", .str p.clusterId), ("target_kw", .num (.float p.targetKw)),
          ("members_count", .num (.int p.membersCommanded))]
        "vpp_dispatch"]

structure PriceAlertTriggered where
  userId : Option String
  targetPrice : Json
  triggeredPrice : Json
  condition : String

def PriceAlertTriggered.parse (data : Json) : Option PriceAlertTriggered := do
  let [userId, targetPrice, triggeredPrice, condition] ←
    structFields [["user_id"], ["target_price"], ["triggered_price"], ["condition"]] data | none
  return ⟨← optStringField userId, ← valueField targetPrice, ← valueField triggeredPrice,
    ← stringField condition⟩

def priceAlertTriggered (env : EventEnv) (data : Json) : List Queued :=
  match PriceAlertTriggered.parse data with
  | none => []
  | some p =>
    match parseUuid env p.userId with
    | none => []
    | some uid =>
      [queueWs uid "price_alert_triggered.txt.tera"
        [("condition", .str p.condition), ("target_price", p.targetPrice),
          ("triggered_price", p.triggeredPrice)]
        "price_alert",
      queuePush uid "Price Alert Triggered"
        ("Alert fired (" ++ p.condition ++ " " ++ plain env p.targetPrice ++
          "). Market price: " ++ plain env p.triggeredPrice)
        "price_alert:push"]

/-- The upstream link on the frontend's base, or one made from the token. -/
def callbackUrl (env : EventEnv) (upstreamUrl token path query : String) : String :=
  if upstreamUrl ≠ "" then rewriteUrl env.frontendUrl upstreamUrl
  else if token ≠ "" then buildCallbackUrl env.frontendUrl path query
  else upstreamUrl

structure PasswordResetRequested where
  userId : Option String
  email : String
  resetUrl : String
  token : String

def PasswordResetRequested.parse (data : Json) : Option PasswordResetRequested := do
  let [userId, email, resetUrl, token] ←
    structFields [["user_id"], ["email"], ["reset_url"], ["token"]] data | none
  return ⟨← optStringField userId, ← stringField email, ← stringField resetUrl,
    ← stringField token⟩

def passwordResetRequested (env : EventEnv) (data : Json) : List Queued :=
  match PasswordResetRequested.parse data with
  | none => []
  | some p =>
    -- the token goes into the link as it is
    let resetUrl := callbackUrl env p.resetUrl p.token "reset-password" ("token=" ++ p.token)
    if p.email = "" then []
    else
      [⟨"pwd_reset", parseUuid env p.userId, .email, p.email, "password_reset.html.tera",
        .obj [("reset_url", .str resetUrl)]⟩]

structure VerificationEmailRequested where
  userId : Option String
  email : String
  username : String
  verificationUrl : String
  token : String

def VerificationEmailRequested.parse (data : Json) : Option VerificationEmailRequested := do
  let [userId, email, username, verificationUrl, token] ←
    structFields [["user_id"], ["email"], ["username"], ["verification_url"], ["token"]] data
    | none
  return ⟨← optStringField userId, ← stringField email, ← stringField username,
    ← stringField verificationUrl, ← stringField token⟩

def verificationEmailRequested (env : EventEnv) (data : Json) : List Queued :=
  match VerificationEmailRequested.parse data with
  | none => []
  | some p =>
    let verificationUrl := callbackUrl env p.verificationUrl p.token "verify"
      ("token=" ++ urlencode p.token ++ "&email=" ++ urlencode p.email)
    if p.email = "" then []
    else if verificationUrl = "" then []
    else
      [⟨"verify_email", parseUuid env p.userId, .email, p.email, "verify_email.html.tera",
        .obj [("name", .str p.username), ("verification_url", .str verificationUrl)]⟩]

structure UserOnboarded where
  userId : Option String
  userAccountPda : String
  transactionSignature : String

def UserOnboarded.parse (data : Json) : Option UserOnboarded := do
  let [userId, userAccountPda, transactionSignature] ←
    structFields [["user_id"], ["user_account_pda"], ["transaction_signature"]] data | none
  return ⟨← optStringField userId, ← stringField userAccountPda,
    ← stringField transactionSignature⟩

def userOnboarded (env : EventEnv) (data : Json) : List Queued :=
  match UserOnboarded.parse data with
  | none => []
  | some p =>
    match parseUuid env p.userId with
    | none => []
    | some uid =>
      [queueWs uid "user_onboarded.txt.tera"
        [("user_account_pda", .str p.userAccountPda),
          ("transaction_signature", .str p.transactionSignature)]
        "onboard"]

structure OrderUpdate where
  id : Option String
  userId : Option String
  filledAmount : Json
  status : String

def OrderUpdate.parse (data : Json) : Option OrderUpdate := do
  let [id, userId, filledAmount, status] ←
    structFields [["id"], ["user_id"], ["filled_amount"], ["status"]] data | none
  return ⟨← optStringField id, ← optStringField userId, ← valueField filledAmount,
    ← stringField status⟩

def orderUpdate (env : EventEnv) (data : Json) : List Queued :=
  match OrderUpdate.parse data with
  | none => []
  | some p =>
    match parseUuid env p.userId with
    | none => []
    | some uid =>
      let filled := plain env p.filledAmount
      queueWs uid "order_update.txt.tera"
        [("order_id", .str (p.id.getD "")), ("filled_amount", .str filled),
          ("status", .str p.status)]
        "order_update" ::
      if p.status = "filled" ∨ p.status = "cancelled" ∨ p.status = "expired" then
        [queuePush uid "Order Update"
          ("Your order is " ++ p.status ++ " (" ++ filled ++ " kWh filled).")
          "order_update:push"]
      else []

structure MeterRegistered where
  userId : Option String
  serialNumber : String
  meterId : Option String
  zoneId : Option Int
  status : String

def MeterRegistered.parse (data : Json) : Option MeterRegistered := do
  let [userId, serialNumber, meterId, zoneId, status] ←
    structFields [["user_id"], ["serial_number"], ["meter_id"], ["zone_id"], ["status"]] data
    | none
  return ⟨← optStringField userId, ← stringField serialNumber, ← optStringField meterId,
    ← optI32Field zoneId, ← stringField status⟩

def meterRegistered (env : EventEnv) (data : Json) : List Queued :=
  match MeterRegistered.parse data with
  | none => []
  | some p =>
    match parseUuid env p.userId with
    | none => []
    | some uid =>
      [queueWs uid "meter_registered.txt.tera"
        [("serial_number", .str p.serialNumber), ("meter_id", .str (p.meterId.getD "")),
          ("zone_id", .str ((p.zoneId.map Int.repr).getD "")), ("status", .str p.status)]
        "meter_registered"]

structure MeterOnboarded where
  userId : Option String
  meterId : String
  meterType : String
  transactionSignature : String

def MeterOnboarded.parse (data : Json) : Option MeterOnboarded := do
  let [userId, meterId, meterType, transactionSignature] ←
    structFields [["user_id"], ["meter_id"], ["meter_type"], ["transaction_signature"]] data
    | none
  return ⟨← optStringField userId, ← stringField meterId, ← stringField meterType,
    ← stringField transactionSignature⟩

def meterOnboarded (env : EventEnv) (data : Json) : List Queued :=
  match MeterOnboarded.parse data with
  | none => []
  | some p =>
    match parseUuid env p.userId with
    | none => []
    | some uid =>
      [queueWs uid "meter_onboarded.txt.tera"
        [("meter_id", .str p.meterId), ("meter_type", .str p.meterType),
          ("transaction_signature", .str p.transactionSignature)]
        "meter"]

structure WalletLinkRequested where
  userId : Option String
  email : String
  username : String
  walletAddress : String
  confirmationUrl : String
  token : String

def WalletLinkRequested.parse (data : Json) : Option WalletLinkRequested := do
  let [userId, email, username, walletAddress, confirmationUrl, token] ←
    structFields [["user_id"], ["email"], ["username"], ["wallet_address"],
      ["confirmation_url"], ["token"]] data | none
  return ⟨← optStringField userId, ← stringField email, ← stringField username,
    ← stringField walletAddress, ← stringField confirmationUrl, ← stringField token⟩

def walletLinkRequested (env : EventEnv) (data : Json) : List Queued :=
  match WalletLinkRequested.parse data with
  | none => []
  | some p =>
    let confirmationUrl := callbackUrl env p.confirmationUrl p.token "wallet/confirm"
      ("token=" ++ urlencode p.token ++ "&wallet=" ++ urlencode p.walletAddress)
    if p.email = "" ∨ p.walletAddress = "" then []
    else if confirmationUrl = "" then []
    else
      [⟨"wallet_confirm", parseUuid env p.userId, .email, p.email, "confirm_wallet.html.tera",
        .obj [("name", .str p.username), ("wallet_address", .str p.walletAddress),
          ("confirmation_url", .str confirmationUrl)]⟩]

/-- The two notifications of a change to a wallet. -/
def securityAlert (uid : Uuid) (headline summary walletAddress : String)
    (shardId transactionSignature : Json) (title body label : String) : List Queued :=
  [queueWs uid "security_alert.txt.tera"
    [("headline", .str headline), ("summary", .str summary),
      ("wallet_address", .str walletAddress), ("shard_id", shardId),
      ("transaction_signature", transactionSignature)] label,
  queuePush uid title body (label ++ ":push")]

structure UserWalletLinked where
  userId : Option String
  walletAddress : String
  shardId : Nat
  transactionSignature : String

def UserWalletLinked.parse (data : Json) : Option UserWalletLinked := do
  let [userId, walletAddress, shardId, transactionSignature] ←
    structFields [["user_id"], ["wallet_address"], ["shard_id"], ["transaction_signature"]] data
    | none
  return ⟨← optStringField userId, ← stringField walletAddress, ← u64Field shardId,
    ← stringField transactionSignature⟩

def userWalletLinked (env : EventEnv) (data : Json) : List Queued :=
  match UserWalletLinked.parse data with
  | none => []
  | some p =>
    match parseUuid env p.userId with
    | none => []
    | some uid =>
      securityAlert uid "New Wallet Linked"
        "A new Solana wallet has been linked to your GridTokenX account." p.walletAddress
        (.num (.int p.shardId)) (.str p.transactionSignature) "Security Alert: Wallet Linked"
        ("A wallet (" ++ p.walletAddress ++ ") was linked to your account.") "wallet_link"

structure UserWalletUnlinked where
  userId : Option String
  walletAddress : String

def UserWalletUnlinked.parse (data : Json) : Option UserWalletUnlinked := do
  let [userId, walletAddress] ← structFields [["user_id"], ["wallet_address"]] data | none
  return ⟨← optStringField userId, ← stringField walletAddress⟩

def userWalletUnlinked (env : EventEnv) (data : Json) : List Queued :=
  match UserWalletUnlinked.parse data with
  | none => []
  | some p =>
    match parseUuid env p.userId with
    | none => []
    | some uid =>
      securityAlert uid "Wallet Unlinked"
        "A Solana wallet was removed from your GridTokenX account." p.walletAddress
        (.str "") (.str "") "Security Alert: Wallet Unlinked"
        ("A wallet (" ++ p.walletAddress ++ ") was removed from your account.") "wallet_unlink"

structure UserWalletPrimaryChanged where
  userId : Option String
  walletAddress : String

def UserWalletPrimaryChanged.parse (data : Json) : Option UserWalletPrimaryChanged := do
  let [userId, walletAddress] ← structFields [["user_id"], ["wallet_address"]] data | none
  return ⟨← optStringField userId, ← stringField walletAddress⟩

def userWalletPrimaryChanged (env : EventEnv) (data : Json) : List Queued :=
  match UserWalletPrimaryChanged.parse data with
  | none => []
  | some p =>
    match parseUuid env p.userId with
    | none => []
    | some uid =>
      securityAlert uid "Primary Wallet Changed"
        ("A different Solana wallet is now the primary wallet " ++
          "for your GridTokenX account — settlements will use it.")
        p.walletAddress (.str "") (.str "") "Security Alert: Primary Wallet Changed"
        ("Your primary wallet is now " ++ p.walletAddress ++ ".") "wallet_primary"

structure AccountLocked where
  identifier : String
  lockoutSecs : Nat

def AccountLocked.parse (data : Json) : Option AccountLocked := do
  let [identifier, lockoutSecs] ← structFields [["identifier"], ["lockout_secs"]] data | none
  return ⟨← stringField identifier, ← u64Field lockoutSecs⟩

def accountLocked (data : Json) : List Queued :=
  match AccountLocked.parse data with
  | none => []
  | some p =>
    if '@' ∈ p.identifier.toList then
      let lockoutMinutes := max ((p.lockoutSecs + 59) / 60) 1
      [⟨"account_locked", none, .email, p.identifier, "account_locked.html.tera",
        .obj [("identifier", .str p.identifier), ("lockout_minutes", .num (.int lockoutMinutes))]⟩]
    else []

structure UserLoggedIn where
  userId : Option String
  username : String
  ipAddress : Option String

def UserLoggedIn.parse (data : Json) : Option UserLoggedIn := do
  let [userId, username, ipAddress] ←
    structFields [["user_id"], ["username"], ["ip_address"]] data | none
  return ⟨← optStringField userId, ← stringField username, ← optStringField ipAddress⟩

def loginIpMemorySecs : Nat := 90 * 24 * 60 * 60

def loginIpKey (uid : Uuid) (ip : String) : String := "login_ip:" ++ uid.toString ++ ":" ++ ip

def loginAlert (uid : Uuid) (username ip : String) : List Queued :=
  [queueWs uid "new_login.txt.tera" [("username", .str username), ("ip_address", .str ip)]
    "new_login",
  queuePush uid "Security Alert: New Sign-In"
    ("Your account was signed in from a new IP address (" ++ ip ++ ").") "new_login:push"]

/-- What a sign-in asks the cache for, and the alert it raises if it is the first. -/
def loginCheck (env : EventEnv) (data : Json) : Option (String × List Queued) := do
  let p ← UserLoggedIn.parse data
  let uid ← parseUuid env p.userId
  let ip ← p.ipAddress.filter (· ≠ "")
  return (loginIpKey uid ip, loginAlert uid p.username ip)

def queue (mq : Bool) (ctx : MsgCtx) (q : Queued) : Orchestrator Unit := do
  let r := q.request ctx
  let _ ← queueNotification mq r.userId r.channel r.recipient r.templateId r.vars r.idempotencyKey

def queueAll (mq : Bool) (ctx : MsgCtx) (qs : List Queued) : Orchestrator Unit :=
  qs.forM (queue mq ctx)

theorem queue_run (mq : Bool) (ctx : MsgCtx) (q : Queued) :
    (queue mq ctx q).run = ((q.request ctx).prog mq).map (Except.map fun _ => ()) :=
  congrArg (Program.bind _) (funext fun r => by cases r <;> rfl)

/-- With the cache down every login would look new: the alert is skipped. -/
def alertIfNew (mq : Bool) (ctx : MsgCtx) (key : String) (alert : List Queued) :
    Orchestrator Unit := do
  match ← bumpCounter key loginIpMemorySecs with
  | .error _ => pure ()
  | .ok seen => if 1 < seen then pure () else queueAll mq ctx alert

/-- What is left of `alertIfNew` after the counter's answer. -/
def afterBump (mq : Bool) (ctx : MsgCtx) (alert : List Queued) :
    Except NotiError Nat → Program Op (Except NotiError Unit)
  | .error _ => .done (.ok ())
  | .ok seen => if 1 < seen then .done (.ok ()) else (queueAll mq ctx alert).run

theorem alertIfNew_run (mq : Bool) (ctx : MsgCtx) (key : String) (alert : List Queued) :
    (alertIfNew mq ctx key alert).run =
      .call (.incrementWithTtl key loginIpMemorySecs) (afterBump mq ctx alert) :=
  Program.call_congr fun r => by
    cases r with
    | error e => rfl
    | ok seen => exact apply_ite ExceptT.run _ _ _

theorem afterBump_first {mq : Bool} {ctx : MsgCtx} {alert : List Queued} {seen : Nat}
    (h : seen ≤ 1) : afterBump mq ctx alert (.ok seen) = (queueAll mq ctx alert).run :=
  if_neg (Nat.not_lt.mpr h)

theorem afterBump_later {mq : Bool} {ctx : MsgCtx} {alert : List Queued} {seen : Nat}
    (h : 1 < seen) : afterBump mq ctx alert (.ok seen) = .done (.ok ()) := if_pos h

theorem afterBump_cases (mq : Bool) (ctx : MsgCtx) (alert : List Queued)
    (r : Except NotiError Nat) : afterBump mq ctx alert r = .done (.ok ()) ∨
      ∃ seen ≤ 1, r = .ok seen ∧ afterBump mq ctx alert r = (queueAll mq ctx alert).run := by
  cases r with
  | error e => exact .inl rfl
  | ok seen =>
    rcases Nat.lt_or_ge 1 seen with h | h
    · exact .inl (afterBump_later h)
    · exact .inr ⟨seen, h, rfl, afterBump_first h⟩

def userLoggedIn (mq : Bool) (env : EventEnv) (ctx : MsgCtx) (data : Json) :
    Orchestrator Unit :=
  match loginCheck env data with
  | none => pure ()
  | some (key, alert) => alertIfNew mq ctx key alert

/-- The handlers that only queue. Unknown event types are ignored. -/
def queueing (env : EventEnv) (eventType : String) (data : Json) : List Queued :=
  match eventType with
  | "UserRegistered" => []
  | "EmailVerified" => emailVerified env data
  | "OrderMatched" => orderMatched env data
  | "SettlementProcessed" => settlementProcessed env data
  | "ErcIssued" => ercIssued env data
  | "VppDispatched" => vppDispatched env data
  | "PriceAlertTriggered" => priceAlertTriggered env data
  | "PasswordResetRequested" => passwordResetRequested env data
  | "VerificationEmailRequested" => verificationEmailRequested env data
  | "UserOnboarded" => userOnboarded env data
  | "MeterOnboarded" => meterOnboarded env data
  | "WalletLinkRequested" => walletLinkRequested env data
  | "UserWalletLinked" => userWalletLinked env data
  | "UserWalletUnlinked" => userWalletUnlinked env data
  | "UserWalletPrimaryChanged" => userWalletPrimaryChanged env data
  | "AccountLocked" => accountLocked data
  | "OrderCreated" => orderCreated env data
  | "OrderUpdate" => orderUpdate env data
  | "MeterRegistered" => meterRegistered env data
  | "MeterUpdated" => meterRegistered env data
  | _ => []

/-- The error of `dispatch` is the orchestrator's, which `into_anyhow` only wraps. -/
def dispatch (mq : Bool) (env : EventEnv) (ctx : MsgCtx) (eventType : String) (data : Json) :
    Orchestrator Unit :=
  if eventType = "UserLoggedIn" then userLoggedIn mq env ctx data
  else queueAll mq ctx (queueing env eventType data)

def counter (env : EventEnv) (eventType : String) (data : Json) : Option String :=
  if eventType = "UserLoggedIn" then (loginCheck env data).map Prod.fst else none

/-- What an event queues if it does not skip. -/
def queued (env : EventEnv) (eventType : String) (data : Json) : List Queued :=
  if eventType = "UserLoggedIn" then ((loginCheck env data).map Prod.snd).getD []
  else queueing env eventType data

theorem dispatch_eq (mq : Bool) (env : EventEnv) (ctx : MsgCtx) (eventType : String)
    (data : Json) : dispatch mq env ctx eventType data =
      match counter env eventType data with
      | none => queueAll mq ctx (queued env eventType data)
      | some key => alertIfNew mq ctx key (queued env eventType data) := by
  unfold dispatch counter queued
  by_cases h : eventType = "UserLoggedIn"
  · simp only [if_pos h, userLoggedIn]
    cases loginCheck env data <;> rfl
  · simp only [if_neg h]

end Events

end NotiService
