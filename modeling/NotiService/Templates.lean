import NotiService.Foundation.JsonText
import NotiService.Foundation.Text

/-! The template engine and the shipped templates. A text template is its segments in order.
The HTML ones are whole documents, and rendering them is left to the engine. -/

namespace NotiService
open Foundation

/-- What stands in a template: text, `{{ name }}`, `{{ name | default(value=…) }}`,
`{{ name | json_encode }}`, the formatted `now()`, and `{% if name %}…{{ name }}…{% endif %}`. -/
inductive Seg where
  | text (s : String)
  | var (name : String)
  | orDefault (name value : String)
  | encoded (name : String)
  | now
  | shownIf (name before after : String)
deriving DecidableEq, Repr

namespace Templates

def accountLocked : List Seg :=
  [.text "Account Temporarily Locked\n",
   .text "--------------------------\n",
   .text "Your GridTokenX account (", .var "identifier",
   .text ") has been locked after too many\n",
   .text "failed sign-in attempts.\n",
   .text "\n",
   .text "You can try again in ", .var "lockout_minutes", .text " minute(s).\n",
   .text "\n",
   .text "If this was not you, reset your password as soon as the lock expires.\n"]

def confirmWallet : List Seg :=
  [.text "Hello", .shownIf "name" " " "", .text ",\n",
   .text "\n",
   .text "A Solana wallet is being linked to your GridTokenX account. Confirm that\n",
   .text "this wallet is yours and we'll register the link on-chain:\n",
   .text "\n",
   .text "Wallet: ", .var "wallet_address", .text "\n",
   .text "\n",
   .var "confirmation_url", .text "\n",
   .text "\n",
   .text "This link expires in 30 minutes.\n",
   .text "\n",
   .text "If you didn't request this, ignore this email — the wallet stays unlinked\n",
   .text "and is never registered on-chain.\n",
   .text "\n",
   .text "— The GridTokenX Team\n"]

def ercIssued : List Seg :=
  [.text "Renewable Energy Certificate Issued\n",
   .text "-----------------------------------\n",
   .text "Your contribution to the green grid has been recorded.\n",
   .text "\n",
   .text "Amount: ", .var "amount", .text " ", .orDefault "unit" "MWh", .text "\n",
   .text "\n",
   .text "This certificate is verifiable on the Solana blockchain.\n"]

def meterOnboarded : List Seg :=
  [.text "Hello,\n",
   .text "\n",
   .text "Your smart meter has been successfully registered on the Solana blockchain.\n",
   .text "\n",
   .text "Meter ID: ", .var "meter_id", .text "\n",
   .text "Type: ", .var "meter_type", .text "\n",
   .text "Transaction: ", .var "transaction_signature", .text "\n",
   .text "\n",
   .text "Your energy generation and consumption will now be tracked and tokenized ",
   .text "on-chain.\n"]

def meterRegistered : List Seg :=
  [.text "Your smart meter is registered.\n",
   .text "\n",
   .text "Serial Number: ", .var "serial_number", .text "\n",
   .text "Meter ID: ", .var "meter_id", .text "\n",
   .text "Status: ", .var "status", .text "\n",
   .shownIf "zone_id" "Zone: " "\n",
   .text "\n",
   .text "Readings from this meter will now be collected and settled to your account.\n"]

def newLogin : List Seg :=
  [.text "SECURITY ALERT: New Sign-In Location\n",
   .text "\n",
   .text "Your GridTokenX account (", .var "username",
   .text ") was signed in from an IP address\n",
   .text "we have not seen on this account before.\n",
   .text "\n",
   .text "IP Address: ", .var "ip_address", .text "\n",
   .text "\n",
   .text "If this was you, no action is needed. If it was not, reset your password\n",
   .text "immediately and review your linked wallets.\n"]

def orderCreated : List Seg :=
  [.text "Order placed: ", .var "side", .text " ", .var "energy_amount", .text " kWh at ",
   .var "price_per_kwh", .text " per kWh.\n",
   .text "\n",
   .text "Order ID: ", .var "order_id", .text "\n",
   .text "Type: ", .var "order_type", .text "\n",
   .text "Status: ", .var "status", .text "\n"]

def orderUpdate : List Seg :=
  [.text "Order ", .var "status", .text ": ", .var "filled_amount", .text " kWh filled.\n",
   .text "\n",
   .text "Order ID: ", .var "order_id", .text "\n"]

def passwordReset : List Seg :=
  [.text "Hello,\n",
   .text "\n",
   .text "To reset your password, please click the link below:\n",
   .var "reset_url", .text "\n",
   .text "\n",
   .text "If you did not request this, please ignore this email.\n",
   .text "\n",
   .text "Best,\n",
   .text "GridTokenX Team\n"]

def priceAlertTriggered : List Seg :=
  [.text "Price Alert Triggered\n",
   .text "---------------------\n",
   .text "Your price alert (", .var "condition", .text " ", .var "target_price",
   .text ") has fired.\n",
   .text "Market price: ", .var "triggered_price", .text "\n",
   .text "Timestamp: ", .now, .text "\n"]

def pushNotification : List Seg :=
  [.text "\x7b\"title\": ", .encoded "title", .text ", \"body\": ", .encoded "body",
   .text "\x7d\n"]

def securityAlert : List Seg :=
  [.text "\n",
   .text "SECURITY ALERT: ", .var "headline", .text "\n",
   .text "\n",
   .var "summary", .text "\n",
   .text "\n",
   .text "Wallet Address: ", .var "wallet_address", .text "\n",
   .shownIf "shard_id" "On-Chain Status: Registered (Shard " ")\n",
   .shownIf "transaction_signature" "Transaction: " "\n",
   .text "\n",
   .text "If you did not perform this action, please contact support immediately.\n"]

def settlementProcessed : List Seg :=
  [.text "Settlement processed\n",
   .text "--------------------\n",
   .text "Role: ", .var "role", .text "\n",
   .text "Status: ", .var "status", .text "\n",
   .text "Transaction: ", .var "tx_signature", .text "\n",
   .text "Amount: ", .var "amount", .text "\n",
   .text "Price: ", .var "price", .text "\n"]

def tradeMatched : List Seg :=
  [.text "Trade Matched\n",
   .text "-------------\n",
   .text "You have a new trade match.\n",
   .text "\n",
   .text "Role: ", .var "role", .text "\n",
   .text "Amount: ", .var "amount", .text "\n",
   .text "Price: ", .var "price", .text "\n"]

def userOnboarded : List Seg :=
  [.text "Hello,\n",
   .text "\n",
   .text "Congratulations! Your GridTokenX account has been successfully onboarded to the ",
   .text "Solana blockchain.\n",
   .text "\n",
   .text "Identity PDA: ", .var "user_account_pda", .text "\n",
   .text "Transaction: ", .var "transaction_signature", .text "\n",
   .text "\n",
   .text "You can now participate in P2P energy trading and earn GRX tokens.\n"]

def verifyEmail : List Seg :=
  [.text "Hello", .shownIf "name" " " "", .text ",\n",
   .text "\n",
   .text "Thanks for signing up for GridTokenX. Confirm this email address to\n",
   .text "activate your account and unlock sign-in, wallet linking, and trading:\n",
   .text "\n",
   .var "verification_url", .text "\n",
   .text "\n",
   .text "You'll be signed in automatically after verifying.\n",
   .text "\n",
   .text "If you didn't create a GridTokenX account, ignore this email — the\n",
   .text "account stays inactive and no one can sign in with it.\n",
   .text "\n",
   .text "— The GridTokenX Team\n"]

def vppDispatched : List Seg :=
  [.text "VPP Cluster Dispatch\n",
   .text "---------------------\n",
   .text "Cluster: ", .var "cluster_id", .text "\n",
   .text "Target: ", .var "target_kw", .text " kW\n",
   .text "Members Commanded: ", .var "members_count", .text "\n",
   .text "Timestamp: ", .now, .text "\n",
   .text "\n",
   .text "Optimization objective met via multi-objective dispatch (SOC/Price/Carbon).\n"]

def welcome : List Seg :=
  [.text "Welcome to GridTokenX\n",
   .text "---------------------\n",
   .text "Hello", .shownIf "name" " " "", .text ",\n",
   .text "\n",
   .text "Your email is verified and your account is now active. You can now trade\n",
   .text "renewable energy tokens (GRX), earn Renewable Energy Certificates (ERCs),\n",
   .text "connect smart meters, and link your Solana wallet.\n",
   .text "\n",
   .text "Get started: ", .orDefault "dashboard_url" "https://app.gridtokenx.xyz", .text "\n"]

/-- The `.txt.tera` files of `templates/`. -/
def textTemplates : List (String × List Seg) :=
  [("account_locked.txt.tera", accountLocked), ("confirm_wallet.txt.tera", confirmWallet),
   ("erc_issued.txt.tera", ercIssued), ("meter_onboarded.txt.tera", meterOnboarded),
   ("meter_registered.txt.tera", meterRegistered), ("new_login.txt.tera", newLogin),
   ("order_created.txt.tera", orderCreated), ("order_update.txt.tera", orderUpdate),
   ("password_reset.txt.tera", passwordReset),
   ("price_alert_triggered.txt.tera", priceAlertTriggered),
   ("push_notification.txt.tera", pushNotification), ("security_alert.txt.tera", securityAlert),
   ("settlement_processed.txt.tera", settlementProcessed),
   ("trade_matched.txt.tera", tradeMatched), ("user_onboarded.txt.tera", userOnboarded),
   ("verify_email.txt.tera", verifyEmail), ("vpp_dispatched.txt.tera", vppDispatched),
   ("welcome.txt.tera", welcome)]

/-- The `.html.tera` files that render to a page. -/
def pages : List String :=
  ["account_locked.html.tera", "base.html.tera", "confirm_wallet.html.tera", "erc_issued.html.tera",
   "new_login.html.tera", "password_reset.html.tera", "verify_email.html.tera", "welcome.html.tera"]

def htmlTemplates : List String := "_components.html.tera" :: pages

end Templates

/-- The engine: how a value is shown, whether it counts as true, its JSON encoding, the current
time at `%Y-%m-%d %H:%M:%S`, and the HTML templates, which do not read the clock. -/
structure Tera where
  display : Json → String
  truthy : Json → Bool
  jsonEncode : Json → String
  timestamp : Int → String
  html : String → Json → Option String
  timestamp_second : ∀ t, timestamp t ≠ timestamp (t + 1000)
  timestamp_digit : ∀ t, ∃ s c, (timestamp t).toList = s ++ [c] ∧ c.isDigit
  html_page : ∀ id ∈ Templates.pages, ∀ vars c, html id vars = some c →
    ∃ inner, c = "<!DOCTYPE html>\n" ++ "<html" ++ inner ++ "</html>" ++ "\n"

namespace Tera

variable (T : Tera)

/-- A variable that is missing is an error, but not to `default` or `if`. To `default` null is
missing too. -/
def segment (vars : Json) (now : Int) : Seg → Option String
  | .text s => some s
  | .var name => (vars.get name).map T.display
  | .orDefault name value => some (((vars.getNonNull name).map T.display).getD value)
  | .encoded name => (vars.get name).map T.jsonEncode
  | .now => some (T.timestamp now)
  | .shownIf name before after =>
    match vars.get name with
    | some v => some (if T.truthy v then before ++ T.display v ++ after else "")
    | none => some ""

def segments (vars : Json) (now : Int) : List Seg → Option String
  | [] => some ""
  | seg :: segs => (T.segment vars now seg).bind fun s =>
    (segments vars now segs).map fun rest => s ++ rest

def textTemplate (id : String) : Option (List Seg) :=
  (Templates.textTemplates.find? fun p => p.1 = id).map (·.2)

/-- The context is built from an object only, and an unknown template is an error. -/
def render (id : String) (vars : Json) (now : Int) : Option String :=
  match vars with
  | .obj _ =>
    match textTemplate id with
    | some segs => T.segments vars now segs
    | none => if id ∈ Templates.htmlTemplates then T.html id vars else none
  | _ => none

def readsClock (id : String) : Bool := (textTemplate id).any fun segs => .now ∈ segs

variable {T : Tera} {id : String} {vars : Json} {now now' : Int}

theorem segments_cons {seg : Seg} {segs : List Seg} {c : String} :
    T.segments vars now (seg :: segs) = some c ↔
      ∃ s rest, T.segment vars now seg = some s ∧ T.segments vars now segs = some rest ∧
        c = s ++ rest := by
  simp only [segments, Option.bind_eq_some_iff, Option.map_eq_some_iff]
  constructor
  · rintro ⟨s, hs, rest, hrest, rfl⟩
    exact ⟨s, rest, hs, hrest, rfl⟩
  · rintro ⟨s, rest, hs, hrest, rfl⟩
    exact ⟨s, hs, rest, hrest, rfl⟩

theorem segments_text {s c : String} {segs : List Seg} :
    T.segments vars now (.text s :: segs) = some c ↔
      ∃ rest, T.segments vars now segs = some rest ∧ c = s ++ rest := by
  rw [segments_cons]
  constructor
  · rintro ⟨_, rest, hs, hrest, rfl⟩
    cases hs
    exact ⟨rest, hrest, rfl⟩
  · rintro ⟨rest, hrest, rfl⟩
    exact ⟨s, rest, rfl, hrest, rfl⟩

theorem segments_append {segs segs' : List Seg} {c : String} :
    T.segments vars now (segs ++ segs') = some c ↔
      ∃ a b, T.segments vars now segs = some a ∧ T.segments vars now segs' = some b ∧
          c = a ++ b := by
  induction segs generalizing c with
  | nil => simp [segments]
  | cons seg segs ih =>
    rw [List.cons_append, segments_cons]
    constructor
    · rintro ⟨s, rest, hs, hrest, rfl⟩
      obtain ⟨a, b, ha, hb, rfl⟩ := ih.mp hrest
      exact ⟨s ++ a, b, segments_cons.mpr ⟨s, a, hs, ha, rfl⟩, hb, (String.append_assoc ..).symm⟩
    · rintro ⟨a, b, ha, hb, rfl⟩
      obtain ⟨s, a', hs, ha', rfl⟩ := segments_cons.mp ha
      exact ⟨s, a' ++ b, hs, ih.mpr ⟨a', b, ha', hb, rfl⟩, String.append_assoc ..⟩

theorem segments_timeless {segs : List Seg} (h : .now ∉ segs) :
    T.segments vars now segs = T.segments vars now' segs := by
  induction segs with
  | nil => rfl
  | cons seg segs ih =>
    obtain ⟨hseg, hsegs⟩ := not_or.mp (mt List.mem_cons.mpr h)
    have hsame : T.segment vars now seg = T.segment vars now' seg := by
      cases seg with
      | now => exact absurd rfl hseg
      | _ => rfl
    rw [segments, segments, hsame, ih hsegs]

theorem segments_isSome (segs : List Seg) :
    (T.segments vars now segs).isSome = (T.segments vars now' segs).isSome := by
  induction segs with
  | nil => rfl
  | cons seg segs ih =>
    have hsome : (T.segment vars now seg).isSome = (T.segment vars now' seg).isSome := by
      cases seg <;> rfl
    cases hseg : T.segment vars now seg <;> cases hseg' : T.segment vars now' seg <;>
      simp_all [segments]

theorem render_timeless (h : readsClock id = false) : T.render id vars now =
    T.render id vars now' := by
  unfold render
  cases vars with
  | obj members =>
    cases hsegs : textTemplate id with
    | none => rfl
    | some segs =>
      refine segments_timeless fun hmem => ?_
      rw [readsClock, hsegs, Option.any_some, decide_eq_true hmem] at h
      cases h
  | _ => rfl

theorem render_isSome : (T.render id vars now).isSome = (T.render id vars now').isSome := by
  unfold render
  cases vars with
  | obj members =>
    cases textTemplate id with
    | none => rfl
    | some segs => exact segments_isSome segs
  | _ => rfl

def sample : Tera where
  display v := (v.asStr).getD ""
  truthy v := v.asStr.any (· ≠ "")
  jsonEncode v := JsonText.quote ((v.asStr).getD "")
  timestamp t := "1970-01-01 00:00:0" ++ String.singleton (Nat.digitChar (t / 1000 % 10).toNat)
  html _ _ := some ("<!DOCTYPE html>\n" ++ "<html" ++ ">" ++ "</html>" ++ "\n")
  timestamp_second t h := by
    have hdigits : ∀ m < 10, ∀ n < 10, Nat.digitChar m = Nat.digitChar n → m = n := by decide
    have hchars := congrArg String.toList h
    simp only [String.toList_append, String.toList_singleton, List.append_cancel_left_eq,
      List.cons.injEq, and_true] at hchars
    have := hdigits _ (by omega) _ (by omega) hchars
    omega
  timestamp_digit t := by
    have hdigits : ∀ n < 10, (Nat.digitChar n).isDigit := by decide
    refine ⟨"1970-01-01 00:00:0".toList, Nat.digitChar (t / 1000 % 10).toNat, ?_,
      hdigits _ (by omega)⟩
    rw [String.toList_append, String.toList_singleton]
  html_page _ _ _ c h := ⟨">", (Option.some.inj h).symm⟩

end Tera

end NotiService
