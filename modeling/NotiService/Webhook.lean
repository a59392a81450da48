import NotiService.Domain
import NotiService.Foundation.Program
import NotiService.Foundation.Text
import NotiService.Foundation.Cidr

/-! `WebhookProvider` and its guard. The resolved addresses are checked against a list of ranges,
and the request is pinned to the first of them. -/

namespace NotiService
open Foundation

inductive IpAddr where
  | v4 (bits : BitVec 32)
  | v6 (bits : BitVec 128)
deriving DecidableEq

structure SocketAddr where
  ip : IpAddr
  port : Nat

/-- What is read of a parsed URL. -/
structure WebhookUrl where
  scheme : String
  hostStr : Option String
  portOrKnownDefault : Option Nat

/-- What the provider uses of the url, net and http libraries. -/
structure WebhookEnv where
  parseUrl : String → Except String WebhookUrl
  showIp : IpAddr → String
  statusText : Nat → String

structure WebhookProvider where
  timeoutSecs : Nat
  blockPrivate : Bool

/-- A `POST`, and the address its host is resolved to. -/
structure WebhookRequest where
  url : WebhookUrl
  host : String
  pinned : SocketAddr
  contentType : String
  body : String

/-- A client follows no redirects. -/
inductive WebhookOp : Type → Type where
  | lookupHost (host : String) (port : Nat) : WebhookOp (Except String (List SocketAddr))
  | buildClient (timeoutSecs : Nat) (host : String) (pinned : SocketAddr) :
    WebhookOp (Except String Unit)
  | post (request : WebhookRequest) : WebhookOp (Except String Nat)
  | newV4 : WebhookOp Uuid

def WebhookOp.request {β : Type} : WebhookOp β → Option WebhookRequest
  | .post request => some request
  | _ => none

namespace Webhook

section Ipv4

variable (a : BitVec 32)

def octet (i : Nat) : BitVec 8 := a.extractLsb' (24 - 8 * i) 8

def isLoopback : Bool := octet a 0 = 127

def isPrivate : Bool :=
  octet a 0 = 10 || (octet a 0 = 172 && 16 ≤ octet a 1 && octet a 1 ≤ 31) ||
    (octet a 0 = 192 && octet a 1 = 168)

def isLinkLocal : Bool := octet a 0 = 169 && octet a 1 = 254

def isUnspecified : Bool := a = 0

def isBroadcast : Bool := a = 0xffffffff

def isDocumentation : Bool :=
  (octet a 0 = 192 && octet a 1 = 0 && octet a 2 = 2) ||
    (octet a 0 = 198 && octet a 1 = 51 && octet a 2 = 100) ||
    (octet a 0 = 203 && octet a 1 = 0 && octet a 2 = 113)

def isBlockedV4 : Bool :=
  isLoopback a || isPrivate a || isLinkLocal a || isUnspecified a || isBroadcast a ||
    isDocumentation a || octet a 0 = 0 || (octet a 0 = 100 && octet a 1 &&& 0xc0 = 64)

end Ipv4

section Ipv6

variable (a : BitVec 128)

def segment₀ : BitVec 16 := a.extractLsb' 112 16

/-- `::ffff:a.b.c.d` -/
def toIpv4Mapped : Option (BitVec 32) :=
  if a.extractLsb' 48 80 = 0 ∧ a.extractLsb' 32 16 = 0xffff then some (a.extractLsb' 0 32) else none

end Ipv6

/-- An IPv4-mapped address is checked as an IPv4 address again. -/
def isBlockedIp : IpAddr → Bool
  | .v4 a => isBlockedV4 a
  | .v6 a =>
    a = 1 || a = 0 || segment₀ a &&& 0xfe00 = 0xfc00 || segment₀ a &&& 0xffc0 = 0xfe80 ||
      (toIpv4Mapped a).any isBlockedV4

def contentType (content : String) : String :=
  match (Text.trimStart content.toList).head? with
  | some '\x7b' | some '[' => "application/json"
  | _ => "text/plain; charset=utf-8"

open Program

/-- What `send` makes of the answer. -/
def afterPost (env : WebhookEnv) (recipient : String) :
    Except String Nat → Program WebhookOp (Except NotiError String)
  | .error e => return .error (.internal ("Webhook POST to '" ++ recipient ++ "' failed: " ++ e))
  | .ok status =>
    if 200 ≤ status ∧ status < 300 then do
      let id ← perform .newV4
      return .ok ("webhook-" ++ status.repr ++ "-" ++ id.toString)
    else
      return .error (.internal
        ("Webhook '" ++ recipient ++ "' returned status " ++ env.statusText status))

/-- The client is built with `safeAddr` for the host, so that no second lookup is made. -/
def postPinned (env : WebhookEnv) (p : WebhookProvider) (recipient content : String)
    (url : WebhookUrl) (host : String) (safeAddr : SocketAddr) :
    Program WebhookOp (Except NotiError String) := do
  match ← perform (.buildClient p.timeoutSecs host safeAddr) with
  | .error e => return .error (.internal ("Failed to build webhook HTTP client: " ++ e))
  | .ok () =>
    let answer ← perform (.post ⟨url, host, safeAddr, contentType content, content⟩)
    afterPost env recipient answer

def send (env : WebhookEnv) (p : WebhookProvider) (recipient content : String) :
    Program WebhookOp (Except NotiError String) :=
  match env.parseUrl recipient with
  | .error e => return .error (.internal ("Invalid webhook URL '" ++ recipient ++ "': " ++ e))
  | .ok url =>
    if ¬ (url.scheme = "http" ∨ url.scheme = "https") then
      return .error (.internal
        ("Webhook URL scheme '" ++ url.scheme ++ "' not allowed (http/https only)"))
    else
      match url.hostStr with
      | none => return .error (.internal "Webhook URL has no host")
      | some host => do
        match ← perform (.lookupHost host (url.portOrKnownDefault.getD 0)) with
        | .error e =>
          return .error (.internal ("Webhook DNS resolution failed for '" ++ host ++ "': " ++ e))
        | .ok [] =>
          return .error (.internal ("Webhook host '" ++ host ++ "' resolved to no addresses"))
        | .ok (safeAddr :: others) =>
          -- any blocked address rejects the host, and the request goes to the first
          match if p.blockPrivate then (safeAddr :: others).find? (isBlockedIp ·.ip) else none with
          | some blocked =>
            return .error (.internal ("Webhook target '" ++ host ++
              "' resolves to blocked address " ++ env.showIp blocked.ip ++
              " (private/loopback/link-local)"))
          | none => postPinned env p recipient content url host safeAddr

end Webhook

end NotiService
