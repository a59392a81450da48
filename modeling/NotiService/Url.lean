/-! URL helpers for rewriting upstream callback links to the configured frontend base
URL. A string is its list of characters here, and its bytes where they are escaped. -/

namespace NotiService.Url

/-- `trim_end_matches('/')` -/
def trimEndSlashes (s : String) : String :=
  String.ofList (s.toList.reverse.dropWhile (· = '/')).reverse

/-- Empty if no frontend URL is configured. -/
def buildCallbackUrl (frontendUrl : Option String) (path query : String) : String :=
  match frontendUrl with
  | some base =>
    let base := trimEndSlashes base
    let path := if path.toList.head? = some '/' then path else "/" ++ path
    if query = "" then base ++ path else base ++ path ++ "?" ++ query
  | none => ""

def unreserved (byte : UInt8) : Bool :=
  let n := byte.toNat
  (65 ≤ n && n ≤ 90) || (97 ≤ n && n ≤ 122) || (48 ≤ n && n ≤ 57) ||
    n = 45 || n = 46 || n = 95 || n = 126

def hexDigit (n : Nat) : Char := "0123456789ABCDEF".toList.getD n '0'

def encodeByte (byte : UInt8) : List Char :=
  if unreserved byte then [Char.ofNat byte.toNat]
  else ['%', hexDigit (byte.toNat / 16), hexDigit (byte.toNat % 16)]

/-- The unreserved characters of RFC 3986 pass through, every other byte is escaped. -/
def urlencode (s : String) : String :=
  String.ofList ((s.toList.flatMap String.utf8EncodeChar).flatMap encodeByte)

/-- What follows the first occurrence of `pattern`. -/
def afterFirst (pattern : List Char) : List Char → Option (List Char)
  | [] => if pattern = [] then some [] else none
  | c :: cs =>
    if pattern.isPrefixOf (c :: cs) then some ((c :: cs).drop pattern.length)
    else afterFirst pattern cs

/-- The suffix that starts at the first `c`. -/
def fromFirst (c : Char) (s : List Char) : Option (List Char) :=
  if c ∈ s then some (s.dropWhile (· ≠ c)) else none

def rewriteUrl (frontendUrl : Option String) (upstreamUrl : String) : String :=
  match frontendUrl with
  | some base =>
    if upstreamUrl ≠ "" then
      let rest := ((afterFirst "://".toList upstreamUrl.toList).bind (fromFirst '/')).getD
        upstreamUrl.toList
      trimEndSlashes base ++ String.ofList rest
    else upstreamUrl
  | none => upstreamUrl

example : rewriteUrl (some "https://app.gridtokenx.test/")
    "http://localhost:4001/verify-email?token=abc" =
      "https://app.gridtokenx.test/verify-email?token=abc" := by decide

end NotiService.Url
