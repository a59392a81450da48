import NotiService.Domain
import NotiService.Foundation.Regex
import NotiService.Foundation.Words

/-! `SmtpProvider`: the mail it builds from rendered content. Content that looks like HTML takes
its subject from the title and gets a text part, all other content goes out as it is. -/

namespace NotiService
open Foundation Text

namespace Smtp

/-- A literal of a regex with `(?i)`. No letter of the ones used has a variant outside ASCII. -/
def ignoringCase (w : String) (t : Regex Char) : Regex Char :=
  .word (w.toList.map fun a c => c.toLower = a) t

def literal (w : String) (t : Regex Char) : Regex Char := .literal w.toList t

/-- `[^>]*` -/
def notGt : Regex Char := .many (fun c => c ≠ '>') true

/-- `.*?` under `(?s)` -/
def anything : Regex Char := .many (fun _ => true) false

/-- `<script[^>]*>.*?</script>` -/
def element (name : String) : Regex Char :=
  literal ("<" ++ name) (.seq notGt (literal ">"
    (.seq anything (literal ("</" ++ name ++ ">") .empty))))

def reScriptStyle : Regex Char := .alt (element "script") (element "style")

def reTags : Regex Char := literal "<" (.seq notGt (literal ">" .empty))

def reTitle : Regex Char :=
  ignoringCase "<title" (.seq notGt (literal ">" (.seq (.group anything)
    (ignoringCase "</title>" .empty))))

/-- The replacements of `decode_entities`, in their order. -/
def entities : List (String × String) :=
  [("&lt;", "<"), ("&gt;", ">"), ("&quot;", "\""), ("&#39;", "'"), ("&#x27;", "'"), ("&#x2F;", "/"),
   ("&#x2f;", "/"), ("&nbsp;", " "), ("&amp;", "&")]

/-- `text.replace(from, to)` -/
def replace (text : List Char) (entity : String × String) : List Char :=
  (literal entity.1 .empty).replaceAll entity.2.toList text

def decodeEntities (text : List Char) : List Char := entities.foldl replace text

/-- The lines that are not blank, trimmed and set apart by blank lines. -/
def cleanUp (text : List Char) : List Char :=
  ['\n', '\n'].intercalate (((lines text).map trim).filter (· ≠ []))

def htmlToText (html : List Char) : List Char :=
  cleanUp (decodeEntities (reTags.replaceAll [] (reScriptStyle.replaceAll [] html)))

def looksLikeHtml (content : List Char) : Bool :=
  "<!DOCTYPE".toList.isPrefixOf (trim content) || "<html".toList.isPrefixOf (trim content)

def extractSubject (html : List Char) : Option (List Char) :=
  match reTitle.find html with
  | some (raw :: _, _) =>
    let subject := [' '].intercalate (words (decodeEntities raw))
    if subject = [] then none else some subject
  | _ => none

def defaultSubject : String := "GridTokenX Notification"

def subject (content : String) : String :=
  if looksLikeHtml content.toList then
    ((extractSubject content.toList).map String.ofList).getD defaultSubject
  else defaultSubject

inductive Body where
  | alternative (plain html : String)
  | plain (text : String)
deriving DecidableEq, Repr

structure Mail where
  sender : String
  recipient : String
  subject : String
  body : Body
deriving DecidableEq, Repr

/-- What `lettre` does: it parses an address, builds a message, and hands it to the relay, whose
answer has a first line or none. -/
structure SmtpEnv where
  fromEmail : String
  parseMailbox : String → Except String String
  build : Mail → Except String Unit
  transport : Mail → Except String (Option String)

/-- `map_err` to an internal error. -/
def internal {α : Type} (text : String) : Except String α → Except NotiError α :=
  Except.mapError fun e => .internal (text ++ e)

def email (env : SmtpEnv) (recipient content : String) : Except NotiError Mail := do
  let body : Body :=
    if looksLikeHtml content.toList then
      .alternative (String.ofList (htmlToText content.toList)) content
    else .plain content
  let sender ← internal "Invalid from email: " (env.parseMailbox env.fromEmail)
  let mailbox ← internal "Invalid recipient email: " (env.parseMailbox recipient)
  let mail : Mail := ⟨sender, mailbox, subject content, body⟩
  internal "Failed to build email: " (env.build mail)
  return mail

def send (env : SmtpEnv) (recipient content : String) : Except NotiError String := do
  let mail ← email env recipient content
  match env.transport mail with
  | .ok firstLine => return firstLine.getD "unknown-smtp-id"
  | .error e => throw (.internal ("SMTP error: " ++ e))

end Smtp

end NotiService
