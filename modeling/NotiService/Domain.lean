import NotiService.Foundation.Json

/-! Domain entities: the notification row, its channel and status, and the typed
errors with the texts the service stores and logs. Times are milliseconds of
one clock; the few seconds the service and database clocks may differ are not
modelled. -/

namespace NotiService
open Foundation

structure Uuid where
  bits : BitVec 128
deriving DecidableEq, Repr

namespace Uuid

def hexDigit (n : Nat) : Char := "0123456789abcdef".toList.getD n '0'

def hex (u : Uuid) (start len : Nat) : String :=
  String.ofList ((List.range len).map fun i =>
    hexDigit (u.bits.toNat / 16 ^ (31 - (start + i)) % 16))

/-- The canonical form: 32 lower-case hex digits in groups of 8, 4, 4, 4, 12. -/
def toString (u : Uuid) : String :=
  u.hex 0 8 ++ "-" ++ u.hex 8 4 ++ "-" ++ u.hex 12 4 ++ "-" ++ u.hex 16 4 ++ "-" ++ u.hex 20 12

end Uuid

inductive NotificationChannel where
  | email | sms | push | webhook | webSocket
deriving DecidableEq, Repr

inductive NotificationStatus where
  | pending | processing | sent | delivered | failed | permanentFailure
deriving DecidableEq, Repr

inductive NotiError where
  | database (text : String)
  | template (text : String)
  | provider (text : String)
  | validation (text : String)
  | notFound (text : String)
  | idempotent (text : String)
  | internal (text : String)
deriving DecidableEq, Repr

def NotiError.toString : NotiError → String
  | .database text => "database error: " ++ text
  | .template text => "template error: " ++ text
  | .provider text => "provider error: " ++ text
  | .validation text => "validation error: " ++ text
  | .notFound text => "not found: " ++ text
  | .idempotent text => "duplicate request: idempotency key '" ++ text ++ "' already processed"
  | .internal text => "internal error: " ++ text

structure Notification where
  id : Uuid
  userId : Option Uuid
  channel : NotificationChannel
  status : NotificationStatus
  recipient : String
  templateId : String
  vars : Json
  providerId : Option String
  providerRef : Option String
  retryCount : Int
  nextRetryAt : Int
  errorMessage : Option String
  idempotencyKey : Option String
  createdAt : Int
  updatedAt : Int
  sentAt : Option Int
  readAt : Option Int
deriving Repr

/-- `Pending` or `Processing`: the statuses `dispatch` still acts on. -/
def NotificationStatus.live : NotificationStatus → Bool
  | .pending | .processing => true
  | _ => false

end NotiService
