import Mathlib.Algebra.Group.Int.Defs
import Mathlib.Algebra.Group.Nat.Defs

/-! JSON values as a Rust `serde_json::Value` holds them, and the way a struct with
defaulted fields is read from one. A number is an integer that fits `u64` or
`i64`, or a finite double given by its bits. An object lists its members once
per key. -/

namespace NotiService.Foundation

structure F64 where
  bits : BitVec 64
deriving DecidableEq, Repr

namespace F64

def pack (negative : Bool) (exponent mantissa : Nat) : F64 :=
  ⟨BitVec.ofNat 64 ((if negative then 2 ^ 63 else 0) + exponent * 2 ^ 52 + mantissa)⟩

/-- The cast of an integer below 2^64 in magnitude: exact up to 53 bits, above
that rounded to the nearest double, ties to even. -/
def ofInt (z : Int) : F64 :=
  let n := z.natAbs
  if n = 0 then pack false 0 0
  else
    let e := n.log2
    if e ≤ 52 then pack (z < 0) (e + 1023) (n * 2 ^ (52 - e) - 2 ^ 52)
    else
      let unit := 2 ^ (e - 52)
      let rest := n % unit
      let q := n / unit
      let up := unit < 2 * rest ∨ (2 * rest = unit ∧ q % 2 = 1)
      pack (z < 0) (e + 1023) (if up then q + 1 - 2 ^ 52 else q - 2 ^ 52)

end F64

inductive Number where
  | int (z : Int)
  | float (x : F64)
deriving DecidableEq, Repr

inductive Json where
  | null
  | bool (b : Bool)
  | num (n : Number)
  | str (s : String)
  | arr (items : List Json)
  | obj (members : List (String × Json))
deriving Repr

namespace Json

def lookup (members : List (String × Json)) (key : String) : Option Json :=
  (members.find? fun m => m.1 = key).map (·.2)

/-- `Value::get` on a key: only an object has members. -/
def get (key : String) : Json → Option Json
  | .obj members => lookup members key
  | _ => none

def isNull : Json → Bool
  | .null => true
  | _ => false

/-- `get`, with null as if it were missing. -/
def getNonNull (key : String) (v : Json) : Option Json := (v.get key).filter fun v => !v.isNull

theorem get_of_getNonNull {v w : Json} {key : String} (h : v.getNonNull key = some w) :
    v.get key = some w :=
  (Option.filter_eq_some_iff.mp h).1

def asStr : Json → Option String
  | .str s => some s
  | _ => none

/-- The members of an object that a field may be read from, one for each of
its accepted names. Two of them present is serde's duplicate field error. -/
def field (members : List (String × Json)) (names : List String) : Option (Option Json) :=
  match names.filterMap (lookup members) with
  | [] => some none
  | [value] => some (some value)
  | _ => none

/-- What a derived `Deserialize` offers to each field of a struct: an object is
read by name and unknown members are ignored, an array is read by position and
may be too short but not too long, and any other value is the wrong type. -/
def structFields (names : List (List String)) : Json → Option (List (Option Json))
  | .obj members => names.mapM (field members)
  | .arr items =>
    if items.length ≤ names.length then
      some ((List.range names.length).map (items[·]?))
    else none
  | _ => none

/-! A text lists the members of an object as they are written, and a name may come again. -/

/-- The members that a `Value` keeps: of one name the last. -/
def lastMembers : List (String × Json) → List (String × Json)
  | [] => []
  | m :: members =>
    if members.any fun m' => m'.1 = m.1 then lastMembers members else m :: lastMembers members

mutual

/-- The `Value` that serde_json makes of a JSON text. -/
def toValue : Json → Json
  | .arr items => .arr (itemValues items)
  | .obj members => .obj (lastMembers (memberValues members))
  | value => value

def itemValues : List Json → List Json
  | [] => []
  | value :: items => toValue value :: itemValues items

def memberValues : List (String × Json) → List (String × Json)
  | [] => []
  | (name, value) :: members => (name, toValue value) :: memberValues members

end

/-- `structFields` on a text: a field that is given twice is an error. -/
def textFields (names : List String) : Json → Option (List (Option Json))
  | .obj members => names.mapM fun name =>
    match members.filter fun m => m.1 = name with
    | [] => some none
    | [m] => some (some m.2)
    | _ => none
  | value => structFields (names.map fun name => [name]) value

/-! Readers for the field types, each with `#[serde(default)]`: an absent member is
the default, a member of the wrong type is an error. -/

def stringField : Option Json → Option String
  | none => some ""
  | some (.str s) => some s
  | some _ => none

def optStringField : Option Json → Option (Option String)
  | none => some none
  | some .null => some none
  | some (.str s) => some (some s)
  | some _ => none

def valueField : Option Json → Option Json
  | none => some .null
  | some v => some v

def f64Field : Option Json → Option F64
  | none => some ⟨0⟩
  | some (.num (.int z)) => some (.ofInt z)
  | some (.num (.float x)) => some x
  | some _ => none

def u64Field : Option Json → Option Nat
  | none => some 0
  | some (.num (.int z)) => if 0 ≤ z ∧ z < 2 ^ 64 then some z.toNat else none
  | some _ => none

def optI32Field : Option Json → Option (Option Int)
  | none => some none
  | some .null => some none
  | some (.num (.int z)) => if -2 ^ 31 ≤ z ∧ z < 2 ^ 31 then some (some z) else none
  | some _ => none

end Json

end NotiService.Foundation
