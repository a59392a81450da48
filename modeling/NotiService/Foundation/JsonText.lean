import NotiService.Foundation.Json
import Mathlib.Data.Char

/-! JSON texts as serde_json writes strings to them and reads them back. The reader keeps the
members of an object as they are written and takes the value of a number from its caller. -/

namespace NotiService.Foundation.JsonText

def space (c : Char) : Bool := c = ' ' ∨ c = '\n' ∨ c = '\t' ∨ c = '\r'

def skip (text : List Char) : List Char := text.dropWhile space

def hexDigit (n : Nat) : Char := "0123456789abcdef".toList.getD n '0'

def hexValue (c : Char) : Option Nat :=
  if '0' ≤ c ∧ c ≤ '9' then some (c.toNat - 48)
  else if 'a' ≤ c ∧ c ≤ 'f' then some (c.toNat - 87)
  else if 'A' ≤ c ∧ c ≤ 'F' then some (c.toNat - 55)
  else none

def escape (c : Char) : List Char :=
  if c = '"' then ['\\', '"']
  else if c = '\\' then ['\\', '\\']
  else if c.toNat = 8 then ['\\', 'b']
  else if c = '\t' then ['\\', 't']
  else if c = '\n' then ['\\', 'n']
  else if c.toNat = 12 then ['\\', 'f']
  else if c = '\r' then ['\\', 'r']
  else if c.toNat < 32 then ['\\', 'u', '0', '0', hexDigit (c.toNat / 16), hexDigit (c.toNat % 16)]
  else [c]

def quoted (s : List Char) : List Char := '"' :: (s.flatMap escape ++ ['"'])

def quote (s : String) : String := String.ofList (quoted s.toList)

/-- The characters after a backslash, other than `u`. -/
def unescape (c : Char) : Option Char :=
  if c = '"' ∨ c = '\\' ∨ c = '/' then some c
  else if c = 'b' then some (Char.ofNat 8)
  else if c = 'f' then some (Char.ofNat 12)
  else if c = 'n' then some '\n'
  else if c = 'r' then some '\r'
  else if c = 't' then some '\t'
  else none

def readHex : List Char → Option (Nat × List Char)
  | a :: b :: c :: d :: rest => do
    let a ← hexValue a
    let b ← hexValue b
    let c ← hexValue c
    let d ← hexValue d
    return (a * 4096 + b * 256 + c * 16 + d, rest)
  | _ => none

/-- The rest of an escape after `u`: a character outside the basic plane comes as two, and
half of one is an error. -/
def readUnicode (text : List Char) : Option (Char × List Char) := do
  let (n, rest) ← readHex text
  if 0xD800 ≤ n ∧ n ≤ 0xDBFF then
    let '\\' :: 'u' :: rest := rest | none
    let (m, rest) ← readHex rest
    if 0xDC00 ≤ m ∧ m ≤ 0xDFFF then
      return (Char.ofNat (0x10000 + (n - 0xD800) * 0x400 + (m - 0xDC00)), rest)
    else none
  else if 0xDC00 ≤ n ∧ n ≤ 0xDFFF then none
  else return (Char.ofNat n, rest)

/-- The next character of a string, or its end. -/
def readChar : List Char → Option (Option Char × List Char)
  | '"' :: rest => some (none, rest)
  | '\\' :: 'u' :: rest => (readUnicode rest).map fun (c, rest) => (some c, rest)
  | '\\' :: c :: rest => (unescape c).map fun c => (some c, rest)
  | c :: rest => if c = '\\' ∨ c.toNat < 32 then none else some (some c, rest)
  | [] => none

/-- What follows the opening quote of a string. -/
def readChars : Nat → List Char → Option (List Char × List Char)
  | 0, _ => none
  | n + 1, text => do
    let (c, rest) ← readChar text
    match c with
    | none => return ([], rest)
    | some c => (readChars n rest).map fun (cs, rest) => (c :: cs, rest)

def readString (text : List Char) : Option (String × List Char) :=
  (readChars (text.length + 1) text).map fun (cs, rest) => (String.ofList cs, rest)

section Values

variable (value : List Char → Option (Json × List Char))

def readItems : Nat → List Char → Option (List Json × List Char)
  | 0, _ => none
  | n + 1, text => do
    let (v, rest) ← value text
    match skip rest with
    | ',' :: rest => (readItems n rest).map fun (vs, rest) => (v :: vs, rest)
    | ']' :: rest => return ([v], rest)
    | _ => none

def readMember (text : List Char) : Option ((String × Json) × List Char) := do
  let '"' :: rest := skip text | none
  let (name, rest) ← readString rest
  let ':' :: rest := skip rest | none
  (value rest).map fun (v, rest) => ((name, v), rest)

def readMembers : Nat → List Char → Option (List (String × Json) × List Char)
  | 0, _ => none
  | n + 1, text => do
    let (m, rest) ← readMember value text
    match skip rest with
    | ',' :: rest => (readMembers n rest).map fun (ms, rest) => (m :: ms, rest)
    | '\x7d' :: rest => return ([m], rest)
    | _ => none

end Values

def numeric (c : Char) : Bool := c.isDigit ∨ c = '-' ∨ c = '+' ∨ c = '.' ∨ c = 'e' ∨ c = 'E'

variable (number : List Char → Option Number)

/-- The next value, at a depth that may go down `depth - 1` levels. -/
def readValue : Nat → List Char → Option (Json × List Char)
  | 0, _ => none
  | depth + 1, text =>
    match skip text with
    | '"' :: rest => (readString rest).map fun (s, rest) => (.str s, rest)
    | 'n' :: 'u' :: 'l' :: 'l' :: rest => some (.null, rest)
    | 't' :: 'r' :: 'u' :: 'e' :: rest => some (.bool true, rest)
    | 'f' :: 'a' :: 'l' :: 's' :: 'e' :: rest => some (.bool false, rest)
    | '[' :: rest =>
      if depth = 0 then none
      else match skip rest with
        | ']' :: rest => some (.arr [], rest)
        | _ => (readItems (readValue depth) (rest.length + 1) rest).map fun (vs, rest) =>
          (.arr vs, rest)
    | '\x7b' :: rest =>
      if depth = 0 then none
      else match skip rest with
        | '\x7d' :: rest => some (.obj [], rest)
        | _ => (readMembers (readValue depth) (rest.length + 1) rest).map fun (ms, rest) =>
          (.obj ms, rest)
    | text => (number (text.takeWhile numeric)).map fun n => (.num n, text.dropWhile numeric)

/-- A text holds one value, and nothing but whitespace around it. -/
def fromStr (text : String) : Option Json := do
  let (v, rest) ← readValue number 128 text.toList
  if skip rest = [] then return v else none

section Strings

theorem hexValue_hexDigit : ∀ n < 16, hexValue (hexDigit n) = some n := by decide

theorem readHex_control {n : Nat} (h : n < 32) (rest : List Char) :
    readHex ('0' :: '0' :: hexDigit (n / 16) :: hexDigit (n % 16) :: rest) = some (n, rest) := by
  have hzero : hexValue '0' = some 0 := rfl
  simp only [readHex, hzero, hexValue_hexDigit (n / 16) (by omega),
    hexValue_hexDigit (n % 16) (by omega),
    Option.pure_def, Option.bind_eq_bind, Option.bind_some, Option.some.injEq, Prod.mk.injEq,
      and_true]
  omega

theorem readUnicode_control {c : Char} (h : c.toNat < 32) (rest : List Char) :
    readUnicode ('0' :: '0' :: hexDigit (c.toNat / 16) :: hexDigit (c.toNat % 16) :: rest) =
      some (c, rest) := by
  unfold readUnicode
  rw [readHex_control h]
  dsimp only [Option.bind_eq_bind, Option.bind_some]
  rw [if_neg (by omega), if_neg (by omega), Char.ofNat_toNat]
  rfl

theorem readChar_plain {c : Char} (hquote : c ≠ '"') (hslash : c ≠ '\\') (h : 32 ≤ c.toNat)
    (rest : List Char) : readChar (c :: rest) = some (some c, rest) := by
  unfold readChar
  split
  · next heq => exact absurd (List.cons.inj heq).1 hquote
  · next heq => exact absurd (List.cons.inj heq).1 hslash
  · next heq => exact absurd (List.cons.inj heq).1 hslash
  · next heq =>
    obtain ⟨rfl, rfl⟩ := List.cons.inj heq
    rw [if_neg (not_or.mpr ⟨hslash, Nat.not_lt.mpr h⟩)]
  · next heq => cases heq

theorem readChar_escape (c : Char) (rest : List Char) :
    readChar (escape c ++ rest) = some (some c, rest) := by
  have hnat : ∀ n, c.toNat = n → c = Char.ofNat n := fun n h => h ▸ (Char.ofNat_toNat c).symm
  unfold escape
  split
  · next h => rw [h]; rfl
  split
  · next h => rw [h]; rfl
  split
  · next h => rw [hnat 8 h]; rfl
  split
  · next h => rw [h]; rfl
  split
  · next h => rw [h]; rfl
  split
  · next h => rw [hnat 12 h]; rfl
  split
  · next h => rw [h]; rfl
  split
  · next h => exact congrArg (Option.map _) (readUnicode_control h rest)
  · next hquote hslash _ _ _ _ _ h =>
    exact readChar_plain hquote hslash (Nat.not_lt.mp h) rest

theorem readChars_escaped (s rest : List Char) {n : Nat} (h : s.length < n) :
    readChars n (s.flatMap escape ++ '"' :: rest) = some (s, rest) := by
  induction s generalizing n with
  | nil =>
    cases n with
    | zero => cases h
    | succ n => rfl
  | cons c s ih =>
    cases n with
    | zero => cases h
    | succ n =>
      rw [List.flatMap_cons, List.append_assoc, readChars, readChar_escape]
      dsimp only [Option.bind_eq_bind, Option.bind_some]
      rw [ih (Nat.lt_of_succ_lt_succ h)]
      rfl

theorem length_le_flatMap_escape (s : List Char) : s.length ≤ (s.flatMap escape).length := by
  induction s with
  | nil => exact Nat.le_refl _
  | cons c s ih =>
    have hpos : 1 ≤ (escape c).length := by
      unfold escape
      repeat' split
      all_goals simp
    rw [List.flatMap_cons, List.length_append, List.length_cons]
    omega

theorem readString_quoted (s : String) (rest : List Char) :
    readString (s.toList.flatMap escape ++ '"' :: rest) = some (s, rest) := by
  have hle := length_le_flatMap_escape s.toList
  unfold readString
  rw [readChars_escaped s.toList rest (by rw [List.length_append]; omega), Option.map_some]
  exact congrArg (fun s => some (s, rest)) String.ofList_toList

end Strings

/-! Objects whose members are all strings, written with the same white space after each colon
and each comma. -/

def member (gap : List Char) (m : String × String) : List Char :=
  quoted m.1.toList ++ ':' :: (gap ++ quoted m.2.toList)

def members (gap : List Char) : List (String × String) → List Char
  | [] => []
  | [m] => member gap m
  | m :: ms => member gap m ++ ',' :: (gap ++ members gap ms)

def object (gap : List Char) (ms : List (String × String)) : String :=
  String.ofList ('\x7b' :: (members gap ms ++ ['\x7d']))

section Objects

variable {gap : List Char} {number : List Char → Option Number}

theorem skip_gap (hgap : ∀ c ∈ gap, space c) {c : Char} (hc : space c = false) (rest : List Char) :
    skip (gap ++ c :: rest) = c :: rest := by
  rw [skip, List.dropWhile_append_of_pos hgap, List.dropWhile_cons_of_neg (by simp [hc])]

theorem readValue_quoted (hgap : ∀ c ∈ gap, space c) (depth : Nat) (s : String) (rest : List Char) :
    readValue number (depth + 1) (gap ++ (quoted s.toList ++ rest)) = some (.str s, rest) := by
  have hskip := skip_gap hgap (c := '"') rfl (s.toList.flatMap escape ++ '"' :: rest)
  rw [quoted, List.cons_append, List.append_assoc, List.singleton_append, readValue, hskip]
  exact congrArg (Option.map _) (readString_quoted s rest)

theorem readMember_member {lead : List Char} (hlead : ∀ c ∈ lead, space c)
    (hgap : ∀ c ∈ gap, space c) (depth : Nat) (m : String × String) (rest : List Char) :
    readMember (readValue number (depth + 1)) (lead ++ (member gap m ++ rest)) =
      some ((m.1, .str m.2), rest) := by
  have hskip := skip_gap hlead (c := '"') rfl
    (m.1.toList.flatMap escape ++ '"' :: ':' :: (gap ++ (quoted m.2.toList ++ rest)))
  have htext : lead ++ (member gap m ++ rest) =
      lead ++ '"' :: (m.1.toList.flatMap escape ++ '"' :: ':' ::
          (gap ++ (quoted m.2.toList ++ rest))) := by
    simp [member, quoted]
  rw [htext, readMember, hskip]
  show Option.bind (readString (m.1.toList.flatMap escape ++ _)) _ = _
  rw [readString_quoted, Option.bind_some]
  show Option.map _ (readValue number (depth + 1) (gap ++ (quoted m.2.toList ++ rest))) = _
  rw [readValue_quoted hgap]
  rfl

theorem readMembers_members {lead : List Char} (hlead : ∀ c ∈ lead, space c)
    (hgap : ∀ c ∈ gap, space c) (depth : Nat) {ms : List (String × String)} (hms : ms ≠ [])
    {n : Nat}
    (hn : ms.length ≤ n) (rest : List Char) :
    readMembers (readValue number (depth + 1)) n (lead ++ (members gap ms ++ '\x7d' :: rest)) =
      some (ms.map fun m => (m.1, .str m.2), rest) := by
  induction ms generalizing lead n with
  | nil => exact absurd rfl hms
  | cons m ms ih =>
    cases n with
    | zero => cases hn
    | succ n =>
      cases ms with
      | nil =>
        rw [members, readMembers, readMember_member hlead hgap]
        rfl
      | cons m' ms =>
        have htext : members gap (m :: m' :: ms) ++ '\x7d' :: rest =
            member gap m ++ ',' :: (gap ++ (members gap (m' :: ms) ++ '\x7d' :: rest)) := by
          simp [members]
        rw [htext, readMembers, readMember_member hlead hgap]
        show Option.map _ (readMembers _ n (gap ++ (members gap (m' :: ms) ++ '\x7d' :: rest))) = _
        rw [ih hgap (List.cons_ne_nil m' ms) (Nat.le_of_succ_le_succ hn)]
        rfl

theorem length_le_members (gap : List Char) (ms : List (String × String)) :
    ms.length ≤ (members gap ms).length := by
  induction ms with
  | nil => exact Nat.le_refl 0
  | cons m ms ih =>
    cases ms with
    | nil => simp [members, member, quoted]
    | cons m' ms =>
      simp only [members, List.length_append, List.length_cons] at ih ⊢
      omega

theorem fromStr_object_append (number : List Char → Option Number) (hgap : ∀ c ∈ gap, space c)
    {ms : List (String × String)} (hms : ms ≠ []) {tail : List Char} (htail : ∀ c ∈ tail, space c) :
    fromStr number (object gap ms ++ String.ofList tail) =
      some (.obj (ms.map fun m => (m.1, .str m.2))) := by
  have hread : readMembers (readValue number 127) ((members gap ms ++ '\x7d' :: tail).length + 1)
      (members gap ms ++ '\x7d' :: tail) = some (ms.map fun m => (m.1, .str m.2), tail) := by
    have hlength := length_le_members gap ms
    refine readMembers_members (List.forall_mem_nil _) hgap 126 hms ?_ tail
    rw [List.length_append]
    omega
  obtain ⟨rest, hrest⟩ : ∃ rest, members gap ms ++ '\x7d' :: tail = '"' :: rest := by
    cases ms with
    | nil => exact absurd rfl hms
    | cons m ms => cases ms <;> exact ⟨_, rfl⟩
  have hvalue : readValue number 128 ('\x7b' :: (members gap ms ++ '\x7d' :: tail)) =
      some (.obj (ms.map fun m => (m.1, .str m.2)), tail) := by
    rw [hrest] at hread ⊢
    show Option.map _ (readMembers (readValue number 127) _ ('"' :: rest)) = _
    rw [hread]
    rfl
  have htext : (object gap ms ++ String.ofList tail).toList =
      '\x7b' :: (members gap ms ++ '\x7d' :: tail) := by simp [object]
  have hskip : skip tail = [] := by
    have hdrop : (tail ++ []).dropWhile space = [] := List.dropWhile_append_of_pos htail
    rwa [List.append_nil] at hdrop
  rw [fromStr, htext, hvalue]
  exact if_pos hskip

theorem fromStr_object (number : List Char → Option Number) (hgap : ∀ c ∈ gap, space c)
    {ms : List (String × String)} (hms : ms ≠ []) :
    fromStr number (object gap ms) = some (.obj (ms.map fun m => (m.1, .str m.2))) := by
  have happend := fromStr_object_append number hgap hms (List.forall_mem_nil _)
  rwa [String.ofList_nil, String.append_empty] at happend

end Objects

end NotiService.Foundation.JsonText
