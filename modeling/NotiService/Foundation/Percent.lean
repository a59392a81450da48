import NotiService.Foundation.JsonText
import NotiService.Foundation.Uri

/-! Percent-encoded text and the parameters of a query. An escape is `%` with two hexadecimal
digits, any other character stands for its own bytes, and the bytes are UTF-8. -/

namespace NotiService.Foundation.Percent
open JsonText

/-- The byte of an escape. -/
def escaped (c high low : Char) : Option UInt8 :=
  if c = '%' then do
    let high ← hexValue high
    let low ← hexValue low
    return UInt8.ofNat (16 * high + low)
  else none

def decode : List Char → List UInt8
  | [] => []
  | [c] => String.utf8EncodeChar c
  | [c, d] => String.utf8EncodeChar c ++ String.utf8EncodeChar d
  | c :: high :: low :: s =>
    match escaped c high low with
    | some byte => byte :: decode s
    | none => String.utf8EncodeChar c ++ decode (high :: low :: s)

def HasEscape (s : List Char) : Prop :=
  ∃ before c high low after, s = before ++ c :: high :: low :: after ∧ (escaped c high low).isSome

def text (bytes : List UInt8) : Option String :=
  bytes.toByteArray.utf8Decode?.map fun chars => String.ofList chars.toList

section Decode

variable {c high low : Char} {s : List Char} {byte : UInt8} {bytes : List UInt8}

theorem text_utf8 (s : String) : text (s.toList.flatMap String.utf8EncodeChar) = some s := by
  have hdecode := List.utf8Decode?_utf8Encode (l := s.toList)
  rw [List.utf8Encode] at hdecode
  rw [text, hdecode, Option.map_some, List.toList_toArray, String.ofList_toList]

theorem utf8_of_text {s : String} (h : text bytes = some s) :
    s.toList.flatMap String.utf8EncodeChar = bytes := by
  obtain ⟨chars, hchars, rfl⟩ := Option.map_eq_some_iff.mp h
  have hvalid := ByteArray.utf8Encode_get_utf8Decode? (b := bytes.toByteArray)
    (h := by rw [hchars]; rfl)
  simp only [hchars, Option.get_some, List.utf8Encode] at hvalid
  rw [String.toList_ofList]
  exact List.toByteArray_inj.mp hvalid

theorem decode_escaped (h : escaped c high low = some byte) (s : List Char) :
    decode (c :: high :: low :: s) = byte :: decode s := by
  rw [decode, h]

theorem decode_cons (h : escaped c high low = none) (s : List Char) :
    decode (c :: high :: low :: s) = String.utf8EncodeChar c ++ decode (high :: low :: s) := by
  rw [decode, h]

theorem decode_cons_of_ne (h : c ≠ '%') (s : List Char) :
    decode (c :: s) = String.utf8EncodeChar c ++ decode s := by
  cases s with
  | nil => simp [decode]
  | cons high s =>
    cases s with
    | nil => simp [decode]
    | cons low s => exact decode_cons (if_neg h) s

/-- How an encoder may write a byte. -/
inductive Writes (byte : UInt8) : List Char → Prop
  | plain {c : Char} : c ≠ '%' → String.utf8EncodeChar c = [byte] → Writes byte [c]
  | escape {c high low : Char} : escaped c high low = some byte → Writes byte [c, high, low]

theorem Writes.decode {w : List Char} (h : Writes byte w) (s : List Char) :
    decode (w ++ s) = byte :: decode s := by
  cases h with
  | plain hc hbyte => rw [List.singleton_append, decode_cons_of_ne hc, hbyte, List.singleton_append]
  | escape hbyte => exact decode_escaped hbyte s

theorem decode_flatMap {encode : UInt8 → List Char} (h : ∀ byte, Writes byte (encode byte))
    (bytes : List UInt8) : decode (bytes.flatMap encode) = bytes := by
  induction bytes with
  | nil => rfl
  | cons byte bytes ih => rw [List.flatMap_cons, (h byte).decode, ih]

theorem decode_of_not_hasEscape (h : ¬ HasEscape s) : decode s =
    s.flatMap String.utf8EncodeChar := by
  fun_induction decode s with
  | case1 => rfl
  | case2 c => simp
  | case3 c d => simp
  | case4 c high low s byte hbyte _ => exact absurd ⟨[], c, high, low, s, rfl, by rw [hbyte]; rfl⟩ h
  | case5 c high low s _ ih =>
    have hrest : ¬ HasEscape (high :: low :: s) := by
      rintro ⟨before, c', high', low', after, heq, hsome⟩
      exact h ⟨c :: before, c', high', low', after, by rw [heq]; rfl, hsome⟩
    rw [ih hrest, ← List.flatMap_cons]

theorem one_le_length_utf8 (c : Char) : 1 ≤ (String.utf8EncodeChar c).length := by
  rw [String.length_utf8EncodeChar]
  exact c.utf8Size_pos

theorem length_decode_le (s : List Char) :
    (decode s).length ≤ (s.flatMap String.utf8EncodeChar).length := by
  fun_induction decode s with
  | case1 => exact Nat.le_refl _
  | case2 c => simp
  | case3 c d => simp
  | case4 c high low s byte _ ih =>
    have := one_le_length_utf8 c
    simp only [List.flatMap_cons, List.length_append, List.length_cons] at ih ⊢
    omega
  | case5 c high low s _ ih =>
    rw [List.flatMap_cons, List.length_append, List.length_append]
    omega

theorem length_decode_lt (h : HasEscape s) :
    (decode s).length < (s.flatMap String.utf8EncodeChar).length := by
  have hshort : ∀ {t : List Char}, HasEscape t → 3 ≤ t.length := by
    rintro t ⟨before, c, high, low, after, rfl, -⟩
    simp only [List.length_append, List.length_cons]
    omega
  fun_induction decode s with
  | case1 => exact absurd (hshort h) (by simp)
  | case2 c => exact absurd (hshort h) (by simp)
  | case3 c d => exact absurd (hshort h) (by simp)
  | case4 c high low s byte _ _ =>
    have hle := length_decode_le s
    have hc := one_le_length_utf8 c
    have hhigh := one_le_length_utf8 high
    simp only [List.flatMap_cons, List.length_append, List.length_cons]
    omega
  | case5 c high low s hnone ih =>
    obtain ⟨before, c', high', low', after, heq, hsome⟩ := h
    cases before with
    | nil =>
      cases heq
      rw [hnone] at hsome
      cases hsome
    | cons d before =>
      have hrest := ih ⟨before, c', high', low', after, (List.cons.inj heq).2, hsome⟩
      rw [List.flatMap_cons, List.length_append, List.length_append]
      omega

theorem text_decode_iff {s : String} : text (decode s.toList) = some s ↔ ¬ HasEscape s.toList := by
  constructor
  · intro h hescape
    have hlt := length_decode_lt hescape
    rw [utf8_of_text h] at hlt
    exact Nat.lt_irrefl _ hlt
  · intro h
    rw [decode_of_not_hasEscape h, text_utf8]

end Decode

/-- A character that stands for itself everywhere. -/
def unreserved (c : Char) : Bool := c.isAlphanum || c ∈ ['-', '.', '_', '~']

def upperHex (c : Char) : Bool := c.isDigit || ('A' ≤ c && c ≤ 'F')

/-- Unreserved characters and escapes with upper-case digits, nothing else. -/
inductive Encoded : List Char → Prop
  | nil : Encoded []
  | plain {c : Char} {s : List Char} : unreserved c → Encoded s → Encoded (c :: s)
  | escape {high low : Char} {s : List Char} : upperHex high → upperHex low → Encoded s →
      Encoded ('%' :: high :: low :: s)

section Alphabet

variable {c : Char} {s t : List Char}

theorem unreserved_of_upperHex (h : upperHex c) : unreserved c := by
  unfold upperHex at h
  unfold unreserved Char.isAlphanum Char.isAlpha Char.isUpper
  simp only [Bool.or_eq_true, Bool.and_eq_true, decide_eq_true_eq] at h ⊢
  rcases h with hdigit | ⟨hlow, hhigh⟩
  · exact .inl (.inr hdigit)
  · exact .inl (.inl (.inl ⟨hlow, UInt32.le_trans hhigh (by decide)⟩))

theorem Encoded.append (hs : Encoded s) (ht : Encoded t) : Encoded (s ++ t) := by
  induction hs with
  | nil => exact ht
  | plain hc _ ih => exact .plain hc ih
  | escape hhigh hlow _ ih => exact .escape hhigh hlow ih

theorem Encoded.flatMap {encode : UInt8 → List Char} (h : ∀ byte, Encoded (encode byte))
    (bytes : List UInt8) : Encoded (bytes.flatMap encode) := by
  induction bytes with
  | nil => exact .nil
  | cons byte bytes ih =>
    rw [List.flatMap_cons]
    exact (h byte).append ih

theorem Encoded.not_mem (h : Encoded s) (hc : unreserved c = false) (hescape : c ≠ '%') :
    c ∉ s := by
  have hne : ∀ {d}, unreserved d → c ≠ d := by
    rintro d hd rfl
    rw [hc] at hd
    cases hd
  induction h with
  | nil => exact List.not_mem_nil
  | plain hd _ ih => exact List.not_mem_cons_of_ne_of_not_mem (hne hd) ih
  | escape hhigh hlow _ ih =>
    refine List.not_mem_cons_of_ne_of_not_mem hescape ?_
    refine List.not_mem_cons_of_ne_of_not_mem (hne (unreserved_of_upperHex hhigh)) ?_
    exact List.not_mem_cons_of_ne_of_not_mem (hne (unreserved_of_upperHex hlow)) ih

end Alphabet

/-- A part of a query: its name up to the first `=`, and its value decoded. -/
def param (part : List Char) : Option (String × String) :=
  let (name, value) := Uri.cut '=' part
  (text (decode (value.getD []))).map fun value => (String.ofList name, value)

def pairs (query : List Char) : Option (List (String × String)) :=
  (query.splitOn '&').mapM param

def query (encode : String → List Char) (params : List (String × String)) : List Char :=
  ['&'].intercalate (params.map fun p => p.1.toList ++ '=' :: encode p.2)

def params (link : List Char) : Option (List (String × String)) :=
  (Uri.cut '?' link).2.bind fun query => (query.splitOn '&').mapM param

section Params

variable {a b name value : List Char}

theorem param_append (h : '=' ∉ name) (value : List Char) :
    param (name ++ '=' :: value) = (text (decode value)).map fun value =>
        (String.ofList name, value) := by
  have hcut : Uri.cut '=' (name ++ '=' :: value) = (name, some value) :=
    Uri.cut_append h (some value)
  rw [param, hcut]
  rfl

theorem not_mem_query {d : Char} {encode : String → List Char} {params : List (String × String)}
    (hsep : d ≠ '&' ∧ d ≠ '=') (hencode : ∀ s, d ∉ encode s)
    (hnames : ∀ p ∈ params, d ∉ p.1.toList) : d ∉ query encode params := by
  have hpart : ∀ p ∈ params, d ∉ p.1.toList ++ '=' :: encode p.2 := by
    intro p hp
    simp [hnames p hp, hsep.2, hencode p.2]
  clear hnames
  unfold query
  induction params with
  | nil => exact List.not_mem_nil
  | cons p params ih =>
    have hrest := ih fun q hq => hpart q (List.mem_cons_of_mem _ hq)
    have hp := hpart p List.mem_cons_self
    cases params with
    | nil =>
      rw [List.map_singleton, List.intercalate_singleton]
      exact hp
    | cons q params =>
      rw [List.map_cons, List.map_cons, List.intercalate_cons_cons, List.append_assoc,
        List.mem_append, not_or]
      exact ⟨hp, List.not_mem_cons_of_ne_of_not_mem hsep.1 hrest⟩

theorem pairs_query {encode : String → List Char} {params : List (String × String)}
    (hread : ∀ s, text (decode (encode s)) = some s) (hamp : ∀ s, '&' ∉ encode s)
    (hnames : ∀ p ∈ params, '&' ∉ p.1.toList ∧ '=' ∉ p.1.toList) (hne : params ≠ []) :
    pairs (query encode params) = some params := by
  have hparts : ∀ part ∈ params.map fun p => p.1.toList ++ '=' :: encode p.2, '&' ∉ part := by
    intro part hpart
    obtain ⟨p, hp, rfl⟩ := List.mem_map.mp hpart
    simp [(hnames p hp).1, hamp p.2]
  have hparam : ∀ p ∈ params, param (p.1.toList ++ '=' :: encode p.2) = some p := by
    intro p hp
    rw [param_append (hnames p hp).2, hread, Option.map_some, String.ofList_toList]
  rw [pairs, query, List.splitOn_intercalate _ hparts (by simpa using hne), List.mapM_map]
  clear hparts hne hnames
  induction params with
  | nil => rfl
  | cons p params ih =>
    have hrest := ih fun q hq => hparam q (List.mem_cons_of_mem _ hq)
    rw [List.mapM_cons, Function.comp_apply, hparam p List.mem_cons_self, hrest]
    rfl

theorem params_append (h : '?' ∉ a) (query : List Char) :
    params (a ++ '?' :: query) = pairs query := by
  have hcut : Uri.cut '?' (a ++ '?' :: query) = (a, some query) := Uri.cut_append h (some query)
  rw [params, hcut]
  rfl

theorem params_one (ha : '?' ∉ a) (hb : '&' ∉ b) : params (a ++ '?' :: b) =
    (param b).map ([·]) := by
  rw [params_append ha, pairs, List.splitOn_eq_singleton hb, List.mapM_cons, List.mapM_nil]
  cases param b <;> rfl

theorem params_ne_one (ha : '?' ∉ a) (hb : '&' ∈ b) (p : String × String) :
    params (a ++ '?' :: b) ≠ some [p] := by
  intro h
  obtain ⟨x, y, rfl, hx⟩ := List.eq_append_cons_of_mem hb
  rw [params_append ha, pairs, List.splitOn_append_cons_self_of_not_mem hx, List.mapM_cons] at h
  obtain ⟨first, -, h⟩ := Option.bind_eq_some_iff.mp h
  obtain ⟨rest, hrest, h⟩ := Option.bind_eq_some_iff.mp h
  cases h
  obtain ⟨part, parts, hparts⟩ := List.exists_cons_of_ne_nil (List.splitOn_ne_nil '&' y)
  rw [hparts, List.mapM_cons] at hrest
  obtain ⟨second, -, hrest⟩ := Option.bind_eq_some_iff.mp hrest
  obtain ⟨others, -, hrest⟩ := Option.bind_eq_some_iff.mp hrest
  cases hrest

end Params

end NotiService.Foundation.Percent
