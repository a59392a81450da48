import NotiService.Url
import NotiService.Foundation.Percent

/-! What a reader of a link finds in a query built with `urlencode`. -/

namespace NotiService.Url
open Foundation

theorem toNat_ascii : ∀ n < 128, (Char.ofNat n).toNat = n := by decide

theorem unreserved_range {byte : UInt8} (h : unreserved byte) :
    byte.toNat < 128 ∧ byte.toNat ∉ [35, 37, 38, 61, 63] := by
  unfold unreserved at h
  simp only [Bool.or_eq_true, Bool.and_eq_true, decide_eq_true_eq] at h
  simp only [List.mem_cons, List.not_mem_nil, or_false]
  omega

theorem hexValue_hexDigit : ∀ n < 16, JsonText.hexValue (hexDigit n) = some n := by decide

theorem writes_encodeByte (byte : UInt8) : Percent.Writes byte (encodeByte byte) := by
  unfold encodeByte
  split
  · next h =>
    obtain ⟨hlt, hspecial⟩ := unreserved_range h
    have hchar := toNat_ascii _ hlt
    refine .plain (fun heq => hspecial ?_) ?_
    · rw [heq] at hchar
      rw [← hchar]
      decide
    · have hval : (Char.ofNat byte.toNat).val.toNat = byte.toNat := hchar
      rw [String.utf8EncodeChar_eq_singleton]
      · refine congrArg (fun b => [b]) (UInt8.toNat.inj ?_)
        rw [UInt32.toNat_toUInt8, hval]
        exact Nat.mod_eq_of_lt (by omega)
      · rw [Char.utf8Size_eq_one_iff, UInt32.le_iff_toNat_le, hval]
        exact Nat.le_of_lt_succ hlt
  · have hlt := byte.toNat_lt
    refine .escape ?_
    rw [Percent.escaped, if_pos rfl, hexValue_hexDigit _ (by omega), hexValue_hexDigit _ (by omega)]
    refine congrArg some ?_
    rw [Nat.div_add_mod, UInt8.ofNat_toNat]

theorem decode_urlencode (s : String) :
    Percent.text (Percent.decode (urlencode s).toList) = some s := by
  rw [urlencode, String.toList_ofList, Percent.decode_flatMap writes_encodeByte, Percent.text_utf8]

theorem unreserved_char : ∀ n < 128, unreserved (UInt8.ofNat n) →
    Percent.unreserved (Char.ofNat n) := by decide

theorem upperHex_hexDigit : ∀ n < 16, Percent.upperHex (hexDigit n) := by decide

theorem encoded_encodeByte (byte : UInt8) : Percent.Encoded (encodeByte byte) := by
  have hlt := byte.toNat_lt
  unfold encodeByte
  split
  · next h =>
    refine .plain (unreserved_char _ (unreserved_range h).1 ?_) .nil
    rw [UInt8.ofNat_toNat]
    exact h
  · exact .escape (upperHex_hexDigit _ (by omega)) (upperHex_hexDigit _ (by omega)) .nil

theorem encoded_urlencode (s : String) : Percent.Encoded (urlencode s).toList := by
  rw [urlencode, String.toList_ofList]
  exact .flatMap encoded_encodeByte _

/-- The characters that end a value, a name or a query. -/
def delimiters : List Char := ['#', '&', '=', '?']

theorem reserved_of_delimiter : ∀ c ∈ delimiters, Percent.unreserved c = false ∧ c ≠ '%' := by
  rw [delimiters, List.forall_mem_cons, List.forall_mem_cons, List.forall_mem_cons,
    List.forall_mem_singleton]
  decide

theorem not_mem_urlencode {c : Char} (hc : c ∈ delimiters) (s : String) :
    c ∉ (urlencode s).toList :=
  (encoded_urlencode s).not_mem (reserved_of_delimiter c hc).1 (reserved_of_delimiter c hc).2

def encodedQuery (params : List (String × String)) : List Char :=
  Percent.query (fun s => (urlencode s).toList) params

section Query

variable {params : List (String × String)}

theorem pairs_encodedQuery (hnames : ∀ p ∈ params, ∀ d ∈ delimiters, d ∉ p.1.toList)
    (hne : params ≠ []) : Percent.pairs (encodedQuery params) = some params :=
  Percent.pairs_query decode_urlencode (not_mem_urlencode (by decide))
    (fun p hp => ⟨hnames p hp _ (by decide), hnames p hp _ (by decide)⟩) hne

theorem not_mem_encodedQuery {d : Char} (hnames : ∀ p ∈ params, ∀ d ∈ delimiters, d ∉ p.1.toList)
    (hd : d ∈ delimiters) (hsep : d ≠ '&' ∧ d ≠ '=') : d ∉ encodedQuery params :=
  Percent.not_mem_query hsep (not_mem_urlencode hd) fun p hp => hnames p hp d hd

end Query

section Callback

variable {frontendUrl : Option String} {base path query : String}

theorem trimEndSlashes_subset (s : String) : (trimEndSlashes s).toList ⊆ s.toList := by
  rw [trimEndSlashes, String.toList_ofList]
  exact (List.rdropWhile_prefix (· = '/') _).subset

/-- The path with the slash in front that joins it to a base. -/
def rooted (path : String) : List Char :=
  if path.toList.head? = some '/' then path.toList else '/' :: path.toList

theorem eq_slash_of_mem_rooted {c : Char} (h : c ∈ rooted path) : c = '/' ∨ c ∈ path.toList := by
  unfold rooted at h
  split at h
  · exact .inr h
  · exact List.mem_cons.mp h

theorem not_mem_page {c : Char} (hbase : c ∉ base.toList) (hpath : c ∉ path.toList)
    (hslash : c ≠ '/') : c ∉ (trimEndSlashes base).toList ++ rooted path := by
  intro hmem
  rcases List.mem_append.mp hmem with hmem | hmem
  · exact hbase (trimEndSlashes_subset base hmem)
  · exact (eq_slash_of_mem_rooted hmem).elim hslash hpath

theorem toList_buildCallbackUrl (hquery : query ≠ "") :
    (buildCallbackUrl (some base) path query).toList =
      ((trimEndSlashes base).toList ++ rooted path) ++ '?' :: query.toList := by
  rw [buildCallbackUrl]
  rw [if_neg hquery]
  unfold rooted
  split <;> simp

theorem query_buildCallbackUrl (hbase : '?' ∉ base.toList ∧ '#' ∉ base.toList)
    (hpath : '?' ∉ path.toList ∧ '#' ∉ path.toList) (hquery : query ≠ "")
    (hhash : '#' ∉ query.toList) :
    (Uri.parse (buildCallbackUrl (some base) path query).toList).query = some query.toList := by
  rw [toList_buildCallbackUrl hquery]
  refine Uri.query_parse (not_mem_page hbase.1 hpath.1 (by decide)) ?_
  rw [List.mem_append, List.mem_cons, not_or, not_or]
  exact ⟨not_mem_page hbase.2 hpath.2 (by decide), by decide, hhash⟩

theorem buildCallbackUrl_ne_empty : buildCallbackUrl frontendUrl path query ≠ "" ↔
    frontendUrl ≠ none := by
  cases frontendUrl with
  | none => simp [buildCallbackUrl]
  | some base =>
    refine iff_of_true ?_ nofun
    rw [buildCallbackUrl]
    have hne : ∀ path : String, (if path.toList.head? = some '/' then path else "/" ++ path) ≠
        "" := by
      intro path
      split
      · next h =>
        rintro rfl
        cases h
      · simp
    intro hempty
    split at hempty
    · exact hne path (String.append_eq_empty_iff.mp hempty).2
    · simp at hempty

/-- A value is written in unreserved characters and escapes and is read back, alone, beside another
in a query, and in the link that ends with that query. -/
theorem urlencode_lossless (a b : String) :
    Percent.Encoded (urlencode a).toList ∧
      Percent.text (Percent.decode (urlencode a).toList) = some a ∧
      Percent.pairs ("token=" ++ urlencode a ++ "&email=" ++ urlencode b).toList =
        some [("token", a), ("email", b)] ∧
      ∀ base path : String, '?' ∉ base.toList ∧ '#' ∉ base.toList →
        '?' ∉ path.toList ∧ '#' ∉ path.toList →
        (Uri.parse (buildCallbackUrl (some base) path
          ("token=" ++ urlencode a ++ "&email=" ++ urlencode b)).toList).query.bind Percent.pairs =
            some [("token", a), ("email", b)] := by
  have hquery : ("token=" ++ urlencode a ++ "&email=" ++ urlencode b).toList =
      encodedQuery [("token", a), ("email", b)] := by
    simp [encodedQuery, Percent.query]
  have hnames : ∀ p ∈ [("token", a), ("email", b)], ∀ d ∈ delimiters, d ∉ p.1.toList := by
    simp [delimiters]
  have hpairs := pairs_encodedQuery hnames (List.cons_ne_nil _ _)
  have hhash := not_mem_encodedQuery (d := '#') hnames (by decide) (by decide)
  rw [← hquery] at hpairs hhash
  refine ⟨encoded_urlencode a, decode_urlencode a, hpairs, fun base path hbase hpath => ?_⟩
  rw [query_buildCallbackUrl hbase hpath (by simp) hhash, Option.bind_some, hpairs]

theorem urlencode_lossless_email :
    (Uri.parse (buildCallbackUrl (some "https://app.gridtokenx.test/") "verify"
      ("token=" ++ urlencode "a&b=c" ++ "&email=" ++ urlencode "zoë+1@grx.test")).toList).query.bind
        Percent.pairs = some [("token", "a&b=c"), ("email", "zoë+1@grx.test")] :=
  (urlencode_lossless _ _).2.2.2 _ _ (by decide) (by decide)

example : urlencode "a+b@grx.test" = "a%2Bb%40grx.test" := by decide

end Callback

end NotiService.Url
