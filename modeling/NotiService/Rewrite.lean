import NotiService.Url
import NotiService.Foundation.Uri

/-! Where `rewrite_url` keeps the origin of the frontend, and the path, the query and the
fragment of the upstream link. -/

namespace NotiService.Url
open Foundation

section Search

variable {pattern s t : List Char} {c : Char}

theorem afterFirst_eq_some (hne : pattern ≠ []) (h : afterFirst pattern s = some t) :
    ∃ before, s = before ++ (pattern ++ t) := by
  induction s with
  | nil => rw [afterFirst, if_neg hne] at h; cases h
  | cons c s ih =>
    rw [afterFirst] at h
    split at h
    · next hprefix =>
      cases h
      obtain ⟨rest, hrest⟩ := List.isPrefixOf_iff_prefix.mp hprefix
      refine ⟨[], ?_⟩
      rw [List.nil_append, ← hrest, List.drop_left]
    · obtain ⟨before, rfl⟩ := ih h
      exact ⟨c :: before, rfl⟩

theorem suffix_of_afterFirst (pattern before rest : List Char) :
    ∃ t, afterFirst pattern (before ++ (pattern ++ rest)) = some t ∧ rest <:+ t := by
  induction before with
  | nil =>
    cases pattern with
    | nil => cases rest <;> exact ⟨_, by simp [afterFirst], List.suffix_refl _⟩
    | cons c pattern =>
      have hprefix : (c :: pattern).isPrefixOf (c :: (pattern ++ rest)) :=
        List.isPrefixOf_iff_prefix.mpr ⟨rest, rfl⟩
      refine ⟨rest, ?_, List.suffix_refl _⟩
      rw [List.nil_append, List.cons_append, afterFirst, if_pos hprefix, ← List.cons_append,
        List.drop_left]
  | cons c before ih =>
    obtain ⟨t, ht, hsuffix⟩ := ih
    rw [List.cons_append, afterFirst]
    split
    · next hprefix =>
      obtain ⟨rest', hrest'⟩ := List.isPrefixOf_iff_prefix.mp hprefix
      refine ⟨rest', by rw [← hrest', List.drop_left], ?_⟩
      have hlength := congrArg List.length hrest'
      simp only [List.length_append, List.length_cons] at hlength
      have hwhole : rest <:+ pattern ++ rest' := hrest' ▸ ⟨c :: (before ++ pattern), by simp⟩
      exact List.suffix_of_suffix_length_le hwhole (List.suffix_append ..) (by omega)
    · exact ⟨t, ht, hsuffix⟩

theorem afterFirst_append (h : c ∉ s) (pattern rest : List Char) :
    afterFirst (c :: pattern) (s ++ (c :: pattern ++ rest)) = some rest := by
  induction s with
  | nil =>
    have hprefix : (c :: pattern).isPrefixOf (c :: (pattern ++ rest)) :=
      List.isPrefixOf_iff_prefix.mpr ⟨rest, rfl⟩
    rw [List.nil_append, List.cons_append, afterFirst, if_pos hprefix, ← List.cons_append,
      List.drop_left]
  | cons d s ih =>
    obtain ⟨hd, hs⟩ := not_or.mp (mt List.mem_cons.mpr h)
    have hprefix : ¬ (c :: pattern).isPrefixOf (d :: (s ++ (c :: pattern ++ rest))) := by
      simp [List.isPrefixOf, hd]
    rw [List.cons_append, afterFirst, if_neg hprefix, ih hs]

theorem fromFirst_eq_some (h : fromFirst c s = some t) :
    ∃ before, s = before ++ t ∧ t.head? = some c := by
  obtain ⟨hmem, h⟩ := Option.ite_none_right_eq_some.mp h
  cases h
  refine ⟨s.takeWhile (· ≠ c), (List.takeWhile_append_dropWhile ..).symm, ?_⟩
  have hhead := List.head?_dropWhile_not (· ≠ c) s
  cases hdrop : s.dropWhile (· ≠ c) with
  | nil =>
    have hall := List.dropWhile_eq_nil_iff.mp hdrop c hmem
    simp at hall
  | cons d rest =>
    rw [hdrop] at hhead
    simpa using hhead

theorem fromFirst_append (hs : c ∉ s) (t : List Char) : fromFirst c (s ++ c :: t) =
    some (c :: t) := by
  have hall : ∀ d ∈ s, decide (d ≠ c) = true := fun d hd => decide_eq_true fun heq => hs (heq ▸ hd)
  rw [fromFirst, if_pos (by simp), List.dropWhile_append_of_pos hall,
    List.dropWhile_cons_of_neg (by simp)]

theorem fromFirst_eq_none : fromFirst c s = none ↔ c ∉ s := by
  simp [fromFirst]

end Search

theorem rewriteUrl_ne_empty {frontendUrl : Option String} {upstream : String} (h : upstream ≠ "") :
    rewriteUrl frontendUrl upstream ≠ "" := by
  cases frontendUrl with
  | none => exact h
  | some base =>
    rw [rewriteUrl]
    dsimp only
    rw [if_pos h]
    intro hempty
    obtain ⟨-, hrest⟩ := List.append_eq_nil_iff.mp ((String.toList_append ..).symm.trans
      (congrArg String.toList hempty))
    rw [String.toList_ofList] at hrest
    cases hcut : (afterFirst "://".toList upstream.toList).bind (fromFirst '/') with
    | none =>
      rw [hcut, Option.getD_none] at hrest
      exact h (String.toList_eq_nil_iff.mp hrest)
    | some t =>
      obtain ⟨x, -, hfrom⟩ := Option.bind_eq_some_iff.mp hcut
      obtain ⟨before, -, hhead⟩ := fromFirst_eq_some hfrom
      rw [hcut, Option.getD_some] at hrest
      rw [hrest] at hhead
      cases hhead

/-- A slash follows a `://` of the text. -/
def SlashAfterScheme (s : List Char) : Prop :=
  ∃ before rest, s = before ++ ("://".toList ++ rest) ∧ '/' ∈ rest

theorem bind_fromFirst_eq_none {s : List Char} :
    (afterFirst "://".toList s).bind (fromFirst '/') = none ↔ ¬ SlashAfterScheme s := by
  constructor
  · rintro h ⟨before, rest, rfl, hmem⟩
    obtain ⟨t, ht, hsuffix⟩ := suffix_of_afterFirst "://".toList before rest
    rw [ht, Option.bind_some, fromFirst_eq_none] at h
    exact h (hsuffix.subset hmem)
  · intro h
    cases hafter : afterFirst "://".toList s with
    | none => rfl
    | some t =>
      obtain ⟨before, hs⟩ := afterFirst_eq_some (by decide) hafter
      rw [Option.bind_some, fromFirst_eq_none]
      exact fun hmem => h ⟨before, t, hs, hmem⟩

instance (s : List Char) : Decidable (SlashAfterScheme s) :=
  decidable_of_iff (¬ (afterFirst "://".toList s).bind (fromFirst '/') = none)
    (by rw [bind_fromFirst_eq_none, not_not])

/-- `scheme://authority`, then a path or nothing. -/
structure FrontendBase (base : String) : Prop where
  scheme : (Uri.parse base.toList).scheme.isSome
  authority : ∃ a, (Uri.parse base.toList).authority = some a ∧ a ≠ []
  query : (Uri.parse base.toList).query = none
  fragment : (Uri.parse base.toList).fragment = none

/-- An absolute URL with an authority, or a reference without a scheme. -/
structure UpstreamLink (link : String) : Prop where
  nonempty : link ≠ ""
  form : (Uri.parse link.toList).scheme.isSome → (Uri.parse link.toList).authority.isSome

def basePath (base : String) : List Char := (Uri.parse base.toList).path.rdropWhile (· = '/')

/-- The rewritten link has the origin of the base, and after the base's path the path, the query
and the fragment of the upstream link. -/
def KeepsParts (base upstream : String) : Prop :=
  Uri.parse (rewriteUrl (some base) upstream).toList =
    { scheme := (Uri.parse base.toList).scheme
      authority := (Uri.parse base.toList).authority
      path := basePath base ++ (Uri.parse upstream.toList).path
      query := (Uri.parse upstream.toList).query
      fragment := (Uri.parse upstream.toList).fragment }

/-- An absolute link has a path. A reference has no authority and no slash after a `://`, and
its path starts with a slash unless it is empty or the base has one of its own. -/
def Rewritable (base upstream : String) : Prop :=
  let link := Uri.parse upstream.toList
  if link.scheme.isSome then link.path ≠ []
  else link.authority = none ∧ ¬ SlashAfterScheme upstream.toList ∧
    (link.path = [] ∨ link.path.head? = some '/' ∨ basePath base ≠ [])

instance (base upstream : String) : Decidable (Rewritable base upstream) :=
  inferInstanceAs (Decidable (if (Uri.parse upstream.toList).scheme.isSome then
    (Uri.parse upstream.toList).path ≠ [] else _ ∧ ¬ _ ∧ (_ ∨ _ ∨ _)))

theorem rdropWhile_append_of_getLast {p : Char → Bool} {s : List Char} {c : Char}
    (hs : s.getLast? = some c) (hc : p c = false) (t : List Char) :
    (s ++ t).rdropWhile p = s ++ t.rdropWhile p := by
  induction t using List.reverseRecOn with
  | nil =>
    obtain ⟨init, rfl⟩ := List.getLast?_eq_some_iff.mp hs
    rw [List.append_nil, List.rdropWhile_concat_neg _ _ _ (by simp [hc]), List.rdropWhile_nil,
      List.append_nil]
  | append_singleton t d ih =>
    rw [← List.append_assoc]
    by_cases hd : p d
    · rw [List.rdropWhile_concat_pos _ _ _ hd, List.rdropWhile_concat_pos _ _ _ hd, ih]
    · rw [List.rdropWhile_concat_neg _ _ _ hd, List.rdropWhile_concat_neg _ _ _ hd,
        List.append_assoc]

section Parts

variable {base upstream : String}

theorem toList_trimEndSlashes (h : FrontendBase base) :
    (trimEndSlashes base).toList = (Uri.parse base.toList).origin ++ basePath base := by
  obtain ⟨a, ha, hne⟩ := h.authority
  have hprint := Uri.print_parse base.toList
  have hchars := (Uri.wellFormed_parse base.toList).authority a ha
  have hbase : base.toList = (Uri.parse base.toList).origin ++ (Uri.parse base.toList).path := by
    rw [Uri.print, Uri.tail, h.query, h.fragment] at hprint
    simpa [Uri.led] using hprint.symm
  have hlast : (Uri.parse base.toList).origin.getLast? = some (a.getLast hne) := by
    rw [Uri.origin, ha, Uri.led, List.getLast?_append_of_ne_nil _ (by simp),
      List.getLast?_append_of_ne_nil _ hne, List.getLast?_eq_some_getLast hne]
  have hslash : decide (a.getLast hne = '/') = false :=
    decide_eq_false (hchars _ (List.getLast_mem hne)).1
  have htrim : (trimEndSlashes base).toList = base.toList.rdropWhile (· = '/') := by
    rw [trimEndSlashes, String.toList_ofList, List.rdropWhile]
  rw [htrim, basePath]
  generalize Uri.parse base.toList = B at *
  rw [hbase]
  exact rdropWhile_append_of_getLast hlast hslash _

def rest (upstream : String) : List Char :=
  ((afterFirst "://".toList upstream.toList).bind (fromFirst '/')).getD upstream.toList

theorem toList_rewriteUrl (h : FrontendBase base) (hne : upstream ≠ "") :
    (rewriteUrl (some base) upstream).toList =
      (Uri.parse base.toList).origin ++ (basePath base ++ rest upstream) := by
  rw [rewriteUrl]
  dsimp only
  rw [if_pos hne, String.toList_append, toList_trimEndSlashes h, String.toList_ofList,
    List.append_assoc]
  rfl

theorem basePath_rooted (h : FrontendBase base) :
    basePath base = [] ∨ (basePath base).head? = some '/' := by
  obtain ⟨a, ha, -⟩ := h.authority
  have hprefix : basePath base <+: (Uri.parse base.toList).path := List.rdropWhile_prefix ..
  cases hpath : basePath base with
  | nil => exact .inl rfl
  | cons c rest =>
    rw [hpath] at hprefix
    obtain ⟨t, ht⟩ := hprefix
    have hrooted := (Uri.wellFormed_parse base.toList).rooted (by rw [ha]; rfl)
    rw [← ht] at hrooted
    exact .inr (hrooted.resolve_left (by simp))

/-- The parts are kept if and only if what follows the base is what follows the origin of the
link, and is no part of the authority. -/
theorem keepsParts_iff_rest (h : FrontendBase base) (hne : upstream ≠ "") :
    KeepsParts base upstream ↔ rest upstream = (Uri.parse upstream.toList).tail ∧
      (basePath base ++ (Uri.parse upstream.toList).path = [] ∨
        (basePath base ++ (Uri.parse upstream.toList).path).head? = some '/') := by
  have hbase := Uri.wellFormed_parse base.toList
  have hlink := Uri.wellFormed_parse upstream.toList
  obtain ⟨a, ha, -⟩ := h.authority
  have hpath : basePath base ⊆ (Uri.parse base.toList).path := (List.rdropWhile_prefix ..).subset
  unfold KeepsParts
  rw [toList_rewriteUrl h hne]
  generalize Uri.parse upstream.toList = link at *
  generalize hB : Uri.parse base.toList = B at *
  have hprint : (Uri.mk B.scheme B.authority (basePath base ++ link.path) link.query
      link.fragment).print = B.origin ++ (basePath base ++ link.tail) := by
    simp only [Uri.print, Uri.origin, Uri.tail, List.append_assoc]
  constructor
  · intro heq
    have hwhole := Uri.print_parse (B.origin ++ (basePath base ++ rest upstream))
    have hrooted := (Uri.wellFormed_parse (B.origin ++ (basePath base ++ rest upstream))).rooted
    rw [heq] at hwhole hrooted
    rw [hprint, List.append_cancel_left_eq, List.append_cancel_left_eq] at hwhole
    exact ⟨hwhole.symm, hrooted (by rw [ha]; rfl)⟩
  · rintro ⟨hrest, hrooted⟩
    rw [hrest, ← hprint]
    refine Uri.parse_print ⟨hbase.scheme, hbase.authority, ⟨?_, ?_⟩, fun _ => hrooted, hlink.query⟩
      ?_ ?_
    · exact fun hmem => (List.mem_append.mp hmem).elim
        (fun hm => hbase.path.1 (hB ▸ hpath hm)) hlink.path.1
    · exact fun hmem => (List.mem_append.mp hmem).elim
        (fun hm => hbase.path.2 (hB ▸ hpath hm)) hlink.path.2
    · exact hB ▸ h.scheme
    · rw [ha]
      rfl

theorem rest_absolute {scheme authority : List Char}
    (hscheme : (Uri.parse upstream.toList).scheme = some scheme)
    (hauthority : (Uri.parse upstream.toList).authority = some authority) :
    rest upstream = (Uri.parse upstream.toList).tail ↔ (Uri.parse upstream.toList).path ≠ [] := by
  have hprint := Uri.print_parse upstream.toList
  have hlink := Uri.wellFormed_parse upstream.toList
  unfold rest
  generalize Uri.parse upstream.toList = link at *
  have horigin : upstream.toList = scheme ++ ("://".toList ++ (authority ++ link.tail)) := by
    rw [← hprint, Uri.print, Uri.origin, hscheme, hauthority]
    simp [Uri.schemePart, Uri.led]
  have hafter : afterFirst "://".toList upstream.toList = some (authority ++ link.tail) := by
    rw [horigin]
    exact afterFirst_append (fun hmem => ((hlink.scheme scheme hscheme).2 _ hmem).1 rfl)
      ['/', '/'] _
  have hslash : '/' ∉ authority := fun hmem => (hlink.authority authority hauthority _ hmem).1 rfl
  rw [hafter, Option.bind_some]
  cases hpath : link.path with
  | cons c path =>
    obtain rfl : c = '/' := by simpa [hauthority, hpath] using hlink.rooted
    rw [Uri.tail, hpath, List.cons_append, fromFirst_append hslash]
    simp
  | nil =>
    refine iff_of_false (fun heq => ?_) (by simp)
    cases hfrom : fromFirst '/' (authority ++ link.tail) with
    | none =>
      rw [hfrom, Option.getD_none, horigin] at heq
      have hlength := congrArg List.length heq
      simp only [List.length_append] at hlength
      have : "://".toList.length = 3 := rfl
      omega
    | some t =>
      obtain ⟨before, -, hhead⟩ := fromFirst_eq_some hfrom
      rw [hfrom, Option.getD_some] at heq
      rw [heq, Uri.tail, hpath] at hhead
      cases hquery : link.query <;> cases hfragment : link.fragment <;>
        simp [hquery, hfragment, Uri.led] at hhead

theorem rest_reference (hscheme : (Uri.parse upstream.toList).scheme = none) :
    rest upstream = (Uri.parse upstream.toList).tail ↔
      (Uri.parse upstream.toList).authority = none ∧ ¬ SlashAfterScheme upstream.toList := by
  have hprint := Uri.print_parse upstream.toList
  have hlink := Uri.wellFormed_parse upstream.toList
  rw [← bind_fromFirst_eq_none]
  unfold rest
  generalize Uri.parse upstream.toList = link at *
  have horigin : link.origin = Uri.led ['/', '/'] link.authority := by
    rw [Uri.origin, hscheme]
    rfl
  rw [Uri.print, horigin] at hprint
  cases hcut : (afterFirst "://".toList upstream.toList).bind (fromFirst '/') with
  | none =>
    rw [Option.getD_none, ← hprint, List.append_left_eq_self]
    cases link.authority <;> simp [Uri.led]
  | some t =>
    refine iff_of_false (fun heq => ?_) (by simp)
    rw [Option.getD_some] at heq
    subst heq
    obtain ⟨x, hafter, hfrom⟩ := Option.bind_eq_some_iff.mp hcut
    obtain ⟨before, hbefore⟩ := afterFirst_eq_some (by decide) hafter
    obtain ⟨between, hbetween, -⟩ := fromFirst_eq_some hfrom
    rw [← hprint, hbetween, ← List.append_assoc, ← List.append_assoc,
      List.append_cancel_right_eq] at hbefore
    cases hauthority : link.authority with
    | none => simp [hauthority, Uri.led] at hbefore
    | some a =>
      have hslash : a.count '/' = 0 :=
        List.count_eq_zero.mpr fun hmem => (hlink.authority a hauthority _ hmem).1 rfl
      -- both slashes stand at the start, and the colon before them
      have hcount := congrArg (List.count '/') hbefore
      rw [hauthority] at hbefore
      simp only [hauthority, Uri.led, List.count_append, hslash] at hcount
      have htwo : List.count '/' ['/', '/'] = 2 ∧ "://".toList.count '/' = 2 := by decide
      cases before with
      | nil => cases hbefore
      | cons c before =>
        obtain rfl : '/' = c := (List.cons.inj hbefore).1
        have hone : 1 ≤ List.count '/' ('/' :: before) :=
          List.one_le_count_iff.mpr (List.mem_cons_self ..)
        omega

/-- `rewrite_url` keeps the parts of exactly the links that are rewritable. -/
theorem rewrite_url_iff {base upstream : String} (hbase : FrontendBase base)
    (hlink : UpstreamLink upstream) : KeepsParts base upstream ↔ Rewritable base upstream := by
  rw [keepsParts_iff_rest hbase hlink.nonempty]
  have hrooted : ∀ path : List Char, path = [] ∨ path.head? = some '/' →
      basePath base ++ path = [] ∨ (basePath base ++ path).head? = some '/' := by
    intro path hpath
    rcases basePath_rooted hbase with hnil | hhead
    · rwa [hnil, List.nil_append]
    · exact .inr (by rw [List.head?_append, hhead, Option.some_or])
  unfold Rewritable
  dsimp only
  split
  · next hscheme =>
    have hauthority := hlink.form hscheme
    obtain ⟨scheme, hs⟩ := Option.isSome_iff_exists.mp hscheme
    obtain ⟨authority, ha⟩ := Option.isSome_iff_exists.mp hauthority
    rw [rest_absolute hs ha]
    exact and_iff_left (hrooted _ ((Uri.wellFormed_parse _).rooted hauthority))
  · next hscheme =>
    rw [rest_reference (by simpa using hscheme), and_assoc]
    refine and_congr_right fun _ => and_congr_right fun _ => ⟨fun h => ?_, fun h => ?_⟩
    · by_cases hnil : basePath base = []
      · rw [hnil, List.nil_append] at h
        exact h.imp_right .inl
      · exact .inr (.inr hnil)
    · rcases h with h | h | h
      · exact hrooted _ (.inl h)
      · exact hrooted _ (.inr h)
      · rw [List.head?_append, (basePath_rooted hbase).resolve_left h, Option.some_or]
        exact .inr rfl

theorem rewrite_url_verify :
    KeepsParts "https://app.gridtokenx.test/" "http://localhost:4001/verify-email?token=abc" :=
  (rewrite_url_iff ⟨by decide, ⟨_, rfl, by decide⟩, by decide, by decide⟩
    ⟨by decide, by decide⟩).mpr (by decide)

/-- A link without a path is appended to the base whole. -/
theorem rewrite_url_pathless : ¬ ∀ base upstream, FrontendBase base → UpstreamLink upstream →
    KeepsParts base upstream := by
  intro h
  have hkeeps := h "https://app.gridtokenx.test/" "http://localhost:4001?token=abc"
    ⟨by decide, ⟨_, rfl, by decide⟩, by decide, by decide⟩ ⟨by decide, by decide⟩
  have hresult : rewriteUrl (some "https://app.gridtokenx.test/")
    "http://localhost:4001?token=abc" =
      "https://app.gridtokenx.testhttp://localhost:4001?token=abc" := by decide
  rw [KeepsParts, hresult] at hkeeps
  exact absurd (congrArg Uri.authority hkeeps) (by decide)

end Parts

end NotiService.Url
