import NotiService.Foundation.Text

/-! References to resources by their components, as RFC 3986 splits them: the first `#` starts
the fragment and the first `?` before it the query, a name before `:` is the scheme, and `//`
starts an authority that ends at the next `/`. -/

namespace NotiService.Foundation
open Text

structure Uri where
  scheme : Option (List Char)
  authority : Option (List Char)
  path : List Char
  query : Option (List Char)
  fragment : Option (List Char)
deriving DecidableEq

namespace Uri

/-- What stands before the first `sep`, and what follows it if there is one. -/
def cut (sep : Char) (s : List Char) : List Char × Option (List Char) :=
  match splitOnce sep s with
  | some (a, b) => (a, some b)
  | none => (s, none)

def schemeChar (c : Char) : Bool := c ≠ ':' ∧ c ≠ '/'

def cutScheme (s : List Char) : Option (List Char) × List Char :=
  match s.dropWhile schemeChar with
  | ':' :: rest =>
    if s.takeWhile schemeChar = [] then (none, s) else (some (s.takeWhile schemeChar), rest)
  | _ => (none, s)

def cutAuthority : List Char → Option (List Char) × List Char
  | '/' :: '/' :: s => (some (s.takeWhile (· ≠ '/')), s.dropWhile (· ≠ '/'))
  | s => (none, s)

def parse (s : List Char) : Uri :=
  let (s, fragment) := cut '#' s
  let (s, query) := cut '?' s
  let (scheme, s) := cutScheme s
  let (authority, path) := cutAuthority s
  ⟨scheme, authority, path, query, fragment⟩

def led (sep : List Char) : Option (List Char) → List Char
  | some s => sep ++ s
  | none => []

def schemePart : Option (List Char) → List Char
  | some s => s ++ [':']
  | none => []

def origin (u : Uri) : List Char := schemePart u.scheme ++ led ['/', '/'] u.authority

def tail (u : Uri) : List Char := u.path ++ (led ['?'] u.query ++ led ['#'] u.fragment)

def print (u : Uri) : List Char := u.origin ++ u.tail

/-- No component holds a character that would end it. -/
structure WellFormed (u : Uri) : Prop where
  scheme : ∀ s, u.scheme = some s → s ≠ [] ∧ ∀ c ∈ s, c ≠ ':' ∧ c ≠ '/' ∧ c ≠ '?' ∧ c ≠ '#'
  authority : ∀ a, u.authority = some a → ∀ c ∈ a, c ≠ '/' ∧ c ≠ '?' ∧ c ≠ '#'
  path : '?' ∉ u.path ∧ '#' ∉ u.path
  rooted : u.authority.isSome → u.path = [] ∨ u.path.head? = some '/'
  query : ∀ q, u.query = some q → '#' ∉ q

section Cuts

variable {sep : Char} {s a b : List Char} {o : Option (List Char)}

theorem cut_eq (h : cut sep s = (a, o)) : s = a ++ led [sep] o ∧ sep ∉ a := by
  unfold cut at h
  split at h
  · next a' b' hsplit =>
    cases h
    obtain ⟨rfl, ha⟩ := splitOnce_eq_some.mp hsplit
    exact ⟨rfl, ha⟩
  · next hsplit =>
    cases h
    exact ⟨(List.append_nil s).symm, splitOnce_eq_none.mp hsplit⟩

theorem cut_append (ha : sep ∉ a) (o : Option (List Char)) : cut sep (a ++ led [sep] o) =
    (a, o) := by
  unfold cut
  cases o with
  | none => rw [led, List.append_nil, splitOnce_eq_none.mpr ha]
  | some b =>
    show (match splitOnce sep (a ++ sep :: b) with | some (a, b) => (a, some b) | none => _) = _
    rw [splitOnce_append ha]

theorem schemeChar_iff {c : Char} : schemeChar c ↔ c ≠ ':' ∧ c ≠ '/' := by simp [schemeChar]

theorem cutScheme_eq (h : cutScheme s = (o, b)) : s = schemePart o ++ b ∧
    ∀ a, o = some a → a ≠ [] ∧ ∀ c ∈ a, c ≠ ':' ∧ c ≠ '/' := by
  have whole : (none, s) = (o, b) → s = schemePart o ++ b ∧
      ∀ a, o = some a → a ≠ [] ∧ ∀ c ∈ a, c ≠ ':' ∧ c ≠ '/' := by
    intro h
    cases h
    exact ⟨rfl, nofun⟩
  unfold cutScheme at h
  split at h
  · next rest hdrop =>
    split at h
    · exact whole h
    · next hne =>
      cases h
      refine ⟨?_, ?_⟩
      · have happend := List.takeWhile_append_dropWhile (p := schemeChar) (l := s)
        rw [hdrop] at happend
        rw [schemePart, List.append_assoc]
        exact happend.symm
      · rintro a heq
        cases heq
        exact ⟨hne, fun c hc => schemeChar_iff.mp (List.mem_takeWhile_imp hc)⟩
  · exact whole h

theorem cutScheme_append {scheme : List Char} (hne : scheme ≠ [])
    (hscheme : ∀ c ∈ scheme, c ≠ ':' ∧ c ≠ '/') (rest : List Char) :
    cutScheme (scheme ++ ':' :: rest) = (some scheme, rest) := by
  have hall : ∀ c ∈ scheme, schemeChar c := fun c hc => schemeChar_iff.mpr (hscheme c hc)
  have htake : (scheme ++ ':' :: rest).takeWhile schemeChar = scheme := by
    rw [List.takeWhile_append_of_pos hall, List.takeWhile_cons_of_neg (by decide), List.append_nil]
  have hdrop : (scheme ++ ':' :: rest).dropWhile schemeChar = ':' :: rest := by
    rw [List.dropWhile_append_of_pos hall, List.dropWhile_cons_of_neg (by decide)]
  rw [cutScheme, hdrop, htake]
  exact if_neg hne

theorem cutAuthority_eq (h : cutAuthority s = (o, b)) : s = led ['/', '/'] o ++ b ∧
    (∀ a, o = some a → '/' ∉ a) ∧ (o.isSome → b = [] ∨ b.head? = some '/') := by
  unfold cutAuthority at h
  split at h
  · next s =>
    cases h
    refine ⟨?_, ?_, fun _ => ?_⟩
    · show _ = '/' :: '/' :: (s.takeWhile _ ++ s.dropWhile _)
      rw [List.takeWhile_append_dropWhile]
    · rintro a heq hmem
      cases heq
      simpa using List.mem_takeWhile_imp hmem
    · cases hdrop : s.dropWhile (· ≠ '/') with
      | nil => exact .inl rfl
      | cons c rest =>
        have hc := List.head?_dropWhile_not (· ≠ '/') s
        rw [hdrop] at hc
        right
        simpa using hc
  · cases h
    exact ⟨rfl, nofun, nofun⟩

theorem cutAuthority_append {authority path : List Char} (ha : '/' ∉ authority)
    (hpath : path = [] ∨ path.head? = some '/') :
    cutAuthority ('/' :: '/' :: (authority ++ path)) = (some authority, path) := by
  have hall : ∀ c ∈ authority, decide (c ≠ '/') = true :=
    fun c hc => decide_eq_true (fun heq => ha (heq ▸ hc))
  have hpath' : path.takeWhile (· ≠ '/') = [] ∧ path.dropWhile (· ≠ '/') = path := by
    cases path with
    | nil => exact ⟨rfl, rfl⟩
    | cons c path =>
      obtain rfl : c = '/' := by simpa using hpath
      exact ⟨rfl, rfl⟩
  show (some ((authority ++ path).takeWhile _), (authority ++ path).dropWhile _) = _
  rw [List.takeWhile_append_of_pos hall, List.dropWhile_append_of_pos hall, hpath'.1, hpath'.2,
    List.append_nil]

end Cuts

theorem print_parse_wellFormed (s : List Char) : (parse s).print = s ∧ (parse s).WellFormed := by
  rcases hfragment : cut '#' s with ⟨s₁, fragment⟩
  rcases hquery : cut '?' s₁ with ⟨s₂, query⟩
  rcases hscheme : cutScheme s₂ with ⟨scheme, s₃⟩
  rcases hauthority : cutAuthority s₃ with ⟨authority, path⟩
  have hparse : parse s = ⟨scheme, authority, path, query, fragment⟩ := by
    simp only [parse, hfragment, hquery, hscheme, hauthority]
  obtain ⟨rfl, hhash⟩ := cut_eq hfragment
  obtain ⟨rfl, hmark⟩ := cut_eq hquery
  obtain ⟨rfl, hname⟩ := cutScheme_eq hscheme
  obtain ⟨rfl, hslash, hrooted⟩ := cutAuthority_eq hauthority
  rw [hparse]
  have hinside : ∀ c ∈ schemePart scheme ++ (led ['/', '/'] authority ++ path), c ≠ '?' ∧ c ≠ '#' :=
    fun c hc => ⟨fun h => hmark (h ▸ hc), fun h => hhash (List.mem_append_left _ (h ▸ hc))⟩
  refine ⟨?_, fun a ha => ⟨(hname a ha).1, fun c hc => ?_⟩, fun a ha c hc => ?_, ⟨?_, ?_⟩, hrooted,
    fun q hq hmem => ?_⟩
  · simp only [print, origin, tail, List.append_assoc]
  · obtain ⟨hcolon, hc'⟩ := (hname a ha).2 c hc
    obtain rfl : scheme = some a := ha
    exact ⟨hcolon, hc', hinside c (List.mem_append_left _ (List.mem_append_left _ hc))⟩
  · obtain rfl : authority = some a := ha
    refine ⟨fun h => hslash a rfl (h ▸ hc), hinside c
      (List.mem_append_right _ (List.mem_append_left _ ?_))⟩
    exact List.mem_append_right _ hc
  · exact fun h => (hinside _ (List.mem_append_right _ (List.mem_append_right _ h))).1 rfl
  · exact fun h => (hinside _ (List.mem_append_right _ (List.mem_append_right _ h))).2 rfl
  · obtain rfl : query = some q := hq
    exact hhash (List.mem_append_right _ (List.mem_append_right _ hmem))

theorem query_parse {before query : List Char} (hmark : '?' ∉ before)
    (hhash : '#' ∉ before ++ '?' :: query) :
    (parse (before ++ '?' :: query)).query = some query := by
  have hfragment : cut '#' (before ++ '?' :: query) = (before ++ '?' :: query, none) := by
    have hcut := cut_append hhash none
    rwa [led, List.append_nil] at hcut
  have hquery : cut '?' (before ++ '?' :: query) = (before, some query) :=
    cut_append hmark (some query)
  rw [parse, hfragment]
  dsimp only
  rw [hquery]

theorem print_parse (s : List Char) : (parse s).print = s := (print_parse_wellFormed s).1

theorem wellFormed_parse (s : List Char) : (parse s).WellFormed := (print_parse_wellFormed s).2

theorem parse_print {u : Uri} (h : u.WellFormed) (hscheme : u.scheme.isSome)
    (hauthority : u.authority.isSome) : parse u.print = u := by
  obtain ⟨_ | scheme, _ | authority, path, query, fragment⟩ := u
  · cases hscheme
  · cases hscheme
  · cases hauthority
  obtain ⟨hname, hchars⟩ := h.scheme scheme rfl
  have ha := h.authority authority rfl
  have hinside : ∀ c ∈ scheme ++ ':' :: '/' :: '/' :: (authority ++ path), c ≠ '?' ∧ c ≠ '#' := by
    intro c hc
    simp only [List.mem_append, List.mem_cons] at hc
    rcases hc with hc | rfl | rfl | rfl | hc | hc
    · exact (hchars c hc).2.2
    · decide
    · decide
    · decide
    · exact (ha c hc).2
    · exact ⟨fun heq => h.path.1 (heq ▸ hc), fun heq => h.path.2 (heq ▸ hc)⟩
  have hprint : print ⟨some scheme, some authority, path, query, fragment⟩ =
      (scheme ++ ':' :: '/' :: '/' :: (authority ++ path)) ++ led ['?'] query ++ led
          ['#'] fragment := by
    simp [print, origin, schemePart, tail, led]
  have hhash : '#' ∉ (scheme ++ ':' :: '/' :: '/' :: (authority ++ path)) ++ led ['?'] query := by
    intro hmem
    rcases List.mem_append.mp hmem with hmem | hmem
    · exact (hinside _ hmem).2 rfl
    · cases query with
      | none => cases hmem
      | some q =>
        rcases List.mem_cons.mp hmem with hmem | hmem
        · cases hmem
        · exact h.query q rfl hmem
  rw [hprint]
  simp only [parse, cut_append hhash, cut_append (fun hmem => (hinside _ hmem).1 rfl),
    cutScheme_append hname (fun c hc => ⟨(hchars c hc).1, (hchars c hc).2.1⟩),
    cutAuthority_append (fun hmem => (ha _ hmem).1 rfl) (h.rooted rfl)]

end Uri

end NotiService.Foundation
