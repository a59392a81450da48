import NotiService.Subject
import NotiService.TextPart

/-! The text parts of the mails that are shipped. A page is read once from its start: scripts,
styles and tags are left out, entities are read, and a value that is printed in text comes out
as it was before it was escaped. One that is printed in an attribute is not shown. -/

namespace NotiService
open Foundation Text

namespace Smtp

/-- Where the reader of a page is: the name of an entity, what may become the name of a hidden
element, a tag, the start tag of a hidden element, its content and what may be its end tag. -/
inductive Scan where
  | text
  | entity (name : List Char)
  | opened (name : List Char)
  | tag
  | element (name : String)
  | body (name : String)
  | closing (name : String) (seen : List Char)
deriving DecidableEq, Repr

/-- The inside of a tag that is not of a hidden element, however it goes on. -/
def Tagged (inside : List Char) : Prop :=
  '<' ∉ inside ∧ '>' ∉ inside ∧
    ∀ name ∈ hiddenNames, ¬ name.toList <+: inside ∧ ¬ inside <+: name.toList

instance : DecidablePred Tagged := fun _ => inferInstanceAs (Decidable (_ ∧ _ ∧ _))

def EntityChar (c : Char) : Prop := c ≠ '&' ∧ c ≠ '<' ∧ c ≠ ';'

instance : DecidablePred EntityChar := fun _ => inferInstanceAs (Decidable (_ ∧ _ ∧ _))

namespace Scan

def step : Scan → Char → Option Scan
  | .text, c => some (if c = '<' then .opened [] else if c = '&' then .entity [] else .text)
  | .entity name, c =>
    if c = ';' then some .text else if EntityChar c then some (.entity (name ++ [c])) else none
  | .opened name, c =>
    if Tagged (name ++ [c]) then some .tag
    else if ∃ hidden ∈ hiddenNames, name ++ [c] = hidden.toList then
      some (.element (String.ofList (name ++ [c])))
    else if ∃ hidden ∈ hiddenNames, name ++ [c] <+: hidden.toList then some (.opened (name ++ [c]))
    else none
  | .tag, c => if c = '>' then some .text else if c = '<' then none else some .tag
  | .element name, c => some (if c = '>' then .body name else .element name)
  | .body name, c => some (if c = '<' then .closing name ['<'] else .body name)
  | .closing name seen, c =>
    if seen ++ [c] = closer name then some .text
    else if seen ++ [c] <+: closer name then some (.closing name (seen ++ [c]))
    else if c = '<' then none else some (.body name)

def emit : Scan → Char → List Char
  | .text, c => if c = '<' ∨ c = '&' then [] else [c]
  | .entity name, c => if c = ';' then readEntity entities name else []
  | _, _ => []

def scan : Scan → List Char → Option Scan
  | st, [] => some st
  | st, c :: s => (st.step c).bind fun st => scan st s

def shown : Scan → List Char → List Char
  | _, [] => []
  | st, c :: s => st.emit c ++ ((st.step c).map fun st => shown st s).getD []

/-- Nothing up to here is the start of `w`, whatever follows. -/
def Away (w s : List Char) : Prop := ∀ t, w <:+: s ++ t → w <:+: t

/-- From here the rest `a` of a page shows `t`, whatever has led here. -/
def Reads : Scan → List Char → List Char → Prop
  | .text, a, t => Shows [] a t
  | .entity name, a, t => (∀ c ∈ name, EntityChar c) → Shows [] ('&' :: (name ++ a)) t
  | .opened name, a, t => Shows [] ('<' :: (name ++ a)) t
  | .tag, a, t => ∀ inside, Tagged inside → Shows [] ('<' :: (inside ++ a)) t
  | .element name, a, t => name ∈ hiddenNames → ∀ attributes, '>' ∉ attributes →
    Shows [] (("<" ++ name).toList ++ (attributes ++ a)) t
  | .body name, a, t => name ∈ hiddenNames → ∀ attributes body, '>' ∉ attributes →
    Away (closer name) body →
    Shows [] (("<" ++ name).toList ++ (attributes ++ '>' :: (body ++ a))) t
  | .closing name seen, a, t => name ∈ hiddenNames → ∀ attributes body, '>' ∉ attributes →
    Away (closer name) body → seen ≠ [] → seen <+: closer name → seen ≠ closer name →
    Shows [] (("<" ++ name).toList ++ (attributes ++ '>' :: (body ++ (seen ++ a)))) t

variable {st st' : Scan} {c : Char} {s t a : List Char}

theorem tagged_append {inside : List Char} (h : Tagged inside) (hs : '<' ∉ s) (hs' : '>' ∉ s) :
    Tagged (inside ++ s) := by
  obtain ⟨hlt, hgt, hnames⟩ := h
  refine ⟨by simp [hlt, hs], by simp [hgt, hs'], fun name hname => ?_⟩
  obtain ⟨hlong, hshort⟩ := hnames name hname
  refine ⟨fun hstarts => ?_, fun hstarts => hshort ((List.prefix_append ..).trans hstarts)⟩
  rcases List.prefix_or_prefix_of_prefix hstarts (List.prefix_append inside s) with h | h
  · exact hlong h
  · exact hshort h

theorem not_hidden_of_tagged {inside : List Char} (h : Tagged inside) {name : String}
    (hname : name ∈ hiddenNames) : ¬ ("<" ++ name).toList <:+: '<' :: inside := by
  obtain ⟨hlt, -, hnames⟩ := h
  rw [String.toList_append, List.infix_cons_iff]
  rintro (hstarts | hinside)
  · exact (hnames name hname).1 (List.cons_prefix_cons.mp hstarts).2
  · exact hlt (hinside.subset (List.mem_cons_self ..))

theorem closer_eq (name : String) : closer name = '<' :: ('/' :: (name.toList ++ ['>'])) := by
  simp [closer]

theorem infix_of_append {d : Char} {w : List Char} (hs : d ∉ s) (h : d :: w <:+: s ++ t) :
    d :: w <:+: t := by
  induction s with
  | nil => exact h
  | cons c s ih =>
    obtain ⟨hc, hs⟩ := not_or.mp (mt List.mem_cons.mpr hs)
    rcases List.infix_cons_iff.mp h with hstarts | hinside
    · exact absurd (List.cons_prefix_cons.mp hstarts).1 hc
    · exact ih hs hinside

theorem away_nil {w : List Char} : Away w [] := fun _ h => h

theorem Away.append {d : Char} {w body : List Char} (h : Away (d :: w) body) (hs : d ∉ s) :
    Away (d :: w) (body ++ s) := by
  intro t hinside
  rw [List.append_assoc] at hinside
  exact infix_of_append hs (h _ hinside)

theorem Away.append_start {d : Char} {w body seen : List Char} (h : Away (d :: w) body)
    (hw : d ∉ w) (hne : seen ≠ []) (hseen : seen <+: d :: w) (hend : seen ≠ d :: w) (hc : c ≠ d)
    (hother : ¬ seen ++ [c] <+: d :: w) : Away (d :: w) (body ++ (seen ++ [c])) := by
  intro t hinside
  rw [List.append_assoc] at hinside
  have hinside := h _ hinside
  cases seen with
  | nil => exact absurd rfl hne
  | cons d' seen =>
    obtain ⟨rfl, hseen'⟩ := List.cons_prefix_cons.mp hseen
    have hplain : d' ∉ seen ++ [c] := by
      rw [List.mem_append, List.mem_singleton, not_or]
      exact ⟨fun hd => hw (hseen'.subset hd), hc.symm⟩
    rcases List.infix_cons_iff.mp hinside with hstarts | hinside
    · rcases List.prefix_or_prefix_of_prefix hstarts
          (List.prefix_append (d' :: seen ++ [c]) t) with hshort | hlong
      · rcases List.prefix_concat_iff.mp hshort with heq | hshort
        · exact absurd (heq ▸ List.prefix_refl _) hother
        · exact absurd (hseen.eq_of_length_le hshort.length_le) hend
      · exact absurd hlong hother
    · exact infix_of_append hplain hinside

theorem Away.not_infix {d : Char} {w body : List Char} (h : Away (d :: w) body) :
    ¬ d :: w <:+: body := by
  intro hinside
  have hnil := h [] (by rwa [List.append_nil])
  cases List.infix_nil.mp hnil

theorem not_mem_closer {name : String} (hname : name ∈ hiddenNames) :
    '<' ∉ '/' :: (name.toList ++ ['>']) := by
  revert name
  decide

theorem reads_entity {name : List Char} (hstep : step (.entity name) c = some st')
    (h : st'.Reads a t) : Reads (.entity name) (c :: a) (emit (.entity name) c ++ t) := by
  simp only [step] at hstep
  split at hstep
  · next hc =>
    subst hc
    obtain rfl := Option.some.inj hstep
    intro hname
    have := Shows.entity hname h
    simpa [Smtp.entity, emit] using this
  · next hsemi =>
    obtain ⟨hc, hstep⟩ := Option.ite_none_right_eq_some.mp hstep
    obtain rfl := Option.some.inj hstep
    intro hname
    have := h (List.forall_mem_append.mpr ⟨hname, List.forall_mem_singleton.mpr hc⟩)
    simpa [emit, hsemi] using this

theorem reads_opened {name : List Char} (hstep : step (.opened name) c = some st')
    (h : st'.Reads a t) : Reads (.opened name) (c :: a) (emit (.opened name) c ++ t) := by
  simp only [step] at hstep
  split at hstep
  · next htagged =>
    obtain rfl := Option.some.inj hstep
    have := h _ htagged
    simpa [Reads, emit] using this
  · split at hstep
    · next hhidden =>
      obtain rfl := Option.some.inj hstep
      obtain ⟨hidden, hmem, heq⟩ := hhidden
      have := h (by rwa [heq, String.ofList_toList]) [] List.not_mem_nil
      simpa [Reads, emit] using this
    · obtain ⟨-, hstep⟩ := Option.ite_none_right_eq_some.mp hstep
      obtain rfl := Option.some.inj hstep
      simpa [Reads, emit] using h

theorem reads_tag (hstep : step .tag c = some st') (h : st'.Reads a t) :
    Reads .tag (c :: a) (emit .tag c ++ t) := by
  simp only [step] at hstep
  split at hstep
  · next hc =>
    subst hc
    obtain rfl := Option.some.inj hstep
    intro inside htagged
    exact .tag htagged.2.1 (fun _ hname hinside =>
      absurd hinside (not_hidden_of_tagged htagged hname)) h
  · next hgt =>
    obtain ⟨hlt, hstep⟩ := Option.ite_none_left_eq_some.mp hstep
    obtain rfl := Option.some.inj hstep
    intro inside htagged
    have := h _ (tagged_append (s := [c]) htagged (by simpa using Ne.symm hlt)
      (by simpa using Ne.symm hgt))
    simpa [emit] using this

theorem reads_body {name : String} (hstep : step (.body name) c = some st') (h : st'.Reads a t) :
    Reads (.body name) (c :: a) (emit (.body name) c ++ t) := by
  obtain rfl := Option.some.inj hstep
  intro hname attributes body hattributes haway
  by_cases hlt : c = '<'
  · subst hlt
    have := h hname attributes body hattributes haway (by simp) (by simp [closer_eq])
      (by simp [closer_eq])
    simpa [emit] using this
  · rw [if_neg hlt] at h
    have hbody : Away (closer name) (body ++ [c]) := by
      rw [closer_eq] at haway ⊢
      exact haway.append (by simpa using Ne.symm hlt)
    have := h hname attributes (body ++ [c]) hattributes hbody
    simpa [emit] using this

theorem reads_closing {name : String} {seen : List Char}
    (hstep : step (.closing name seen) c = some st') (h : st'.Reads a t) :
    Reads (.closing name seen) (c :: a) (emit (.closing name seen) c ++ t) := by
  simp only [step] at hstep
  intro hname attributes body hattributes haway hne hseen hend
  split at hstep
  · next hclosed =>
    obtain rfl := Option.some.inj hstep
    have hplain : ¬ closer name <:+: body := by
      rw [closer_eq] at haway ⊢
      exact haway.not_infix
    have hseen : seen ++ c :: a = closer name ++ a := by simp [← hclosed]
    have := Shows.element hname hattributes hplain h
    rw [hseen]
    exact this
  · next hopen =>
    split at hstep
    · next hstarts =>
      obtain rfl := Option.some.inj hstep
      have := h hname attributes body hattributes haway (by simp) hstarts hopen
      simpa [emit] using this
    · next hother =>
      obtain ⟨hlt, hstep⟩ := Option.ite_none_left_eq_some.mp hstep
      obtain rfl := Option.some.inj hstep
      have hbody : Away (closer name) (body ++ (seen ++ [c])) := by
        rw [closer_eq] at haway hseen hend hother ⊢
        exact haway.append_start (not_mem_closer hname) hne hseen hend hlt hother
      have := h hname attributes (body ++ (seen ++ [c])) hattributes hbody
      simpa [emit] using this

theorem reads_step (hstep : st.step c = some st') (h : st'.Reads a t) :
    st.Reads (c :: a) (st.emit c ++ t) := by
  cases st with
  | text =>
    obtain rfl := Option.some.inj hstep
    by_cases hlt : c = '<'
    · subst hlt
      exact h
    · by_cases hamp : c = '&'
      · subst hamp
        exact h (List.forall_mem_nil _)
      · rw [if_neg hlt, if_neg hamp] at h
        rw [emit, if_neg (not_or.mpr ⟨hlt, hamp⟩)]
        exact .char hlt hamp h
  | entity => exact reads_entity hstep h
  | opened => exact reads_opened hstep h
  | tag => exact reads_tag hstep h
  | element name =>
    obtain rfl := Option.some.inj hstep
    intro hname attributes hattributes
    by_cases hgt : c = '>'
    · subst hgt
      exact h hname attributes [] hattributes away_nil
    · rw [if_neg hgt] at h
      have := h hname (attributes ++ [c]) (by simp [hattributes, Ne.symm hgt])
      simpa [emit] using this
  | body => exact reads_body hstep h
  | closing => exact reads_closing hstep h

theorem scan_cons : scan st (c :: s) = some st' ↔
    ∃ st₁, st.step c = some st₁ ∧ scan st₁ s = some st' :=
  Option.bind_eq_some_iff

theorem reads_scan (hscan : scan st s = some st') (h : st'.Reads a t) :
    st.Reads (s ++ a) (shown st s ++ t) := by
  induction s generalizing st with
  | nil =>
    obtain rfl := Option.some.inj hscan
    exact h
  | cons c s ih =>
    obtain ⟨st₁, hstep, hscan⟩ := scan_cons.mp hscan
    have := reads_step hstep (ih hscan)
    simpa [shown, hstep] using this

/-- A value may be printed here: in text, where it is shown, or in a tag. -/
def holds : Scan → Bool
  | .text | .tag => true
  | _ => false

def pass (st : Scan) (s : List Char) : List Char := if st = .text then s else []

theorem reads_pass {value : List Char} (hholds : st.holds) (hshows : ∀ rest, Shows rest s value)
    (hlt : '<' ∉ s) (hgt : '>' ∉ s) (h : st.Reads a t) :
    st.Reads (s ++ a) (st.pass value ++ t) := by
  cases st with
  | text => exact (hshows _).append h
  | tag =>
    intro inside htagged
    have := h _ (tagged_append htagged hlt hgt)
    simpa [pass] using this
  | _ => cases hholds

end Scan

end Smtp

namespace HtmlTemplates
open Smtp Markup

variable (T : Tera) (vars : Json)

def pieceScan (st : Scan) : Piece → Option Scan
  | .text s => st.scan s.chars
  | .var _ | .orDefault _ _ | .quoted _ => if st.holds then some st else none
  | .given _ before after otherwise => (st.scan before.chars).bind fun st₁ =>
    if st₁.holds ∧ st₁.scan after.chars = st.scan otherwise.chars then st.scan otherwise.chars
    else none

def scanPieces : Scan → List Piece → Option Scan
  | st, [] => some st
  | st, piece :: pieces => (pieceScan st piece).bind fun st => scanPieces st pieces

def value (name : String) : List Char := ((vars.get name).map fun v => (T.display v).toList).getD []

def pieceText (st : Scan) : Piece → List Char
  | .text s => st.shown s.chars
  | .var name => st.pass (value T vars name)
  | .orDefault name otherwise =>
    st.pass (((vars.getNonNull name).map fun v => (T.display v).toList).getD otherwise.toList)
  | .quoted s => st.pass s.chars
  | .given name before after otherwise =>
    if truth T vars name then
      let st₁ := (st.scan before.chars).getD .text
      st.shown before.chars ++ (st₁.pass (value T vars name) ++ st₁.shown after.chars)
    else st.shown otherwise.chars

def textOf : Scan → List Piece → List Char
  | _, [] => []
  | st, piece :: pieces => pieceText T vars st piece ++
    ((pieceScan st piece).map fun st => textOf st pieces).getD []

/-- What is not a string is shown without the characters of markup, as numbers are. -/
def Legible : Prop := ∀ name v, vars.get name = some v →
  v.asStr.isSome ∨ ∀ c ∈ (T.display v).toList, c ≠ '&' ∧ c ≠ '<' ∧ c ≠ '>'

variable {T vars} {st st' : Scan} {piece : Piece} {pieces : List Piece} {out : String}
  {a t : List Char}

theorem shows_plain {rest s : List Char} (h : ∀ c ∈ s, c ≠ '&' ∧ c ≠ '<') : Shows rest s s := by
  induction s with
  | nil => exact .nil
  | cons c s ih =>
    obtain ⟨hc, hs⟩ := List.forall_mem_cons.mp h
    exact .char hc.2 hc.1 (ih hs)

theorem shows_shown (hlegible : Legible T vars) {name : String} {v : Json}
    (hv : vars.get name = some v) :
    (∀ rest, Shows rest (HtmlTemplates.shown T v).toList (T.display v).toList) ∧
      '<' ∉ (HtmlTemplates.shown T v).toList ∧ '>' ∉ (HtmlTemplates.shown T v).toList := by
  have escaped : ∀ rest, Shows rest (escapeHtml (T.display v)).toList (T.display v).toList :=
    fun _ => shows_escapeHtml _
  rcases hlegible name v hv with hstr | hplain
  · cases v with
    | str s => exact ⟨escaped, escaped_not_markup _⟩
    | _ => cases hstr
  · have plain : (∀ rest, Shows rest (T.display v).toList (T.display v).toList) ∧
        '<' ∉ (T.display v).toList ∧ '>' ∉ (T.display v).toList :=
      ⟨fun _ => shows_plain fun c hc => ⟨(hplain c hc).1, (hplain c hc).2.1⟩,
        fun hlt => (hplain _ hlt).2.1 rfl, fun hgt => (hplain _ hgt).2.2 rfl⟩
    cases v with
    | str s => exact ⟨escaped, escaped_not_markup _⟩
    | _ => exact plain

theorem reads_quoted {s : String} (hst : (if st.holds then some st else none) = some st')
    (h : st'.Reads a t) : st.Reads ((escapeHtml s).toList ++ a) (st.pass s.toList ++ t) := by
  obtain ⟨hholds, hst⟩ := Option.ite_none_right_eq_some.mp hst
  obtain rfl := Option.some.inj hst
  obtain ⟨hlt, hgt⟩ := escaped_not_markup s
  exact Scan.reads_pass hholds (fun _ => shows_escapeHtml s) hlt hgt h

theorem reads_value (hlegible : Legible T vars) {name : String} {v : Json}
    (hv : vars.get name = some v) (hholds : st.holds) (h : st.Reads a t) :
    st.Reads ((HtmlTemplates.shown T v).toList ++ a) (st.pass (T.display v).toList ++ t) := by
  obtain ⟨hshows, hlt, hgt⟩ := shows_shown hlegible hv
  exact Scan.reads_pass hholds hshows hlt hgt h

theorem reads_piece (hlegible : Legible T vars) (hst : pieceScan st piece = some st')
    (hout : printPiece T vars piece = some out) (h : st'.Reads a t) :
    st.Reads (out.toList ++ a) (pieceText T vars st piece ++ t) := by
  cases piece with
  | text s =>
    cases hout
    rw [Markup.Literal.toList_text]
    exact Scan.reads_scan hst h
  | var name =>
    obtain ⟨v, hv, rfl⟩ := Option.map_eq_some_iff.mp hout
    obtain ⟨hholds, hst⟩ := Option.ite_none_right_eq_some.mp hst
    obtain rfl := Option.some.inj hst
    simpa [pieceText, value, hv] using reads_value hlegible hv hholds h
  | orDefault name otherwise =>
    cases hout
    cases hv : vars.getNonNull name with
    | none => simpa [pieceText, hv] using reads_quoted hst h
    | some v =>
      obtain ⟨hholds, hst⟩ := Option.ite_none_right_eq_some.mp hst
      obtain rfl := Option.some.inj hst
      simpa [pieceText, hv] using reads_value hlegible (Json.get_of_getNonNull hv) hholds h
  | quoted s =>
    cases hout
    simpa [pieceText] using reads_quoted (s := s.text) hst h
  | given name before after otherwise =>
    obtain ⟨st₁, hbefore, hst⟩ := Option.bind_eq_some_iff.mp hst
    obtain ⟨⟨hholds, hafter⟩, hst⟩ := Option.ite_none_right_eq_some.mp hst
    have hother : st.Reads (otherwise.text.toList ++ a) (st.shown otherwise.chars ++ t) := by
      rw [Markup.Literal.toList_text]
      exact Scan.reads_scan hst h
    simp only [printPiece] at hout
    cases hv : vars.get name with
    | none =>
      rw [hv] at hout
      cases hout
      simpa [pieceText, truth, hv] using hother
    | some v =>
      rw [hv] at hout
      cases htruthy : T.truthy v with
      | false =>
        simp only [htruthy, Bool.false_eq_true, if_false, Option.some.injEq] at hout
        subst hout
        simpa [pieceText, truth, hv, htruthy] using hother
      | true =>
        simp only [htruthy, if_true, Option.some.injEq] at hout
        subst hout
        have hrest := reads_value hlegible hv hholds
          (Scan.reads_scan (hafter.trans hst) h)
        have := Scan.reads_scan hbefore hrest
        simpa [pieceText, truth, value, hv, htruthy, hbefore] using this

theorem reads_pieces (hlegible : Legible T vars) (hst : scanPieces st pieces = some st')
    (hout : print T vars pieces = some out) (h : st'.Reads a t) :
    st.Reads (out.toList ++ a) (textOf T vars st pieces ++ t) := by
  induction pieces generalizing st out with
  | nil =>
    obtain rfl := Option.some.inj hst
    cases hout
    exact h
  | cons piece pieces ih =>
    obtain ⟨st₁, hpiece, hst⟩ := Option.bind_eq_some_iff.mp hst
    obtain ⟨s, rest, hs, hrest, rfl⟩ := print_cons.mp hout
    have := reads_piece hlegible hpiece hs (ih hst hrest)
    simpa [textOf, hpiece] using this

/-- Every page that is shipped ends in text, and a value stands in text or in a tag. -/
theorem scanPieces_pages : ∀ p ∈ pages, scanPieces .text p.2 = some .text := by decide +kernel

theorem htmlToText_print (hlegible : Legible T vars) (hst : scanPieces .text pieces = some .text)
    (hout : print T vars pieces = some out) :
    htmlToText out.toList = cleanUp (textOf T vars .text pieces) := by
  have hshows : Shows [] (out.toList ++ []) (textOf T vars .text pieces ++ []) :=
    reads_pieces hlegible hst hout (show Shows [] [] [] from .nil)
  rw [List.append_nil, List.append_nil] at hshows
  exact htmlToText_of_shows hshows

end HtmlTemplates

theorem Smtp.body_of_email {env : SmtpEnv} {recipient content : String} {mail : Mail}
    (h : email env recipient content = .ok mail) : mail.body =
      if looksLikeHtml content.toList then
        .alternative (String.ofList (htmlToText content.toList)) content
      else .plain content := by
  simp only [email, bind, Except.bind] at h
  split at h
  · cases h
  · split at h
    · cases h
    · split at h
      · cases h
      · cases h
        rfl

open HtmlTemplates Smtp

theorem looksLikeHtml_of_framed {pieces : List Piece} {T : Tera} {vars : Json} {out : String}
    (hframed : framed pieces) (hout : print T vars pieces = some out) :
    looksLikeHtml out.toList := by
  obtain ⟨inner, rfl⟩ := of_framed hframed hout
  have hstart : ("<!DOCTYPE html>\n" ++ "<html" ++ inner ++ "</html>" ++ "\n").toList =
      "<!DOCTYPE".toList ++ (" html>\n<html".toList ++ inner.toList ++ "</html>\n".toList) := by
    simp
  rw [hstart]
  exact looksLikeHtml_of_doctype _

/-- A page goes out with its text beside it: the text of the template, with entities read, and
the values that are printed in text, as they were before they were escaped. -/
theorem mail_text_part (T : Tera) {id : String} (hid : id ∈ Templates.pages) {vars : Json}
    {now : Int} {page : String} (hlegible : Legible T vars)
    (hrender : T.shipped.render id vars now = some page) {env : SmtpEnv} {recipient : String}
    {mail : Mail} (hmail : email env recipient page = .ok mail) :
    ∃ p, pages.find? (fun p => p.1 = id) = some p ∧
      mail.body = .alternative (String.ofList (cleanUp (textOf T vars .text p.2))) page := by
  obtain ⟨p, hp, hprint⟩ := Tera.render_shipped hid hrender
  have hmem := List.mem_of_find?_eq_some hp
  refine ⟨p, hp, ?_⟩
  rw [body_of_email hmail, if_pos (looksLikeHtml_of_framed (framed_pages p hmem) hprint),
    htmlToText_print hlegible (scanPieces_pages p hmem) hprint]

theorem mail_text_part_welcome : ∃ p page mail,
    pages.find? (fun p => p.1 = "welcome.html.tera") = some p ∧
    Tera.sample.shipped.render "welcome.html.tera" (.obj [("name", .str "<b>Bob & Co</b>")]) 0 =
      some page ∧
    email okEnv "bob@x.test" page = .ok mail ∧
    mail.body = .alternative (String.ofList (cleanUp (textOf Tera.sample
      (.obj [("name", .str "<b>Bob & Co</b>")]) .text p.2))) page := by
  have hlegible : Legible Tera.sample (.obj [("name", .str "<b>Bob & Co</b>")]) := by
    intro key v hv
    left
    simp only [Json.get, Json.lookup, List.find?_singleton] at hv
    split at hv <;> cases hv
    rfl
  have hrequired : Templates.required "welcome.html.tera" = some [] := by decide +kernel
  have hrenders : (Tera.sample.shipped.render "welcome.html.tera"
      (.obj [("name", .str "<b>Bob & Co</b>")]) 0).isSome :=
    Tera.render_isSome_iff.mpr ⟨[], hrequired, List.forall_mem_nil _⟩
  obtain ⟨page, hpage⟩ := Option.isSome_iff_exists.mp hrenders
  obtain ⟨mail, hmail⟩ : ∃ mail, email okEnv "bob@x.test" page = .ok mail := ⟨_, rfl⟩
  obtain ⟨p, hp, hbody⟩ := mail_text_part Tera.sample (by decide) hlegible hpage hmail
  exact ⟨p, page, mail, hp, hpage, hmail, hbody⟩

end NotiService
