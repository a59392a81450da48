import NotiService.HtmlTemplates

/-! What the HTML templates render to. Their variables stand in text and in quoted attribute
values, and what is printed there is escaped, so that no variable adds to the markup of a
page or takes from it. -/

namespace NotiService
open Foundation Markup

namespace HtmlTemplates

variable (T : Tera) (vars : Json)

/-- Only strings are escaped. -/
def shown (v : Json) : String :=
  match v with
  | .str _ => escapeHtml (T.display v)
  | _ => T.display v

def printPiece : Piece → Option String
  | .text s => some s.text
  | .var name => (vars.get name).map (shown T)
  | .orDefault name value =>
    some (((vars.getNonNull name).map (shown T)).getD (escapeHtml value))
  | .quoted s => some (escapeHtml s.text)
  | .given name before after otherwise =>
    match vars.get name with
    | some v => some (if T.truthy v then before.text ++ shown T v ++ after.text else otherwise.text)
    | none => some otherwise.text

def print : List Piece → Option String
  | [] => some ""
  | piece :: pieces => (printPiece T vars piece).bind fun s =>
    (print pieces).map fun rest => s ++ rest

/-- `_components.html.tera` prints what stands between its macros. -/
def render (id : String) : Option String :=
  if id = "_components.html.tera" then some "\n\n\n\n\n\n\n\n\n\n"
  else ((pages.find? fun p => p.1 = id).map Prod.snd).bind (print T vars)

def pieceContext (ctx : Context) : Piece → Option Context
  | .text s => some (run ctx s.chars)
  | .var _ | .orDefault _ _ | .quoted _ => if ctx.holds then some ctx else none
  | .given _ before after otherwise =>
    if (run ctx before.chars).holds ∧
        run (run ctx before.chars) after.chars = run ctx otherwise.chars then
      some (run ctx otherwise.chars)
    else none

def context : Context → List Piece → Option Context
  | ctx, [] => some ctx
  | ctx, piece :: pieces => (pieceContext ctx piece).bind fun ctx => ctx.force fun ctx =>
    context ctx pieces

def pieceOutline (holds : String → Bool) (ctx : Context) : Piece → List Char
  | .text s => markup ctx s.chars
  | .var _ | .orDefault _ _ | .quoted _ => []
  | .given name before after otherwise =>
    if holds name then
      markup ctx before.chars ++ markup (run ctx before.chars) after.chars
    else markup ctx otherwise.chars

def outline (holds : String → Bool) : Context → List Piece → List Char
  | _, [] => []
  | ctx, piece :: pieces => pieceOutline holds ctx piece ++
    ((pieceContext ctx piece).map fun ctx => outline holds ctx pieces).getD []

def truth (name : String) : Bool := (vars.get name).any T.truthy

/-- What is not a string is shown without the characters of markup, as numbers are. -/
def Plain : Prop := ∀ name v, vars.get name = some v →
  v.asStr.isSome ∨ ∀ c ∈ (T.display v).toList, Inert c

variable {T vars} {ctx ctx' : Context} {pieces : List Piece} {piece : Piece} {out : String}

theorem inert_shown (hplain : Plain T vars) {name : String} {v : Json}
    (hv : vars.get name = some v) : ∀ c ∈ (shown T v).toList, Inert c := by
  rcases hplain name v hv with hstr | hinert
  · cases v with
    | str s => exact inert_escapeHtml _
    | _ => cases hstr
  · cases v with
    | str s => exact inert_escapeHtml _
    | _ => exact hinert

theorem print_cons : print T vars (piece :: pieces) = some out ↔
    ∃ s rest, printPiece T vars piece = some s ∧ print T vars pieces = some rest ∧
      out = s ++ rest := by
  simp only [print, Option.bind_eq_some_iff, Option.map_eq_some_iff]
  constructor
  · rintro ⟨s, hs, rest, hrest, rfl⟩
    exact ⟨s, rest, hs, hrest, rfl⟩
  · rintro ⟨s, rest, hs, hrest, rfl⟩
    exact ⟨s, hs, rest, hrest, rfl⟩

theorem context_cons : context ctx (piece :: pieces) = some ctx' ↔
    ∃ ctx₁, pieceContext ctx piece = some ctx₁ ∧ context ctx₁ pieces = some ctx' := by
  simp only [context, Context.force_eq, Option.bind_eq_some_iff]

theorem content_markup {s : String} (hctx : (if ctx.holds then some ctx else none) = some ctx')
    (hs : ∀ c ∈ s.toList, Inert c) : run ctx s.toList = ctx' ∧ markup ctx s.toList = [] := by
  obtain ⟨hholds, hctx⟩ := Option.ite_none_right_eq_some.mp hctx
  obtain rfl := Option.some.inj hctx
  exact ⟨run_inert hholds hs, markup_inert hholds hs⟩

theorem given_markup {name : String} {before after otherwise : Literal} (hplain : Plain T vars)
    (hctx : pieceContext ctx (.given name before after otherwise) = some ctx')
    (hout : printPiece T vars (.given name before after otherwise) = some out) :
    run ctx out.toList = ctx' ∧
      markup ctx out.toList =
        pieceOutline (truth T vars) ctx (.given name before after otherwise) := by
  obtain ⟨⟨hholds, hsame⟩, hctx⟩ := Option.ite_none_right_eq_some.mp hctx
  obtain rfl := Option.some.inj hctx
  simp only [printPiece] at hout
  simp only [pieceOutline]
  cases hv : vars.get name with
  | none =>
    have htruth : truth T vars name = false := by rw [truth, hv]; rfl
    rw [hv] at hout
    cases hout
    simp [htruth]
  | some v =>
    have htruth : truth T vars name = T.truthy v := by rw [truth, hv]; rfl
    rw [hv] at hout
    cases htruthy : T.truthy v with
    | false =>
      simp only [htruthy, Bool.false_eq_true, if_false, Option.some.injEq] at hout
      subst hout
      simp [htruth, htruthy]
    | true =>
      have hinert := inert_shown hplain hv
      simp only [htruthy, if_true, Option.some.injEq] at hout
      subst hout
      simp only [String.toList_append, Literal.toList_text, run_append, markup_append,
        run_inert hholds hinert, markup_inert hholds hinert, List.append_nil, htruth, htruthy,
        if_true]
      exact ⟨hsame, trivial⟩

theorem printPiece_markup (hplain : Plain T vars) (hctx : pieceContext ctx piece = some ctx')
    (hout : printPiece T vars piece = some out) : run ctx out.toList = ctx' ∧
      markup ctx out.toList = pieceOutline (truth T vars) ctx piece := by
  cases piece with
  | text s =>
    cases hctx
    cases hout
    rw [Literal.toList_text]
    exact ⟨rfl, rfl⟩
  | var name =>
    obtain ⟨v, hv, rfl⟩ := Option.map_eq_some_iff.mp hout
    exact content_markup hctx (inert_shown hplain hv)
  | orDefault name value =>
    cases hout
    refine content_markup hctx ?_
    cases hv : vars.getNonNull name with
    | none => exact inert_escapeHtml value
    | some v => exact inert_shown hplain (Json.get_of_getNonNull hv)
  | quoted s =>
    cases hout
    exact content_markup hctx (inert_escapeHtml s.text)
  | given name before after otherwise => exact given_markup hplain hctx hout

/-- The markup of what is printed is told by the template and the variables that `if` takes. -/
theorem print_markup (hplain : Plain T vars) (hctx : context ctx pieces = some ctx')
    (hout : print T vars pieces = some out) :
    markup ctx out.toList = outline (truth T vars) ctx pieces := by
  induction pieces generalizing ctx out with
  | nil =>
    cases hout
    rfl
  | cons piece pieces ih =>
    obtain ⟨ctx₁, hpiece, hrest⟩ := context_cons.mp hctx
    obtain ⟨s, rest, hs, hprint, rfl⟩ := print_cons.mp hout
    obtain ⟨hrun, hmarkup⟩ := printPiece_markup hplain hpiece hs
    rw [String.toList_append, markup_append, hrun, hmarkup, ih hrest hprint, outline, hpiece]
    rfl

theorem context_pages : ∀ p ∈ pages, context .text p.2 = some .text := by decide +kernel

/-- The page starts and ends with text: the document type and its end tag. -/
def framed (pieces : List Piece) : Bool :=
  match pieces.head?, pieces.tail.getLast? with
  | some (.text first), some (.text last) =>
    "<!DOCTYPE html>\n<html".toList.isPrefixOf first.chars &&
      "</html>\n".toList.isSuffixOf last.chars
  | _, _ => false

theorem framed_pages : ∀ p ∈ pages, framed p.2 := by decide +kernel

theorem print_append {pieces' : List Piece} (h : print T vars (pieces ++ pieces') = some out) :
    ∃ a b, print T vars pieces = some a ∧ print T vars pieces' = some b ∧ out = a ++ b := by
  induction pieces generalizing out with
  | nil => exact ⟨"", out, rfl, h, (String.empty_append ..).symm⟩
  | cons piece pieces ih =>
    obtain ⟨s, rest, hs, hrest, rfl⟩ := print_cons.mp h
    obtain ⟨a, b, ha, hb, rfl⟩ := ih hrest
    exact ⟨s ++ a, b, print_cons.mpr ⟨s, a, hs, ha, rfl⟩, hb, (String.append_assoc ..).symm⟩

theorem of_framed (hframed : framed pieces) (hout : print T vars pieces = some out) :
    ∃ inner, out = "<!DOCTYPE html>\n" ++ "<html" ++ inner ++ "</html>" ++ "\n" := by
  unfold framed at hframed
  split at hframed
  · next first last hfirst hlast =>
    obtain ⟨hstart, hend⟩ := Bool.and_eq_true_iff.mp hframed
    obtain ⟨pieces, rfl⟩ := List.head?_eq_some_iff.mp hfirst
    obtain ⟨mid, hmid⟩ := List.getLast?_eq_some_iff.mp hlast
    obtain rfl : pieces = mid ++ [Piece.text last] := hmid
    obtain ⟨_, rest, hs, hrest, rfl⟩ := print_cons.mp hout
    obtain ⟨m, _, hm, hlast, rfl⟩ := print_append hrest
    obtain ⟨_, _, hs', hnil, rfl⟩ := print_cons.mp hlast
    cases hs
    cases hs'
    cases hnil
    obtain ⟨a, ha⟩ := List.isPrefixOf_iff_prefix.mp hstart
    obtain ⟨b, hb⟩ := List.isSuffixOf_iff_suffix.mp hend
    refine ⟨String.ofList a ++ m ++ String.ofList b, ?_⟩
    rw [← String.toList_inj]
    simp only [String.toList_append, Literal.toList_text, String.toList_ofList, ← ha, ← hb]
    simp
  · cases hframed

end HtmlTemplates

open HtmlTemplates

def Tera.shipped (T : Tera) : Tera :=
  { T with
    html := fun id vars => HtmlTemplates.render T vars id
    html_page := by
      intro id hid vars c hc
      have hne : id ≠ "_components.html.tera" := by
        rintro rfl
        revert hid
        decide
      rw [HtmlTemplates.render, if_neg hne] at hc
      obtain ⟨pieces, hfind, hprint⟩ := Option.bind_eq_some_iff.mp hc
      obtain ⟨p, hp, rfl⟩ := Option.map_eq_some_iff.mp hfind
      exact of_framed (framed_pages p (List.mem_of_find?_eq_some hp)) hprint }

def Seg.required : Seg → Option String
  | .var name | .encoded name => some name
  | _ => none

def Piece.required : Piece → Option String
  | .var name => some name
  | _ => none

def Templates.required (id : String) : Option (List String) :=
  match Tera.textTemplate id with
  | some segs => some (segs.filterMap Seg.required)
  | none =>
    if id = "_components.html.tera" then some []
    else (HtmlTemplates.pages.find? fun p => p.1 = id).map fun p => p.2.filterMap Piece.required

section Engine

variable {T : Tera} {vars : Json} {now : Int}

theorem isSome_bind_map {α β γ : Type} {x : Option α} {y : Option β} {f : α → β → γ} :
    (x.bind fun a => y.map (f a)).isSome ↔ x.isSome ∧ y.isSome := by
  cases x <;> simp

theorem forall_mem_filterMap_cons {α β : Type} {f : α → Option β} {a : α} {l : List α}
    {P : β → Prop} : (∀ b ∈ (a :: l).filterMap f, P b) ↔
      (∀ b ∈ f a, P b) ∧ ∀ b ∈ l.filterMap f, P b := by
  cases hf : f a <;> simp [hf]

theorem Tera.segment_isSome_iff {seg : Seg} : (T.segment vars now seg).isSome ↔
    ∀ name ∈ seg.required, (vars.get name).isSome := by
  cases seg with
  | var name | encoded name => simp [segment, Seg.required]
  | shownIf name before after => cases hv : vars.get name <;> simp [segment, Seg.required, hv]
  | _ => simp [segment, Seg.required]

theorem Tera.segments_isSome_iff {segs : List Seg} : (T.segments vars now segs).isSome ↔
    ∀ name ∈ segs.filterMap Seg.required, (vars.get name).isSome := by
  induction segs with
  | nil => simp [segments]
  | cons seg segs ih =>
    rw [segments, isSome_bind_map, segment_isSome_iff, ih, forall_mem_filterMap_cons]

theorem HtmlTemplates.printPiece_isSome_iff {piece : Piece} : (printPiece T vars piece).isSome ↔
    ∀ name ∈ piece.required, (vars.get name).isSome := by
  cases piece with
  | var name => simp [printPiece, Piece.required]
  | given name before after otherwise =>
    cases hv : vars.get name <;> simp [printPiece, Piece.required, hv]
  | _ => simp [printPiece, Piece.required]

theorem HtmlTemplates.print_isSome_iff {pieces : List Piece} : (print T vars pieces).isSome ↔
    ∀ name ∈ pieces.filterMap Piece.required, (vars.get name).isSome := by
  induction pieces with
  | nil => simp [print]
  | cons piece pieces ih =>
    rw [print, isSome_bind_map, printPiece_isSome_iff, ih, forall_mem_filterMap_cons]

theorem Tera.render_isSome_iff {id : String} {members : List (String × Json)} :
    (T.shipped.render id (.obj members) now).isSome ↔
      ∃ names, Templates.required id = some names ∧
        ∀ name ∈ names, (Json.lookup members name).isSome := by
  unfold Templates.required Tera.render
  dsimp only
  cases htext : textTemplate id with
  | some segs => simp [segments_isSome_iff, Json.get]
  | none =>
    have hpages : HtmlTemplates.pages.map Prod.fst = Templates.pages := rfl
    have hrender : T.shipped.html id (.obj members) =
        HtmlTemplates.render T (.obj members) id := rfl
    rw [hrender, HtmlTemplates.render]
    cases hfind : HtmlTemplates.pages.find? fun p => p.1 = id with
    | none =>
      have hnot : id ∉ Templates.pages := by
        rintro hid
        rw [← hpages] at hid
        obtain ⟨p, hp, rfl⟩ := List.mem_map.mp hid
        exact List.find?_eq_none.mp hfind p hp (decide_eq_true rfl)
      by_cases hcomponents : id = "_components.html.tera"
      · simp [hcomponents, Templates.htmlTemplates]
      · simp [hcomponents, Templates.htmlTemplates, hnot]
    | some p =>
      obtain rfl : p.1 = id := by simpa using List.find?_some hfind
      have hmem : p.1 ∈ Templates.pages :=
        hpages ▸ List.mem_map_of_mem (List.mem_of_find?_eq_some hfind)
      have hne : p.1 ≠ "_components.html.tera" := by
        intro heq
        rw [heq] at hmem
        revert hmem
        decide
      simp [Templates.htmlTemplates, hmem, hne, HtmlTemplates.print_isSome_iff, Json.get]

end Engine

theorem Tera.render_shipped {T : Tera} {id : String} (hid : id ∈ Templates.pages) {vars : Json}
    {now : Int} {out : String} (hout : T.shipped.render id vars now = some out) :
    ∃ p, pages.find? (fun p => p.1 = id) = some p ∧ print T vars p.2 = some out := by
  have htext : ∀ id ∈ Templates.pages, textTemplate id = none := by decide
  have hpages : ∀ id ∈ Templates.pages, id ∈ Templates.htmlTemplates ∧
      id ≠ "_components.html.tera" := by decide
  obtain ⟨hhtml, hne⟩ := hpages id hid
  cases vars with
  | obj members =>
    simp only [Tera.render, htext id hid, if_pos hhtml] at hout
    have hrender : HtmlTemplates.render T (.obj members) id = some out := hout
    rw [HtmlTemplates.render, if_neg hne] at hrender
    obtain ⟨pieces, hfind, hprint⟩ := Option.bind_eq_some_iff.mp hrender
    obtain ⟨p, hp, rfl⟩ := Option.map_eq_some_iff.mp hfind
    exact ⟨p, hp, hprint⟩
  | _ => cases hout

/-- A page has the same markup whatever its variables are, as long as the same ones count as
true: they cannot open or close a tag, leave an attribute or add one. -/
theorem page_markup (T : Tera) {id : String} (hid : id ∈ Templates.pages) {vars vars' : Json}
    {now now' : Int} {out out' : String} (hplain : Plain T vars) (hplain' : Plain T vars')
    (hsame : ∀ name, truth T vars name = truth T vars' name)
    (hout : T.shipped.render id vars now = some out)
    (hout' : T.shipped.render id vars' now' = some out') :
    markup .text out.toList = markup .text out'.toList := by
  obtain ⟨p, hp, hprint⟩ := Tera.render_shipped hid hout
  obtain ⟨p', hp', hprint'⟩ := Tera.render_shipped hid hout'
  obtain rfl := Option.some.inj (hp.symm.trans hp')
  have hctx := context_pages p (List.mem_of_find?_eq_some hp)
  rw [print_markup hplain hctx hprint, print_markup hplain' hctx hprint', funext hsame]

theorem page_markup_welcome : ∃ out out',
    Tera.sample.shipped.render "welcome.html.tera"
      (.obj [("name", .str "<script>alert(1)</script>")]) 0 = some out ∧
    Tera.sample.shipped.render "welcome.html.tera" (.obj [("name", .str "Bob")]) 0 = some out' ∧
    markup .text out.toList = markup .text out'.toList := by
  have hplain : ∀ name, Plain Tera.sample (.obj [("name", .str name)]) := by
    intro name key v hv
    left
    simp only [Json.get, Json.lookup, List.find?_singleton] at hv
    split at hv <;> cases hv
    rfl
  have hsame : ∀ key, truth Tera.sample (.obj [("name", .str "<script>alert(1)</script>")]) key =
      truth Tera.sample (.obj [("name", .str "Bob")]) key := by
    intro key
    simp only [truth, Json.get, Json.lookup, List.find?_singleton]
    split <;> simp [Tera.sample, Json.asStr]
  have hrequired : Templates.required "welcome.html.tera" = some [] := by decide +kernel
  have hrenders : ∀ name, ∃ out, Tera.sample.shipped.render "welcome.html.tera"
      (.obj [("name", .str name)]) 0 = some out := fun name =>
    Option.isSome_iff_exists.mp (Tera.render_isSome_iff.mpr ⟨[], hrequired, nofun⟩)
  obtain ⟨out, hout⟩ := hrenders "<script>alert(1)</script>"
  obtain ⟨out', hout'⟩ := hrenders "Bob"
  exact ⟨out, out', hout, hout', page_markup Tera.sample (by decide) (hplain _) (hplain _) hsame
    hout hout'⟩

end NotiService
