import Mathlib.Data.List.Basic

/-! What an HTML tokenizer takes for markup. It reads a page a character at a time; the
characters of text and of quoted attribute values are content, all others are markup. Text
that has no `<` and no quotes is content wherever content may stand, and changes nothing
of what the tokenizer makes of the rest. -/

namespace NotiService.Foundation.Markup

/-- Where the tokenizer is. In a tag it knows the name, which a `/` precedes in an end tag.
`raw` is the text of an element that only its own end tag ends, and what may be the start of
that tag. -/
inductive Context where
  | text
  | opened
  | naming (name : List Char)
  | attributes (name : List Char)
  | assigned (name : List Char)
  | unquoted (name : List Char)
  | quoted (name : List Char) (quote : Char)
  | declared (dash : Bool)
  | bogus
  | comment (dashes : Nat)
  | raw (name seen : List Char)
deriving DecidableEq, Repr

def isSpace (c : Char) : Bool := c = ' ' || c = '\n' || c = '\t' || c = '\r' || c = '\x0c'

/-- The elements whose text holds no tags: script, style, textarea, title, xmp, iframe,
noembed and noframes. -/
def rawNames : List (List Char) :=
  [['s', 'c', 'r', 'i', 'p', 't'], ['s', 't', 'y', 'l', 'e'],
    ['t', 'e', 'x', 't', 'a', 'r', 'e', 'a'], ['t', 'i', 't', 'l', 'e'], ['x', 'm', 'p'],
    ['i', 'f', 'r', 'a', 'm', 'e'], ['n', 'o', 'e', 'm', 'b', 'e', 'd'],
    ['n', 'o', 'f', 'r', 'a', 'm', 'e', 's']]

namespace Context

def close (name : List Char) : Context := if name ∈ rawNames then .raw name [] else .text

def step : Context → Char → Context
  | .text, c => if c = '<' then .opened else .text
  | .opened, c =>
    if c = '!' then .declared false
    else if c = '?' then .bogus
    else if c = '/' ∨ c.isAlpha then .naming [c.toLower]
    else if c = '<' then .opened else .text
  | .naming name, c =>
    if c = '>' then close name
    else if isSpace c ∨ c = '/' then .attributes name
    else .naming (name ++ [c.toLower])
  | .attributes name, c =>
    if c = '>' then close name else if c = '=' then .assigned name else .attributes name
  | .assigned name, c =>
    if c = '>' then close name
    else if c = '"' ∨ c = '\'' then .quoted name c
    else if isSpace c then .assigned name else .unquoted name
  | .unquoted name, c =>
    if c = '>' then close name else if isSpace c then .attributes name else .unquoted name
  | .quoted name quote, c => if c = quote then .attributes name else .quoted name quote
  | .declared dash, c =>
    if c = '>' then .text
    else if c = '-' then if dash then .comment 0 else .declared true
    else .bogus
  | .bogus, c => if c = '>' then .text else .bogus
  | .comment dashes, c =>
    if c = '-' then .comment (min (dashes + 1) 2)
    else if c = '>' ∧ dashes = 2 then .text else .comment 0
  | .raw name seen, c =>
    if seen = '<' :: '/' :: name ∧ (isSpace c ∨ c = '/' ∨ c = '>') then
      if c = '>' then .text else .attributes ('/' :: name)
    else if seen ++ [c.toLower] <+: '<' :: '/' :: name then .raw name (seen ++ [c.toLower])
    else .raw name (if c = '<' then [c] else [])

def content : Context → Char → Bool
  | .text, c => c ≠ '<'
  | .quoted _ quote, c => c ≠ quote
  | _, _ => false

/-- The same as `k ctx`, with `ctx` evaluated first. -/
def force {α : Type} (ctx : Context) (k : Context → α) : α :=
  match ctx with
  | .text => k .text
  | .opened => k .opened
  | .naming name => k (.naming name)
  | .attributes name => k (.attributes name)
  | .assigned name => k (.assigned name)
  | .unquoted name => k (.unquoted name)
  | .quoted name quote => k (.quoted name quote)
  | .declared dash => k (.declared dash)
  | .bogus => k .bogus
  | .comment dashes => k (.comment dashes)
  | .raw name seen => k (.raw name seen)

@[simp] theorem force_eq {α : Type} (ctx : Context) (k : Context → α) : ctx.force k = k ctx := by
  cases ctx <;> rfl

/-- Content may stand here that was not there when the page was written. -/
def holds : Context → Bool
  | .text => true
  | .quoted _ quote => quote = '"' || quote = '\''
  | _ => false

end Context

/-- A text with its characters at hand. -/
structure Literal where
  text : String
  chars : List Char
  eq : text = String.ofList chars

open Context

def run : Context → List Char → Context
  | ctx, [] => ctx
  | ctx, c :: s => (ctx.step c).force fun ctx => run ctx s

def markup : Context → List Char → List Char
  | _, [] => []
  | ctx, c :: s =>
    if ctx.content c then markup (ctx.step c) s else c :: markup (ctx.step c) s

/-- Content wherever content may stand. -/
def Inert (c : Char) : Prop := c ≠ '<' ∧ c ≠ '"' ∧ c ≠ '\''

instance : DecidablePred Inert := fun _ => inferInstanceAs (Decidable (_ ∧ _ ∧ _))

@[simp] theorem Literal.toList_text (s : Literal) : s.text.toList = s.chars := by
  rw [s.eq, String.toList_ofList]

variable {ctx : Context} {s t : List Char}

@[simp] theorem run_nil : run ctx [] = ctx := rfl

@[simp] theorem run_cons {c : Char} : run ctx (c :: s) = run (ctx.step c) s := force_eq ..

theorem run_append : run ctx (s ++ t) = run (run ctx s) t := by
  induction s generalizing ctx with
  | nil => rfl
  | cons c s ih => rw [List.cons_append, run_cons, run_cons, ih]

theorem markup_append : markup ctx (s ++ t) = markup ctx s ++ markup (run ctx s) t := by
  induction s generalizing ctx with
  | nil => rfl
  | cons c s ih =>
    rw [List.cons_append, markup, markup, ih, run_cons]
    split <;> rfl

theorem step_inert {c : Char} (hctx : ctx.holds) (hc : Inert c) :
    ctx.step c = ctx ∧ ctx.content c = true := by
  obtain ⟨hopen, hdouble, hsingle⟩ := hc
  cases ctx with
  | text => simp [step, content, hopen]
  | quoted name quote =>
    have hquote : c ≠ quote := by
      rintro rfl
      simp [holds, hdouble, hsingle] at hctx
    simp [step, content, hquote]
  | _ => cases hctx

theorem run_inert (hctx : ctx.holds) (hs : ∀ c ∈ s, Inert c) : run ctx s = ctx := by
  induction s with
  | nil => rfl
  | cons _ s ih =>
    obtain ⟨hc, hs⟩ := List.forall_mem_cons.mp hs
    rw [run_cons, (step_inert hctx hc).1]
    exact ih hs

theorem markup_inert (hctx : ctx.holds) (hs : ∀ c ∈ s, Inert c) : markup ctx s = [] := by
  induction s with
  | nil => rfl
  | cons c s ih =>
    obtain ⟨hc, hs⟩ := List.forall_mem_cons.mp hs
    obtain ⟨hstep, hcontent⟩ := step_inert hctx hc
    rw [markup, if_pos hcontent, hstep]
    exact ih hs

/-- What stands for a character where it is not to be markup. -/
def escapeChar (c : Char) : List Char :=
  match c with
  | '&' => "&amp;".toList
  | '<' => "&lt;".toList
  | '>' => "&gt;".toList
  | '"' => "&quot;".toList
  | '\'' => "&#x27;".toList
  | '/' => "&#x2F;".toList
  | c => [c]

def escapeHtml (s : String) : String := String.ofList (s.toList.flatMap escapeChar)

theorem toList_escapeHtml (s : String) : (escapeHtml s).toList = s.toList.flatMap escapeChar :=
  String.toList_ofList

theorem inert_escapeChar (c : Char) : ∀ d ∈ escapeChar c, Inert d := by
  unfold escapeChar
  split
  case h_7 _ hlt _ hdouble hsingle _ =>
    rintro d hd
    obtain rfl := List.mem_singleton.mp hd
    exact ⟨hlt, hdouble, hsingle⟩
  all_goals simp [Inert]

theorem inert_escapeHtml (s : String) : ∀ c ∈ (escapeHtml s).toList, Inert c := by
  intro c hc
  rw [toList_escapeHtml] at hc
  obtain ⟨d, -, hd⟩ := List.mem_flatMap.mp hc
  exact inert_escapeChar d c hd

theorem escaped_not_markup (s : String) :
    '<' ∉ (escapeHtml s).toList ∧ '>' ∉ (escapeHtml s).toList := by
  have hchar : ∀ c, '<' ∉ escapeChar c ∧ '>' ∉ escapeChar c := by
    intro c
    unfold escapeChar
    split
    case h_7 _ hamp hlt hgt hquote hapostrophe hslash =>
      simp [Ne.symm hlt, Ne.symm hgt]
    all_goals decide
  simp [toList_escapeHtml, hchar]

end NotiService.Foundation.Markup
