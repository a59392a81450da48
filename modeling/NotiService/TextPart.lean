import NotiService.Smtp
import NotiService.Foundation.Markup

/-! The text part of an HTML mail. A closed fragment shows the text that is left of it without
scripts, styles and tags and with each entity read once. What the engine escapes is such a
fragment, and the fragments of a text follow one another. -/

namespace NotiService
open Foundation Text Markup

namespace Smtp

def entity (name : List Char) : List Char := '&' :: (name ++ [';'])

/-- What a single entity is read as. An unknown one stays. -/
def readEntity (table : List (String × String)) (name : List Char) : List Char :=
  ((table.find? fun e => e.1.toList = entity name).map fun e => e.2.toList).getD (entity name)

def hiddenNames : List String := ["script", "style"]

def closer (name : String) : List Char := ("</" ++ name ++ ">").toList

/-- Fragments whose tags, scripts, styles and entities are closed, with the text they show where
`rest` follows. A tag may have the start of a script or style in it, as `<styled>` has, unless
an end tag follows that would close it. -/
inductive Shows (rest : List Char) : List Char → List Char → Prop
  | nil : Shows rest [] []
  | char {c : Char} {a t : List Char} (hlt : c ≠ '<') (hamp : c ≠ '&') (h : Shows rest a t) :
    Shows rest (c :: a) (c :: t)
  | entity {name a t : List Char} (hname : ∀ c ∈ name, c ≠ '&' ∧ c ≠ '<' ∧ c ≠ ';')
    (h : Shows rest a t) : Shows rest (entity name ++ a) (readEntity entities name ++ t)
  | tag {inside a t : List Char} (hgt : '>' ∉ inside)
    (hopen : ∀ name ∈ hiddenNames, ("<" ++ name).toList <:+: '<' :: inside →
      ¬ closer name <:+: a ++ rest) (h : Shows rest a t) :
    Shows rest ('<' :: (inside ++ '>' :: a)) t
  | element {name : String} {attributes body a t : List Char} (hname : name ∈ hiddenNames)
    (hgt : '>' ∉ attributes) (hbody : ¬ closer name <:+: body) (h : Shows rest a t) :
    Shows rest (("<" ++ name).toList ++ (attributes ++ '>' :: (body ++ (closer name ++ a)))) t

variable {rest : List Char}

theorem Shows.append {a b t u : List Char} (ha : Shows (b ++ rest) a t) (hb : Shows rest b u) :
    Shows rest (a ++ b) (t ++ u) := by
  induction ha with
  | nil => exact hb
  | char hlt hamp _ ih => exact ih.char hlt hamp
  | entity hname _ ih =>
    rw [List.append_assoc, List.append_assoc]
    exact ih.entity hname
  | tag hgt hopen _ ih =>
    rw [List.cons_append, List.append_assoc, List.cons_append]
    exact ih.tag hgt fun name hname hinside => by
      rw [List.append_assoc]
      exact hopen name hname hinside
  | element hname hgt hbody _ ih =>
    rw [List.append_assoc, List.append_assoc, List.cons_append, List.append_assoc,
      List.append_assoc]
    exact ih.element hname hgt hbody

theorem shows_escapeChar {a t : List Char} (c : Char) (h : Shows rest a t) :
    Shows rest (escapeChar c ++ a) (c :: t) := by
  have closed : ∀ name : String, (name.toList.all fun c => c ≠ '&' ∧ c ≠ '<' ∧ c ≠ ';') →
      Shows rest (entity name.toList ++ a) (readEntity entities name.toList ++ t) :=
    fun name hname => h.entity (forall_mem_of_all hname)
  unfold escapeChar
  split
  case h_1 => exact closed "amp" rfl
  case h_2 => exact closed "lt" rfl
  case h_3 => exact closed "gt" rfl
  case h_4 => exact closed "quot" rfl
  case h_5 => exact closed "#x27" rfl
  case h_6 => exact closed "#x2F" rfl
  case h_7 _ hamp hlt _ _ _ _ => exact h.char hlt hamp

theorem shows_escapeHtml (s : String) : Shows rest (escapeHtml s).toList s.toList := by
  rw [toList_escapeHtml]
  induction s.toList with
  | nil => exact .nil
  | cons c s ih => exact shows_escapeChar c ih

section Replace

variable {s name : List Char} {c : Char} {e : String × String} {table : List (String × String)}

theorem first_literal_of_ne {w : String} {a : Char} {w' : List Char} (hw : w.toList = a :: w')
    (hc : c ≠ a) (t : Regex Char) (s : List Char) : (literal w t).first (c :: s) = none := by
  refine Regex.first_eq_none.mpr (Regex.ways_literal_eq_nil fun h => hc ?_)
  rw [hw] at h
  exact (List.cons_prefix_cons.mp h).1.symm

/-- The replacement of one entity. -/
def IsEntry (e : String × String) : Prop :=
  ∃ name, e.1.toList = entity name ∧ ∀ c ∈ name, c ≠ '&' ∧ c ≠ ';'

theorem IsEntry.first (he : IsEntry e) (hc : c ≠ '&') (s : List Char) :
    (literal e.1 .empty).first (c :: s) = none := by
  obtain ⟨name, hname, -⟩ := he
  exact first_literal_of_ne hname hc _ s

theorem replace_append_plain (he : IsEntry e) {x : List Char} (hx : ∀ c ∈ x, c ≠ '&')
    (s : List Char) : replace (x ++ s) e = x ++ replace s e := by
  refine Regex.replaceAll_append fun a b hab hb => ?_
  cases b with
  | nil => exact absurd rfl hb
  | cons c b => exact he.first (hx c (hab ▸ List.mem_append_right a (List.mem_cons_self ..))) _

theorem entity_ends {name' : List Char} (hname : ∀ c ∈ name, c ≠ '&' ∧ c ≠ ';')
    (hname' : ∀ c ∈ name', c ≠ '&' ∧ c ≠ ';') (h : entity name' <+: entity name ++ s) :
    name' = name := by
  obtain ⟨tail, htail⟩ := h
  simp only [entity, List.cons_append, List.append_assoc, List.cons.injEq, true_and,
    List.nil_append] at htail
  have hsemicolon : ';' ∉ name := fun hmem => (hname _ hmem).2 rfl
  have hend := splitOnce_append (b := tail) fun hmem => (hname' _ hmem).2 rfl
  rw [htail, splitOnce_append hsemicolon] at hend
  exact (congrArg Prod.fst (Option.some.inj hend)).symm

theorem replace_entity (he : IsEntry e) (hname : ∀ c ∈ name, c ≠ '&' ∧ c ≠ ';') (s : List Char) :
    replace (entity name ++ s) e =
      (if e.1.toList = entity name then e.2.toList else entity name) ++ replace s e := by
  split
  · next heq =>
    have hfirst : (literal e.1 .empty).first (entity name ++ s) = some ([], s) := by
      rw [← heq, literal, Regex.first, Regex.ways_literal]
      rfl
    exact Regex.replaceAll_match (List.cons_ne_nil '&' _) hfirst
  · next hne =>
    refine Regex.replaceAll_append fun a b hab hb => ?_
    cases a with
    | nil =>
      obtain ⟨name', he', hname'⟩ := he
      refine Regex.first_eq_none.mpr (Regex.ways_literal_eq_nil fun h => hne ?_)
      rw [List.nil_append] at hab
      rw [he', ← hab] at h
      rw [he', entity_ends hname hname' h]
    | cons d a =>
      have htail := (List.cons.inj hab).2
      cases b with
      | nil => exact absurd rfl hb
      | cons c b =>
        refine he.first (fun hc => ?_) _
        have hmem : c ∈ name ++ [';'] := htail ▸ List.mem_append_right a (List.mem_cons_self ..)
        rcases List.mem_append.mp hmem with hmem | hmem
        · exact (hname c hmem).1 hc
        · rw [hc] at hmem
          exact absurd (List.mem_singleton.mp hmem) (by decide)

/-- Replacements in such an order that none makes a new entity for a later one. -/
def Ordered : List (String × String) → Prop
  | [] => True
  | e :: table => IsEntry e ∧ (table ≠ [] → ∀ c ∈ e.2.toList, c ≠ '&') ∧ Ordered table

theorem foldl_append_plain (h : Ordered table) {x : List Char} (hx : ∀ c ∈ x, c ≠ '&')
    (s : List Char) : table.foldl replace (x ++ s) = x ++ table.foldl replace s := by
  induction table generalizing s with
  | nil => rfl
  | cons e table ih =>
    obtain ⟨he, -, htable⟩ := h
    rw [List.foldl_cons, List.foldl_cons, replace_append_plain he hx, ih htable]

/-- One replacement after the other reads an entity once. -/
theorem foldl_entity (h : Ordered table) (hname : ∀ c ∈ name, c ≠ '&' ∧ c ≠ ';') (s : List Char) :
    table.foldl replace (entity name ++ s) = readEntity table name ++ table.foldl replace s := by
  induction table generalizing s with
  | nil => rfl
  | cons e table ih =>
    obtain ⟨he, hvalue, htable⟩ := h
    rw [List.foldl_cons, List.foldl_cons, replace_entity he hname]
    by_cases heq : e.1.toList = entity name
    · have hread : readEntity (e :: table) name = e.2.toList := by
        simp [readEntity, heq]
      rw [if_pos heq, hread]
      cases table with
      | nil => rfl
      | cons e' table => exact foldl_append_plain htable (hvalue (List.cons_ne_nil e' table)) _
    · have hread : readEntity (e :: table) name = readEntity table name := by
        simp [readEntity, heq]
      rw [if_neg heq, hread, ih htable]

theorem entities_ordered : Ordered entities := by
  have entry : ∀ e ∈ entities, IsEntry e := by
    simp only [entities, List.forall_mem_cons]
    refine ⟨⟨"lt".toList, ?_⟩, ⟨"gt".toList, ?_⟩, ⟨"quot".toList, ?_⟩, ⟨"#39".toList, ?_⟩,
      ⟨"#x27".toList, ?_⟩, ⟨"#x2F".toList, ?_⟩, ⟨"#x2f".toList, ?_⟩, ⟨"nbsp".toList, ?_⟩,
      ⟨"amp".toList, ?_⟩, fun _ h => nomatch h⟩ <;> exact ⟨by decide, forall_mem_of_all (by decide)⟩
  simp only [entities, List.forall_mem_cons] at entry
  obtain ⟨lt, gt, quot, n39, x27, upper, lower, nbsp, amp, -⟩ := entry
  have plain : ∀ s : String, s.toList.all (fun c => decide (c ≠ '&')) = true →
      ∀ c ∈ s.toList, c ≠ '&' := fun s h => forall_mem_of_all h
  exact ⟨lt, fun _ => plain _ rfl, gt, fun _ => plain _ rfl, quot, fun _ => plain _ rfl,
    n39, fun _ => plain _ rfl, x27, fun _ => plain _ rfl, upper, fun _ => plain _ rfl,
    lower, fun _ => plain _ rfl, nbsp, fun _ => plain _ rfl, amp, fun h => absurd rfl h, trivial⟩

end Replace

section Passes

variable {s : List Char} {c : Char}

theorem decodeEntities_append_plain {x : List Char} (hx : ∀ c ∈ x, c ≠ '&') (s : List Char) :
    decodeEntities (x ++ s) = x ++ decodeEntities s :=
  foldl_append_plain entities_ordered hx s

theorem decodeEntities_entity {name : List Char} (hname : ∀ c ∈ name, c ≠ '&' ∧ c ≠ ';')
    (s : List Char) : decodeEntities (entity name ++ s) =
      readEntity entities name ++ decodeEntities s :=
  foldl_entity entities_ordered hname s

theorem entity_not_tag {name : List Char} (h : ∀ c ∈ name, c ≠ '&' ∧ c ≠ '<' ∧ c ≠ ';') :
    ∀ c ∈ entity name, c ≠ '<' := by
  intro c hc
  rcases List.mem_cons.mp hc with rfl | hc
  · decide
  · rcases List.mem_append.mp hc with hc | hc
    · exact (h c hc).2.1
    · obtain rfl := List.mem_singleton.mp hc
      decide

def removeTags (s : List Char) : List Char := reTags.replaceAll [] s

def removeElements (s : List Char) : List Char := reScriptStyle.replaceAll [] s

theorem removeTags_append_plain {x : List Char} (hx : ∀ c ∈ x, c ≠ '<') (s : List Char) :
    removeTags (x ++ s) = x ++ removeTags s := by
  refine Regex.replaceAll_append fun a b hab hb => ?_
  cases b with
  | nil => exact absurd rfl hb
  | cons c b =>
    exact first_literal_of_ne (a := '<') rfl (hx c (hab ▸ List.mem_append_right a
      (List.mem_cons_self ..))) _ _

theorem removeTags_tag {inside : List Char} (h : '>' ∉ inside) (s : List Char) :
    removeTags ('<' :: (inside ++ '>' :: s)) = removeTags s := by
  have hways : (literal "<" (.seq notGt (literal ">" .empty))).ways ('<' :: (inside ++ '>' :: s)) =
      [([], s)] := by
    have huntil := Regex.ways_until (t := .empty) (s := s) true h
    exact (Regex.ways_literal (w := ['<'])).trans huntil
  have hfirst : reTags.first (('<' :: (inside ++ ['>'])) ++ s) = some ([], s) := by
    rw [Regex.first, List.cons_append, List.append_assoc]
    exact congrArg List.head? hways
  have hremoved : removeTags ('<' :: (inside ++ ['>']) ++ s) = removeTags s :=
    Regex.replaceAll_match (List.cons_ne_nil '<' _) hfirst
  rwa [List.cons_append, List.append_assoc] at hremoved

theorem first_element_of_no_opening (name : String) (h : ¬ ("<" ++ name).toList <+: s) :
    (element name).first s = none :=
  Regex.first_eq_none.mpr (Regex.ways_literal_eq_nil h)

theorem closer_of_hidden {name : String} (hname : name ∈ hiddenNames) :
    ∃ w, closer name = '<' :: w ∧ '<' ∉ w := by
  simp only [hiddenNames, List.mem_cons, List.not_mem_nil, or_false] at hname
  rcases hname with rfl | rfl
  · exact ⟨"/script>".toList, by decide, by decide⟩
  · exact ⟨"/style>".toList, by decide, by decide⟩

theorem first_element {name : String} {attributes body : List Char} (hname : name ∈ hiddenNames)
    (hgt : '>' ∉ attributes) (hbody : ¬ closer name <:+: body) (s : List Char) :
    (element name).first (("<" ++ name).toList ++
      (attributes ++ '>' :: (body ++ (closer name ++ s)))) = some ([], s) := by
  obtain ⟨w, hclose, hw⟩ := closer_of_hidden hname
  have hnone : ∀ a b, body = a ++ b → b ≠ [] → (literal ("</" ++ name ++ ">") .empty).ways
      (b ++ (closer name ++ s)) = [] := by
    intro a b hab hb
    refine Regex.ways_literal_eq_nil (w := closer name) ?_
    rw [hclose] at hbody ⊢
    exact Regex.not_prefix_of_absent hw hbody hab hb
  have hlazy := Regex.first_lazy (p := fun _ => true) (fun _ _ => rfl) hnone
  have hlast : (Regex.seq anything (literal ("</" ++ name ++ ">") .empty)).first
      (closer name ++ s) = some ([], s) := by
    have hhere : (literal ("</" ++ name ++ ">") .empty).ways (closer name ++ s) =
        [([], s)] := Regex.ways_literal (w := closer name)
    rw [hclose, List.cons_append] at hhere ⊢
    rw [Regex.first, anything, Regex.ways_lazy_cons, hhere]
    rfl
  have huntil := Regex.ways_until (t := .seq anything (literal ("</" ++ name ++ ">") .empty))
    (s := body ++ (closer name ++ s)) true hgt
  rw [Regex.first, element, literal, Regex.ways_literal]
  exact (congrArg List.head? huntil).trans (hlazy.trans hlast)

/-- No element begins in a tag unless its name does and it is closed later. -/
theorem first_element_of_tag {name : String} {inside : List Char} (hname : name ∈ hiddenNames)
    (hgt : '>' ∉ inside) (h : ("<" ++ name).toList <+: inside → ¬ closer name <:+: s) :
    (element name).first (inside ++ '>' :: s) = none := by
  have hplain : ∀ name ∈ hiddenNames, '>' ∉ ("<" ++ name).toList := by decide
  by_cases hopening : ("<" ++ name).toList <+: inside
  · obtain ⟨attributes, rfl⟩ := hopening
    have hattributes : '>' ∉ attributes := fun hmem => hgt (List.mem_append_right _ hmem)
    have huntil := Regex.ways_until (t := .seq anything (literal ("</" ++ name ++ ">") .empty))
      (s := s) true hattributes
    have hnever : (Regex.seq anything (literal ("</" ++ name ++ ">") .empty)).ways s = [] :=
      Regex.ways_lazy_eq_nil fun b hb => Regex.ways_literal_eq_nil (w := closer name)
        fun hstarts => h (List.prefix_append ..) (hstarts.isInfix.trans hb.isInfix)
    rw [Regex.first_eq_none, element, literal, List.append_assoc, Regex.ways_literal]
    exact huntil.trans hnever
  · exact first_element_of_no_opening name fun hstarts =>
      hopening (Regex.prefix_of_not_mem (hplain name hname) hstarts)

theorem first_reScriptStyle (s : List Char) : reScriptStyle.first s =
    ((element "script").first s).or ((element "style").first s) :=
  List.head?_append

theorem removeElements_append {x : List Char} (hnone : ∀ a b, x = a ++ b → b ≠ [] →
    ∀ name ∈ hiddenNames, (element name).first (b ++ s) = none) :
    removeElements (x ++ s) = x ++ removeElements s := by
  refine Regex.replaceAll_append fun a b hab hb => ?_
  have hfirst := hnone a b hab hb
  rw [first_reScriptStyle, hfirst "script" (by decide), hfirst "style" (by decide)]
  rfl

theorem removeElements_append_plain {x : List Char} (hx : ∀ c ∈ x, c ≠ '<') (s : List Char) :
    removeElements (x ++ s) = x ++ removeElements s := by
  refine removeElements_append fun a b hab hb name _ => first_element_of_no_opening name ?_
  cases b with
  | nil => exact absurd rfl hb
  | cons c b =>
    have hc := hx c (hab ▸ List.mem_append_right a (List.mem_cons_self ..))
    rw [String.toList_append]
    exact fun h => hc (List.cons_prefix_cons.mp h).1.symm

theorem removeElements_tag {inside : List Char} (hgt : '>' ∉ inside)
    (hopen : ∀ name ∈ hiddenNames, ("<" ++ name).toList <:+: '<' :: inside →
      ¬ closer name <:+: s) :
    removeElements ('<' :: (inside ++ '>' :: s)) = '<' :: (inside ++ '>' :: removeElements s) := by
  have hnone : ∀ a b, '<' :: (inside ++ ['>']) = a ++ b → b ≠ [] → ∀ name ∈ hiddenNames,
      (element name).first (b ++ s) = none := by
    intro a b hab hb name hname
    obtain ⟨init, d, rfl⟩ := (List.eq_nil_or_concat b).resolve_left hb
    rw [List.concat_eq_append] at hab ⊢
    rw [← List.append_assoc, ← List.cons_append] at hab
    obtain ⟨hinit, hd⟩ := List.append_inj' hab rfl
    obtain rfl := (List.cons.inj hd).1
    have hsuffix : init <:+ '<' :: inside := ⟨a, hinit.symm⟩
    have hplain : '>' ∉ init := fun hmem =>
      (List.mem_cons.mp (hsuffix.subset hmem)).elim (by decide) hgt
    rw [List.append_assoc]
    exact first_element_of_tag hname hplain fun hstarts =>
      hopen name hname (hstarts.isInfix.trans hsuffix.isInfix)
  have happend := removeElements_append hnone
  simpa only [List.cons_append, List.append_assoc, List.nil_append] using happend

theorem removeElements_element {name : String} {attributes body : List Char}
    (hname : name ∈ hiddenNames) (hgt : '>' ∉ attributes) (hbody : ¬ closer name <:+: body)
    (s : List Char) : removeElements (("<" ++ name).toList ++
      (attributes ++ '>' :: (body ++ (closer name ++ s)))) = removeElements s := by
  have hfirst := first_element hname hgt hbody s
  have hfound : reScriptStyle.first (("<" ++ name).toList ++
      (attributes ++ '>' :: (body ++ (closer name ++ s)))) = some ([], s) := by
    rw [first_reScriptStyle]
    simp only [hiddenNames, List.mem_cons, List.not_mem_nil, or_false] at hname
    rcases hname with rfl | rfl
    · rw [hfirst, Option.some_or]
    · have hscript : ¬ ("<" ++ "script").toList <+: ("<" ++ "style").toList ++
          (attributes ++ '>' :: (body ++ (closer "style" ++ s))) := by
        intro h
        have hrest := (List.cons_prefix_cons.mp (List.cons_prefix_cons.mp h).2).2
        exact absurd (List.cons_prefix_cons.mp hrest).1 (by decide)
      rw [first_element_of_no_opening "script" hscript, hfirst, Option.none_or]
  have hwhole : ("<" ++ name).toList ++ (attributes ++ '>' :: (body ++ (closer name ++ s))) =
      (("<" ++ name).toList ++ (attributes ++ '>' :: (body ++ closer name))) ++ s := by simp
  rw [hwhole] at hfound ⊢
  exact Regex.replaceAll_match (by simp) hfound

theorem Shows.stripped {a t : List Char} (h : Shows rest a t) :
    decodeEntities (removeTags (removeElements (a ++ rest))) =
      t ++ decodeEntities (removeTags (removeElements rest)) := by
  induction h with
  | nil => rfl
  | char hlt hamp _ ih =>
    rw [← List.singleton_append, List.append_assoc,
      removeElements_append_plain (List.forall_mem_singleton.mpr hlt),
      removeTags_append_plain (List.forall_mem_singleton.mpr hlt),
      decodeEntities_append_plain (List.forall_mem_singleton.mpr hamp), ih]
    rfl
  | entity hname _ ih =>
    have hlt := entity_not_tag hname
    rw [List.append_assoc, removeElements_append_plain hlt, removeTags_append_plain hlt,
      decodeEntities_entity (fun c hc => ⟨(hname c hc).1, (hname c hc).2.2⟩), ih,
      List.append_assoc]
  | tag hgt hopen _ ih =>
    rw [List.cons_append, List.append_assoc, List.cons_append, removeElements_tag hgt hopen,
      removeTags_tag hgt, ih]
  | element hname hgt hbody _ ih =>
    rw [List.append_assoc, List.append_assoc, List.cons_append, List.append_assoc,
      List.append_assoc, removeElements_element hname hgt hbody, ih]

theorem htmlToText_of_shows {html t : List Char} (h : Shows [] html t) :
    htmlToText html = cleanUp t := by
  have hstripped := h.stripped
  rw [List.append_nil] at hstripped
  refine congrArg cleanUp (hstripped.trans ?_)
  exact List.append_nil t

end Passes

section Closed

/-- A tag is one of an element if it starts with its name, in either case, and the name ends
there. -/
def Names (name : String) (inside : List Char) : Prop :=
  (inside.take name.toList.length).map Char.toLower = name.toList ∧
    (inside.drop name.toList.length).head?.all fun c => isSpace c || c = '/'

instance (name : String) (inside : List Char) : Decidable (Names name inside) :=
  inferInstanceAs (Decidable (_ ∧ _))

def EndTag (name : String) (s : List Char) : Prop :=
  ∃ written blanks, s = '<' :: '/' :: (written ++ (blanks ++ ['>'])) ∧
    written.map Char.toLower = name.toList ∧ ∀ c ∈ blanks, isSpace c

/-- Closed fragments as HTML has them, with what is left of them without scripts, styles and tags
and with each entity read. -/
inductive Closed : List Char → List Char → Prop
  | nil : Closed [] []
  | char {c : Char} {a t : List Char} (hlt : c ≠ '<') (hamp : c ≠ '&') (h : Closed a t) :
    Closed (c :: a) (c :: t)
  | entity {name a t : List Char} (hname : ∀ c ∈ name, c ≠ '&' ∧ c ≠ '<' ∧ c ≠ ';')
    (h : Closed a t) : Closed (entity name ++ a) (readEntity entities name ++ t)
  | tag {inside a t : List Char} (hgt : '>' ∉ inside)
    (hname : ∀ name ∈ hiddenNames, ¬ Names name inside) (h : Closed a t) :
    Closed ('<' :: (inside ++ '>' :: a)) t
  | element {name : String} {inside body ending a t : List Char} (hname : name ∈ hiddenNames)
    (hgt : '>' ∉ inside) (hinside : Names name inside)
    (hbody : ∀ e, EndTag name e → ¬ e <:+: body) (hending : EndTag name ending)
    (h : Closed a t) : Closed ('<' :: (inside ++ '>' :: (body ++ (ending ++ a)))) t

end Closed

end Smtp

end NotiService
