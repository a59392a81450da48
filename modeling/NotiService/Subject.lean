import NotiService.Pages
import NotiService.Smtp

/-! The subject of a mail: one line of words, fixed by the template that rendered the content.
A page has its title before anything that depends on a variable, and a text never begins like a
page. -/

namespace NotiService
open Foundation Text

/-- The start of a page: what stands before its title, and the title. -/
structure Head where
  before : List Char
  title : List Char

def Head.text (h : Head) : List Char :=
  h.before ++ ("<title>".toList ++ (h.title ++ "</title>".toList))

def HtmlTemplates.leading : List Piece → List Char
  | .text s :: pieces => s.chars ++ leading pieces
  | _ => []

namespace Templates

def leading : List Seg → List Char
  | .text s :: segs => s.toList ++ leading segs
  | _ => []

/-- After white space a text starts with something else than a tag. -/
def StartsPlain (segs : List Seg) : Bool :=
  match trimStart (leading segs) with
  | [] => false
  | c :: _ => c ≠ '<'

theorem textTemplates_startPlain : ∀ p ∈ textTemplates, StartsPlain p.2 := by decide

end Templates

namespace Smtp

/-- No part of the text can be the start of `<title`, whatever follows. -/
def Untitled : List Char → Bool
  | [] => true
  | c :: s => (c.toLower ≠ '<' || s.head?.any fun d => d.toLower ≠ 't') && Untitled s

variable {x y s rest lead more : List Char} {c : Char} {h : Head} {id : String}

theorem first_reTitle_of_untitled (h : Untitled (c :: s)) : reTitle.first (c :: s ++ y) = none := by
  refine Regex.first_eq_none.mpr ?_
  rw [reTitle, ignoringCase, Regex.ways_word, if_neg]
  simp only [Untitled, Bool.and_eq_true, Bool.or_eq_true, decide_eq_true_eq] at h
  rcases h.1 with hc | hd
  · simp [Regex.Starts, hc]
  · cases s with
    | nil => cases hd
    | cons d s =>
      have hd : d.toLower ≠ 't' := by simpa using hd
      simp [Regex.Starts, hd]

theorem untitled_of_append (h : Untitled (x ++ y)) : Untitled y := by
  induction x with
  | nil => exact h
  | cons c x ih =>
    simp only [List.cons_append, Untitled, Bool.and_eq_true] at h
    exact ih h.2

theorem ways_ignoringCase (w : String) (t : Regex Char) : (ignoringCase w t).ways s =
    if Regex.Starts (w.toList.map fun a c => decide (c.toLower = a)) s then
      t.ways (s.drop w.toList.length) else [] := by
  rw [ignoringCase, Regex.ways_word, List.length_map]

theorem first_reTitle {title : List Char} (h : ∀ c ∈ title, c.toLower ≠ '<') :
    reTitle.first ("<title>".toList ++ (title ++ ("</title>".toList ++ rest))) =
      some ([title], rest) := by
  have hend : (ignoringCase "</title>" .empty).first ("</title>".toList ++ rest) =
      some ([], rest) := by
    rw [Regex.first, ways_ignoringCase]
    rfl
  have hnone : ∀ a b, title = a ++ b → b ≠ [] →
      (ignoringCase "</title>" .empty).ways (b ++ ("</title>".toList ++ rest)) = [] := by
    intro a b hab hb
    cases b with
    | nil => exact absurd rfl hb
    | cons c b =>
      have hc := h c (hab ▸ List.mem_append_right a (List.mem_cons_self ..))
      rw [ways_ignoringCase, if_neg]
      simp [Regex.Starts, hc]
  have hcaptured := Regex.first_group_lazy (p := fun _ => true) (fun _ _ => rfl) hnone hend
  rw [Regex.first, reTitle, ways_ignoringCase]
  refine Eq.trans ?_ hcaptured
  have huntil := Regex.ways_until (t := .seq (.group anything) (ignoringCase "</title>" .empty))
    (s := title ++ ("</title>".toList ++ rest)) true (List.not_mem_nil : '>' ∉ [])
  exact congrArg List.head? huntil

theorem find_reTitle (hbefore : Untitled x) {title : List Char}
    (htitle : ∀ c ∈ title, c.toLower ≠ '<') (rest : List Char) :
    reTitle.find (x ++ ("<title>".toList ++ (title ++ ("</title>".toList ++ rest)))) =
      some ([title], rest) := by
  rw [Regex.find_append]
  · exact Regex.find_of_first (first_reTitle htitle)
  · intro a b hab hb
    cases b with
    | nil => exact absurd rfl hb
    | cons c b =>
      rw [hab] at hbefore
      exact first_reTitle_of_untitled (untitled_of_append hbefore)

/-- A head that has no tag in its title, nor an earlier title. -/
def HeadPlain (h : Head) : Prop := Untitled h.before ∧ ∀ c ∈ h.title, c.toLower ≠ '<'

/-- The text starts with such a head. -/
def titled : List Char → Bool
  | [] => false
  | c :: s =>
    if "<title>".toList <+: c :: s then
      "</title>".toList <+: (s.drop 6).dropWhile fun c => c.toLower ≠ '<'
    else
      (c.toLower ≠ '<' || s.head?.any fun d => d.toLower ≠ 't' && d ≠ '<') && titled s

theorem exists_head (hs : titled s) : ∃ h : Head, HeadPlain h ∧ ∃ rest, s = h.text ++ rest := by
  induction s with
  | nil => cases hs
  | cons c s ih =>
    rw [titled] at hs
    split at hs
    · next hstart =>
      obtain ⟨more, hmore⟩ := hstart
      obtain ⟨rest, hrest⟩ := of_decide_eq_true hs
      obtain rfl : more = s.drop 6 := by
        rw [← (List.cons.inj hmore).2]
        rfl
      refine ⟨⟨[], (s.drop 6).takeWhile fun c => c.toLower ≠ '<'⟩, ⟨rfl, fun c hc => ?_⟩, rest, ?_⟩
      · simpa using List.mem_takeWhile_imp hc
      · rw [← hmore, Head.text, List.nil_append, List.append_assoc, List.append_assoc, hrest]
        exact congrArg ("<title>".toList ++ ·) List.takeWhile_append_dropWhile.symm
    · obtain ⟨hc, hs⟩ := Bool.and_eq_true_iff.mp hs
      obtain ⟨h, ⟨hbefore, htitle⟩, rest, rfl⟩ := ih hs
      refine ⟨⟨c :: h.before, h.title⟩, ⟨?_, htitle⟩, rest, rfl⟩
      rw [Untitled, hbefore, Bool.and_true]
      refine Bool.or_eq_true_iff.mpr ((Bool.or_eq_true_iff.mp hc).imp id fun hnext => ?_)
      -- behind the last letter before the title stands its `<`
      cases hletters : h.before with
      | nil => simp [Head.text, hletters] at hnext
      | cons d before =>
        have hd : d.toLower ≠ 't' ∧ d ≠ '<' := by simpa [Head.text, hletters] using hnext
        simpa using hd.1

theorem pages_titled : ∀ p ∈ HtmlTemplates.pages,
    "<!DOCTYPE".toList <+: HtmlTemplates.leading p.2 ∧ titled (HtmlTemplates.leading p.2) := by
  decide +kernel

theorem looksLikeHtml_of_doctype (s : List Char) :
    looksLikeHtml ("<!DOCTYPE".toList ++ s) = true := by
  have hstart : trimStart ("<!DOCTYPE".toList ++ s) = "<!DOCTYPE".toList ++ s := trimStart_cons rfl
  have hend : trimEnd ("<!DOCTYPE".toList ++ s) = "<!DOCTYPE".toList ++ trimEnd s :=
    trimEnd_append_cons (s := "<!DOCTYP".toList) (c := 'E') rfl
  rw [looksLikeHtml, trim, hstart, hend]
  rfl

theorem looksLikeHtml_of_head (hc : c ≠ '<') (hs : (trim s).head? = some c) :
    looksLikeHtml s = false := by
  obtain ⟨more, hmore⟩ := List.head?_eq_some_iff.mp hs
  have hother : ∀ w, List.isPrefixOf ('<' :: w) (c :: more) = false := by
    intro w
    rw [List.isPrefixOf, beq_false_of_ne (Ne.symm hc), Bool.false_and]
  rw [looksLikeHtml, hmore, Bool.or_eq_false_iff]
  exact ⟨hother "!DOCTYPE".toList, hother "html".toList⟩

theorem looksLikeHtml_of_leading {lead more : List Char} (h : trimStart lead = c :: more)
    (hc : c ≠ '<') (y : List Char) : looksLikeHtml (lead ++ y) = false := by
  have hne : lead.dropWhile whitespace ≠ [] := by
    change trimStart lead ≠ []
    rw [h]
    exact List.cons_ne_nil c more
  have hplain : whitespace c = false := by
    have hfirst := List.head_dropWhile_not whitespace hne
    change whitespace ((trimStart lead).head _) = false at hfirst
    simpa only [h, List.head_cons] using hfirst
  have hstart : trimStart (lead ++ y) = c :: (more ++ y) := by
    have hempty : (lead.dropWhile whitespace).isEmpty = false := by simpa using hne
    rw [trimStart, List.dropWhile_append, hempty]
    exact congrArg (· ++ y) h
  refine looksLikeHtml_of_head hc ?_
  rw [trim, hstart]
  exact head?_trimEnd ⟨c, List.mem_cons_self .., hplain⟩ rfl

theorem looksLikeHtml_of_blank (h : ∀ c ∈ s, whitespace c) : looksLikeHtml s = false := by
  have htrim : trim s = [] := by
    have hstart : trimStart s = [] := List.dropWhile_eq_nil_iff.mpr h
    rw [trim, hstart]
    rfl
  rw [looksLikeHtml, htrim]
  rfl

theorem extractSubject_singleLine (h : extractSubject s = some x) : SingleLine x := by
  unfold extractSubject at h
  split at h
  · next raw _ _ _ =>
    obtain ⟨hne, h⟩ := Option.ite_none_left_eq_some.mp h
    obtain rfl := Option.some.inj h
    refine .join (fun hwords => hne ?_) fun w hw => words_spec hw
    rw [hwords]
    rfl
  · cases h

theorem subject_singleLine (content : String) : SingleLine (subject content).toList := by
  have hdefault : SingleLine defaultSubject.toList :=
    .join (List.cons_ne_nil "GridTokenX".toList ["Notification".toList])
      (List.forall_mem_cons.mpr ⟨⟨by decide, forall_mem_of_all (by decide)⟩,
        List.forall_mem_singleton.mpr ⟨by decide, forall_mem_of_all (by decide)⟩⟩)
  unfold subject
  split
  · cases hextract : extractSubject content.toList with
    | none => exact hdefault
    | some s =>
      have hs := extractSubject_singleLine hextract
      rwa [Option.map_some, Option.getD_some, String.toList_ofList]
  · exact hdefault

theorem subject_of_email {env : SmtpEnv} {recipient content : String} {mail : Mail}
    (h : email env recipient content = .ok mail) : mail.subject = subject content := by
  simp only [email, bind, Except.bind] at h
  split at h
  · cases h
  · split at h
    · cases h
    · split at h
      · cases h
      · cases h
        rfl

theorem extractSubject_of_head (hplain : HeadPlain h) (rest : List Char) :
    extractSubject (h.text ++ rest) = extractSubject h.text := by
  obtain ⟨huntitled, htitle⟩ := hplain
  have hfind : ∀ rest, reTitle.find (h.text ++ rest) = some ([h.title], rest) := by
    intro rest
    have hcaptured := find_reTitle huntitled htitle rest
    rwa [Head.text, List.append_assoc, List.append_assoc, List.append_assoc]
  have hwhole := hfind []
  rw [List.append_nil] at hwhole
  unfold extractSubject
  rw [hfind rest, hwhole]

theorem subject_of_head (hplain : HeadPlain h) {content : String}
    (hdoctype : "<!DOCTYPE".toList <+: content.toList)
    (hcontent : content.toList = h.text ++ rest) :
    subject content = ((extractSubject h.text).map String.ofList).getD defaultSubject := by
  have hhtml : looksLikeHtml content.toList = true := by
    obtain ⟨more, hmore⟩ := hdoctype
    rw [← hmore]
    exact looksLikeHtml_of_doctype more
  rw [subject, if_pos hhtml, hcontent, extractSubject_of_head hplain]

theorem subject_of_not_html {content : String} (h : looksLikeHtml content.toList = false) :
    subject content = defaultSubject :=
  if_neg (Bool.eq_false_iff.mp h)

end Smtp

namespace Tera
open Smtp

variable {T : Tera} {id : String} {vars : Json} {now : Int} {c : String}

theorem segments_leading {segs : List Seg} (h : T.segments vars now segs = some c) :
    ∃ rest, c.toList = Templates.leading segs ++ rest := by
  induction segs generalizing c with
  | nil => exact ⟨c.toList, rfl⟩
  | cons seg segs ih =>
    cases seg with
    | text s =>
      obtain ⟨tail, htail, rfl⟩ := segments_text.mp h
      obtain ⟨rest, hrest⟩ := ih htail
      exact ⟨rest, by rw [String.toList_append, hrest, Templates.leading, List.append_assoc]⟩
    | _ => exact ⟨c.toList, rfl⟩

theorem textTemplate_mem {segs : List Seg} (h : textTemplate id = some segs) :
    (id, segs) ∈ Templates.textTemplates := by
  obtain ⟨p, hp, rfl⟩ := Option.map_eq_some_iff.mp h
  have hid : p.1 = id := by simpa using List.find?_some hp
  exact hid ▸ List.mem_of_find?_eq_some hp

theorem subject_of_segments {segs : List Seg} (hsegs : (id, segs) ∈ Templates.textTemplates)
    (h : T.segments vars now segs = some c) : subject c = defaultSubject := by
  obtain ⟨rest, hrest⟩ := segments_leading h
  have hplain := Templates.textTemplates_startPlain _ hsegs
  refine subject_of_not_html ?_
  rw [hrest]
  unfold Templates.StartsPlain at hplain
  split at hplain
  · cases hplain
  · next d more hlead => exact looksLikeHtml_of_leading hlead (of_decide_eq_true hplain) rest

theorem leading_of_print {pieces : List Piece} (h : HtmlTemplates.print T vars pieces = some c) :
    ∃ rest, c.toList = HtmlTemplates.leading pieces ++ rest := by
  induction pieces generalizing c with
  | nil => exact ⟨c.toList, rfl⟩
  | cons piece pieces ih =>
    cases piece with
    | text s =>
      obtain ⟨_, tail, hs, htail, rfl⟩ := HtmlTemplates.print_cons.mp h
      cases hs
      obtain ⟨rest, hrest⟩ := ih htail
      refine ⟨rest, ?_⟩
      rw [String.toList_append, hrest, Markup.Literal.toList_text, HtmlTemplates.leading,
        List.append_assoc]
    | _ => exact ⟨c.toList, rfl⟩

theorem exists_subject_page (T : Tera) (hid : id ∈ Templates.pages) : ∃ s, ∀ vars now c,
    T.shipped.render id vars now = some c → subject c = s := by
  have hfound : ∀ id ∈ Templates.pages, (HtmlTemplates.pages.find? fun p => p.1 = id).isSome := by
    decide
  obtain ⟨p, hp⟩ := Option.isSome_iff_exists.mp (hfound id hid)
  obtain ⟨hdoctype, htitled⟩ := pages_titled p (List.mem_of_find?_eq_some hp)
  obtain ⟨h, hplain, lead, hlead⟩ := exists_head htitled
  refine ⟨((extractSubject h.text).map String.ofList).getD defaultSubject, fun vars now c hc => ?_⟩
  obtain ⟨p', hp', hprint⟩ := render_shipped hid hc
  obtain rfl : p = p' := Option.some.inj (hp.symm.trans hp')
  obtain ⟨rest, hrest⟩ := leading_of_print hprint
  have hstart : "<!DOCTYPE".toList <+: c.toList := by
    rw [hrest]
    exact hdoctype.trans (List.prefix_append ..)
  have hcontent : c.toList = h.text ++ (lead ++ rest) := by rw [hrest, hlead, List.append_assoc]
  exact subject_of_head hplain hstart hcontent

theorem exists_subject (T : Tera) (id : String) : ∃ s, ∀ vars now c,
    T.shipped.render id vars now = some c → subject c = s := by
  by_cases hid : id ∈ Templates.pages
  · exact exists_subject_page T hid
  · refine ⟨defaultSubject, fun vars now c hc => ?_⟩
    unfold render at hc
    split at hc
    · split at hc
      · next segs hsegs => exact subject_of_segments (textTemplate_mem hsegs) hc
      · obtain ⟨hhtml, hc⟩ := Option.ite_none_right_eq_some.mp hc
        obtain rfl := (List.mem_cons.mp hhtml).resolve_right hid
        obtain rfl := Option.some.inj hc
        exact subject_of_not_html (looksLikeHtml_of_blank (forall_mem_of_all (by decide)))
    · cases hc

end Tera

namespace Smtp

/-- The subject of every mail is one line of words, it is the default unless the content is a
page, and two mails of one template have the same. -/
theorem subject_not_injected (T : Tera) (env : SmtpEnv) :
    (∀ recipient content mail, email env recipient content = .ok mail →
      SingleLine mail.subject.toList ∧
      (¬ "<!DOCTYPE".toList <+: trim content.toList → ¬ "<html".toList <+: trim content.toList →
        mail.subject = "GridTokenX Notification")) ∧
    ∀ id vars vars' now now' content content', T.shipped.render id vars now = some content →
      T.shipped.render id vars' now' = some content' →
      ∀ recipient recipient' mail mail', email env recipient content = .ok mail →
        email env recipient' content' = .ok mail' → mail.subject = mail'.subject := by
  constructor
  · intro recipient content mail hmail
    rw [subject_of_email hmail]
    refine ⟨subject_singleLine content, fun hdoctype hhtml => subject_of_not_html ?_⟩
    rw [looksLikeHtml, Bool.or_eq_false_iff, Bool.eq_false_iff, Bool.eq_false_iff]
    exact ⟨mt List.isPrefixOf_iff_prefix.mp hdoctype, mt List.isPrefixOf_iff_prefix.mp hhtml⟩
  · intro id vars vars' now now' content content' hc hc' recipient recipient' mail mail' hm hm'
    obtain ⟨s, hs⟩ := Tera.exists_subject T id
    rw [subject_of_email hm, subject_of_email hm', hs _ _ _ hc, hs _ _ _ hc']

def okEnv : SmtpEnv where
  fromEmail := "noti@x.test"
  parseMailbox := .ok
  build _ := .ok ()
  transport _ := .ok none

theorem subject_not_injected_welcome : ∃ content content' mail mail',
    Tera.sample.shipped.render "welcome.html.tera" (.obj [("name", .str "</strong><title>b")]) 0 =
      some content ∧
    Tera.sample.shipped.render "welcome.html.tera" (.obj []) 0 = some content' ∧
    email okEnv "a@x.test" content = .ok mail ∧ email okEnv "a@x.test" content' = .ok mail' ∧
    mail.subject = mail'.subject := by
  have hrequired : Templates.required "welcome.html.tera" = some [] := by decide +kernel
  have hrenders : ∀ members, ∃ content, Tera.sample.shipped.render "welcome.html.tera"
      (.obj members) 0 = some content := fun members =>
    Option.isSome_iff_exists.mp
      (Tera.render_isSome_iff.mpr ⟨[], hrequired, List.forall_mem_nil _⟩)
  obtain ⟨content, hcontent⟩ := hrenders [("name", .str "</strong><title>b")]
  obtain ⟨content', hcontent'⟩ := hrenders []
  exact ⟨content, content', _, _, hcontent, hcontent', rfl, rfl,
    (subject_not_injected Tera.sample okEnv).2 _ _ _ _ _ _ _ hcontent hcontent' _ _ _ _ rfl rfl⟩

end Smtp

end NotiService
