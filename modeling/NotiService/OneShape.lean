import NotiService.Templates
import NotiService.Wire

/-! Whether a pushed frame and a list row of one notification show the same. The frame is
rendered from the row's own template, the list row from its text sibling at another time, and
both are split into title and message. -/

namespace NotiService
open Foundation Text

namespace Wire

section Layout

variable {first under rest : List Char} {k c : Char}

theorem splitHeading_trim_headed (hk : first.head? = some k) (hspace : whitespace k = false)
    (hfirst : '\n' ∉ first) (hunder : '\n' ∉ under) (hline : isUnderline (trim under))
    (hrest : ∃ d ∈ rest, whitespace d = false) :
    splitHeading (trim (first ++ '\n' :: (under ++ '\n' :: rest))) =
      (some (trim first), trimEnd rest) := by
  have htrim : trim (first ++ '\n' :: (under ++ '\n' :: rest)) =
      first ++ '\n' :: (under ++ '\n' :: trimEnd rest) := by
    cases first with
    | nil => cases hk
    | cons k' first =>
      obtain rfl : k' = k := Option.some.inj hk
      rw [trim, List.cons_append, trimStart_cons hspace]
      have happend := trimEnd_append_text (s := k' :: (first ++ '\n' :: (under ++ ['\n']))) hrest
      simpa using happend
  rw [htrim, splitHeading_headed hfirst hunder hline]

theorem splitHeading_trim_plain (hk : first.head? = some k) (hspace : whitespace k = false)
    (hfirst : '\n' ∉ first) (hhead : rest.head? = some c)
    (hc : c = '\n' ∨ (whitespace c = false ∧ c ≠ '-' ∧ c ≠ '='))
    (hrest : ∃ d ∈ rest, whitespace d = false) :
    splitHeading (trim (first ++ '\n' :: rest)) = (none, first ++ '\n' :: trimEnd rest) := by
  have htrim : trim (first ++ '\n' :: rest) = first ++ '\n' :: trimEnd rest := by
    cases first with
    | nil => cases hk
    | cons k' first =>
      obtain rfl : k' = k := Option.some.inj hk
      rw [trim, List.cons_append, trimStart_cons hspace]
      have happend := trimEnd_append_text (s := k' :: (first ++ ['\n'])) hrest
      simpa using happend
  rw [htrim, splitHeading_plain hfirst (head?_trimEnd hrest hhead) hc]

end Layout

def heading (rendered : String) : Option (List Char) := (splitHeading (trim rendered.toList)).1

def bodyText (rendered : String) : List Char := trim (splitHeading (trim rendered.toList)).2

theorem titleAndMessage_eq (upper : Uppercase) (templateId : String) (vars : Json)
    (rendered : String) :
    titleAndMessage upper templateId vars rendered =
      ((variableOf vars ["title", "headline"]).getD
        (((heading rendered).map String.ofList).getD (humanize upper (templateStem templateId))),
      (variableOf vars ["body"]).getD (String.ofList (bodyText rendered))) := rfl

section Rendered

variable {T : Tera} {upper : Uppercase} {id : String} {vars : Json} {now : Int} {rendered : String}
  {k k' : Char} {segs : List Seg}

theorem of_headed (line under : String) {a u b : String}
    (h : T.segments vars now (.text a :: .text u :: .text b :: segs) = some rendered)
    (ha : a = line ++ "\n") (hu : u = under ++ "\n") (hk : line.toList.head? = some k)
    (hspace : whitespace k = false) (hline : '\n' ∉ line.toList) (hunder : '\n' ∉ under.toList)
    (hunderline : isUnderline (trim under.toList)) (hb : b.toList.head? = some k')
    (hspace' : whitespace k' = false) :
    heading rendered = some (trim line.toList) ∧ (bodyText rendered).head? = some k' := by
  obtain ⟨_, h₁, rfl⟩ := Tera.segments_text.mp h
  obtain ⟨_, h₂, rfl⟩ := Tera.segments_text.mp h₁
  obtain ⟨rest, -, rfl⟩ := Tera.segments_text.mp h₂
  obtain ⟨b', hb'⟩ : ∃ b', b.toList = k' :: b' := List.head?_eq_some_iff.mp hb
  have hmem : ∃ d ∈ k' :: (b' ++ rest.toList), whitespace d = false :=
    ⟨k', List.mem_cons_self .., hspace'⟩
  have hsplit := splitHeading_trim_headed hk hspace hline hunder hunderline hmem
  have htext : (a ++ (u ++ (b ++ rest))).toList =
      line.toList ++ '\n' :: (under.toList ++ '\n' :: (k' :: (b' ++ rest.toList))) := by
    simp [ha, hu, hb']
  rw [heading, bodyText, htext, hsplit]
  exact ⟨rfl, head?_trim hspace' (head?_trimEnd hmem rfl)⟩

theorem of_plain (line : String) {a b : String}
    (h : T.segments vars now (.text a :: .text "\n" :: .text b :: segs) = some rendered)
    (ha : a = line ++ "\n") (hk : line.toList.head? = some k) (hspace : whitespace k = false)
    (hline : '\n' ∉ line.toList) (hb : b.toList.head? = some k') (hspace' : whitespace k' = false) :
    heading rendered = none ∧ (bodyText rendered).head? = some k := by
  obtain ⟨_, h₁, rfl⟩ := Tera.segments_text.mp h
  obtain ⟨_, h₂, rfl⟩ := Tera.segments_text.mp h₁
  obtain ⟨rest, -, rfl⟩ := Tera.segments_text.mp h₂
  obtain ⟨b', hb'⟩ : ∃ b', b.toList = k' :: b' := List.head?_eq_some_iff.mp hb
  obtain ⟨line', hline'⟩ : ∃ line', line.toList = k :: line' := List.head?_eq_some_iff.mp hk
  have hmem : ∃ d ∈ '\n' :: (k' :: (b' ++ rest.toList)), whitespace d = false :=
    ⟨k', by simp, hspace'⟩
  have hsplit := splitHeading_trim_plain hk hspace hline rfl (.inl rfl) hmem
  have htext : (a ++ ("\n" ++ (b ++ rest))).toList =
      line.toList ++ '\n' :: ('\n' :: (k' :: (b' ++ rest.toList))) := by simp [ha, hb']
  rw [heading, bodyText, htext, hsplit]
  exact ⟨rfl, head?_trim hspace (by simp [hline'])⟩

theorem of_signed (a x' last : String) {middle : List Seg}
    (h : T.segments vars now segs = some rendered)
    (hsegs : segs = .text a :: (middle ++ [.text (x' ++ "\n"), .text "\n", .text (last ++ "\n")]))
    (ha : a.toList.head? = some k) (hspace : whitespace k = false)
    (hlast : last.toList.getLast? = some k') (hspace' : whitespace k' = false) :
    (∀ line, heading rendered = some line → line.head? = some k) ∧
      (bodyText rendered).getLast? = some k' := by
  rw [hsegs] at h
  obtain ⟨_, h₁, rfl⟩ := Tera.segments_text.mp h
  obtain ⟨m, tail, -, h₂, rfl⟩ := Tera.segments_append.mp h₁
  obtain ⟨_, h₃, rfl⟩ := Tera.segments_text.mp h₂
  obtain ⟨_, h₄, rfl⟩ := Tera.segments_text.mp h₃
  obtain ⟨_, h₅, rfl⟩ := Tera.segments_text.mp h₄
  cases h₅
  obtain ⟨a', ha⟩ : ∃ a', a.toList = k :: a' := List.head?_eq_some_iff.mp ha
  obtain ⟨init, hinit⟩ := List.getLast?_eq_some_iff.mp hlast
  let first := k :: (a' ++ m.toList ++ x'.toList)
  have htext : (a ++ (m ++ (x' ++ "\n" ++ ("\n" ++ (last ++ "\n" ++ ""))))).toList =
      k :: (a' ++ m.toList ++ x'.toList ++ '\n' :: '\n' :: (init ++ [k'])) ++ ['\n'] := by
    simp [ha, hinit]
  have htrim : trim (a ++ (m ++ (x' ++ "\n" ++ ("\n" ++ (last ++ "\n" ++ ""))))).toList =
      first ++ '\n' :: ([] ++ '\n' :: last.toList) := by
    rw [htext, trim, List.cons_append, trimStart_cons hspace, ← List.cons_append,
      trimEnd_append_space rfl, hinit]
    have hsolid := trimEnd_append hspace'
      (s := k :: (a' ++ m.toList ++ x'.toList ++ '\n' :: '\n' :: init))
    simpa [first] using hsolid
  refine ⟨fun line hline => head?_splitHeading hspace ?_ hline, getLast?_trim hspace' ?_⟩
  · rw [htrim]
    rfl
  · obtain ⟨w, hw⟩ : last.toList <:+ (splitHeading
        (first ++ '\n' :: ([] ++ '\n' :: last.toList))).2 :=
      suffix_splitHeading
    rw [htrim, ← hw, List.getLast?_append, hlast]
    rfl

theorem of_clocked (line under : String) {a u b : String} {middle post : List Seg}
    {rendered' : String}
    (h : T.segments vars now (.text a :: .text u :: .text b :: (middle ++ .now :: post)) =
    some rendered)
    (h' : T.segments vars (now + 1000) (.text a :: .text u :: .text b :: (middle ++ .now :: post)) =
      some rendered')
    (hmiddle : .now ∉ middle) (hpost : .now ∉ post) (ha : a = line ++ "\n") (hu : u = under ++ "\n")
    (hk : line.toList.head? = some k) (hspace : whitespace k = false) (hline : '\n' ∉ line.toList)
    (hunder : '\n' ∉ under.toList) (hunderline : isUnderline (trim under.toList))
    (hb : b.toList.head? = some k') (hspace' : whitespace k' = false) :
    bodyText rendered ≠ bodyText rendered' := by
  have body : ∀ t text, T.segments vars t (.text a :: .text u :: .text b ::
    (middle ++ .now :: post)) =
      some text → ∃ m e, T.segments vars t middle = some m ∧ T.segments vars t post = some e ∧
        bodyText text = b.toList ++ m.toList ++ (T.timestamp t).toList ++ trimEnd e.toList := by
    intro t text htext
    obtain ⟨_, h₁, rfl⟩ := Tera.segments_text.mp htext
    obtain ⟨_, h₂, rfl⟩ := Tera.segments_text.mp h₁
    obtain ⟨_, h₃, rfl⟩ := Tera.segments_text.mp h₂
    obtain ⟨m, _, hm, h₄, rfl⟩ := Tera.segments_append.mp h₃
    obtain ⟨_, e, hnow, he, rfl⟩ := Tera.segments_cons.mp h₄
    obtain rfl := Option.some.inj hnow
    refine ⟨m, e, hm, he, ?_⟩
    obtain ⟨b', hb'⟩ : ∃ b', b.toList = k' :: b' := List.head?_eq_some_iff.mp hb
    obtain ⟨digits, c, hdigits, hdigit⟩ := T.timestamp_digit t
    have hc := whitespace_of_isDigit hdigit
    let rest := k' :: (b' ++ m.toList ++ digits ++ c :: e.toList)
    have hmem : ∃ d ∈ rest, whitespace d = false := ⟨k', List.mem_cons_self .., hspace'⟩
    have hsplit := splitHeading_trim_headed hk hspace hline hunder hunderline hmem
    have htext : (a ++ (u ++ (b ++ (m ++ (T.timestamp t ++ e))))).toList =
        line.toList ++ '\n' :: (under.toList ++ '\n' :: rest) := by simp [ha, hu, hb', hdigits,
          rest]
    have hend : trimEnd rest = k' :: (b' ++ m.toList ++ digits ++ c :: trimEnd e.toList) := by
      have hcons := trimEnd_append_cons (s := k' :: (b' ++ m.toList ++ digits)) (t := e.toList) hc
      simpa [rest] using hcons
    have hagain : trimEnd (k' :: (b' ++ m.toList ++ digits ++ c :: trimEnd e.toList)) =
        k' :: (b' ++ m.toList ++ digits ++ c :: trimEnd e.toList) := by
      have hcons := trimEnd_append_cons (s := k' :: (b' ++ m.toList ++ digits))
        (t := trimEnd e.toList) hc
      rw [show trimEnd (trimEnd e.toList) = trimEnd e.toList from List.rdropWhile_idempotent
        ..] at hcons
      simpa using hcons
    rw [bodyText, htext, hsplit, hend, trim, trimStart_cons hspace', hagain, hb', hdigits]
    simp
  obtain ⟨m, e, hm, he, hbody⟩ := body now rendered h
  obtain ⟨m', e', hm', he', hbody'⟩ := body (now + 1000) rendered' h'
  rw [Tera.segments_timeless hmiddle, hm'] at hm
  rw [Tera.segments_timeless hpost, he'] at he
  obtain rfl := Option.some.inj hm
  obtain rfl := Option.some.inj he
  intro heq
  rw [hbody, hbody', List.append_left_inj, List.append_right_inj] at heq
  exact T.timestamp_second now (String.toList_injective heq)

theorem of_page (hid : id ∈ Templates.pages) (h : T.html id vars = some rendered) :
    heading rendered = none ∧ (bodyText rendered).head? = some '<' ∧
      (bodyText rendered).getLast? = some '>' := by
  obtain ⟨inner, rfl⟩ := T.html_page id hid vars rendered h
  have hmem : ∃ d ∈ "<html".toList ++ inner.toList ++ "</html>".toList ++ ['\n'], whitespace d =
      false :=
    ⟨'<', by simp, rfl⟩
  have hsplit := splitHeading_trim_plain (show "<!DOCTYPE html>".toList.head? =
    some '<' from rfl) rfl
    (by decide) (c := '<') (by simp) (.inr ⟨rfl, by decide, by decide⟩) hmem
  have htext : ("<!DOCTYPE html>\n" ++ "<html" ++ inner ++ "</html>" ++ "\n").toList =
      "<!DOCTYPE html>".toList ++ '\n' ::
        ("<html".toList ++ inner.toList ++ "</html>".toList ++ ['\n']) := by simp
  have hend : trimEnd ("<html".toList ++ inner.toList ++ "</html>".toList ++ ['\n']) =
      "<html".toList ++ inner.toList ++ "</html".toList ++ ['>'] := by
    have hsolid := trimEnd_append (s := "<html".toList ++ inner.toList ++ "</html".toList)
      (c := '>') rfl
    rw [trimEnd_append_space rfl]
    simpa using hsolid
  rw [heading, bodyText, htext, hsplit, hend]
  refine ⟨rfl, head?_trim rfl (by simp), getLast?_trim rfl (List.getLast?_eq_some_iff.mpr ?_)⟩
  exact ⟨"<!DOCTYPE html>".toList ++ '\n' :: ("<html".toList ++ inner.toList ++
    "</html".toList), by simp⟩

theorem of_render_text (hsegs : Tera.textTemplate id = some segs)
    (h : T.render id vars now = some rendered) : T.segments vars now segs = some rendered := by
  unfold Tera.render at h
  rw [hsegs] at h
  cases vars with
  | obj members => exact h
  | _ => cases h

theorem render_unknown (htext : Tera.textTemplate id = none)
    (hhtml : id ∉ Templates.htmlTemplates) :
    T.render id vars now = none := by
  unfold Tera.render
  rw [htext]
  cases vars with
  | obj members => exact if_neg hhtml
  | _ => rfl

theorem humanize_eq {stem : String} (ws : List String) (h : words stem = ws.map String.toList) :
    humanize upper stem = String.ofList ([' '].intercalate
        (ws.map fun w => capitalize upper w.toList)) := by
  rw [humanize, h, List.map_map]
  rfl

/-- The text sibling of a page shows another message, and another title if it has a heading. -/
structure Sibling (upper : Uppercase) (id rendered : String) : Prop where
  body : (bodyText rendered).head? ≠ some '<' ∨ (bodyText rendered).getLast? ≠ some '>'
  title : ∀ line, heading rendered = some line →
    String.ofList line ≠ humanize upper (templateStem id)

theorem Sibling.of_headed (line title : String)
    (h : heading rendered = some (trim line.toList) ∧ (bodyText rendered).head? = some k)
    (hk : k ≠ '<') (htitle : humanize upper (templateStem id) = title)
    (hne : String.ofList (trim line.toList) ≠ title) : Sibling upper id rendered where
  body := .inl (by rw [h.2]; simpa using hk)
  title line' hline := by
    rw [h.1] at hline
    obtain rfl := Option.some.inj hline
    exact htitle ▸ hne

theorem Sibling.of_plain (h : heading rendered = none ∧ (bodyText rendered).head? = some k)
    (hk : k ≠ '<') : Sibling upper id rendered where
  body := .inl (by rw [h.2]; simpa using hk)
  title line hline := by
    rw [h.1] at hline
    cases hline

theorem Sibling.of_signed (title : String)
    (h : (∀ line, heading rendered = some line → line.head? = some k) ∧
      (bodyText rendered).getLast? = some k') (hk' : k' ≠ '>')
    (htitle : humanize upper (templateStem id) = title) (hne : title.toList.head? ≠ some k) :
    Sibling upper id rendered where
  body := .inr (by rw [h.2]; simpa using hk')
  title line hline heq := by
    rw [htitle] at heq
    refine hne ?_
    rw [← heq, String.toList_ofList]
    exact h.1 line hline

open Templates in
theorem sibling_of_render (hid : id ∈ htmlTemplates)
    (h : T.render (textTemplateId id) vars now = some rendered) : Sibling upper id rendered := by
  have unknown : ∀ id', textTemplateId id = id' → Tera.textTemplate id' = none →
      id' ∉ htmlTemplates → Sibling upper id rendered := by
    rintro id' rfl htext hhtml
    rw [render_unknown htext hhtml] at h
    cases h
  have known : ∀ segs, Tera.textTemplate (textTemplateId id) = some segs →
      T.segments vars now segs = some rendered := fun _ hsegs => of_render_text hsegs h
  simp only [htmlTemplates, pages, List.mem_cons, List.not_mem_nil, or_false] at hid
  rcases hid with rfl | rfl | rfl | rfl | rfl | rfl | rfl | rfl | rfl
  · exact unknown "_components.txt.tera" (by decide) (by decide) (by decide)
  · refine .of_headed _ "Account Locked" (of_headed "Account Temporarily Locked"
      "--------------------------" (known accountLocked rfl) rfl rfl rfl rfl (by decide) (by decide)
      (by decide) rfl rfl) (by decide) ?_ (by decide)
    rw [humanize_eq ["account", "locked"] (by decide)]
    simp [capitalize, upper.ascii]
  · exact unknown "base.txt.tera" (by decide) (by decide) (by decide)
  · refine .of_signed "Confirm Wallet" (k := 'H') (of_signed "Hello"
      "and is never registered on-chain." "— The GridTokenX Team" (known confirmWallet rfl)
      (show confirmWallet = _ :: ((confirmWallet.drop 1).rdrop 3 ++ _) from rfl) rfl rfl rfl rfl)
      (by decide) ?_ (by decide)
    rw [humanize_eq ["confirm", "wallet"] (by decide)]
    simp [capitalize, upper.ascii]
  · refine .of_headed _ "Erc Issued" (of_headed "Renewable Energy Certificate Issued"
      "-----------------------------------" (known ercIssued rfl) rfl rfl rfl rfl (by decide)
      (by decide) (by decide) rfl rfl) (by decide) ?_ (by decide)
    rw [humanize_eq ["erc", "issued"] (by decide)]
    simp [capitalize, upper.ascii]
  · exact .of_plain (of_plain "SECURITY ALERT: New Sign-In Location"
      (known newLogin rfl) rfl rfl rfl
      (by decide) rfl rfl) (by decide)
  · exact .of_plain (of_plain "Hello," (known passwordReset rfl) rfl rfl rfl (by decide) rfl rfl)
      (by decide)
  · refine .of_signed "Verify Email" (k := 'H') (of_signed "Hello"
      "account stays inactive and no one can sign in with it." "— The GridTokenX Team"
      (known verifyEmail rfl)
      (show verifyEmail = _ :: ((verifyEmail.drop 1).rdrop 3 ++ _) from rfl) rfl rfl rfl rfl)
      (by decide) ?_ (by decide)
    rw [humanize_eq ["verify", "email"] (by decide)]
    simp [capitalize, upper.ascii]
  · refine .of_headed _ "Welcome" (of_headed "Welcome to GridTokenX" "---------------------"
      (known welcome rfl) rfl rfl rfl rfl (by decide) (by decide) (by decide) rfl rfl)
        (by decide) ?_
      (by decide)
    rw [humanize_eq ["welcome"] (by decide)]
    simp [capitalize, upper.ascii]

open Templates in
theorem page_of_sibling (hid : id ∈ htmlTemplates)
    (h : T.render (textTemplateId id) vars now = some rendered) : id ∈ pages := by
  rcases List.mem_cons.mp hid with rfl | hpage
  · have hnone : T.render (textTemplateId "_components.html.tera") vars now = none :=
      render_unknown (by decide) (by decide)
    rw [hnone] at h
    cases h
  · exact hpage

theorem render_cases (h : T.render id vars now = some rendered) :
    (∃ segs, Tera.textTemplate id = some segs ∧ T.segments vars now segs = some rendered) ∨
      (id ∈ Templates.htmlTemplates ∧ T.html id vars = some rendered) := by
  cases hsegs : Tera.textTemplate id with
  | some segs => exact .inl ⟨segs, rfl, of_render_text hsegs h⟩
  | none =>
    unfold Tera.render at h
    rw [hsegs] at h
    cases vars with
    | obj members => exact .inr (Option.ite_none_right_eq_some.mp h)
    | _ => cases h

theorem mem_of_textTemplate (h : Tera.textTemplate id = some segs) :
    (id, segs) ∈ Templates.textTemplates := by
  obtain ⟨p, hp, rfl⟩ := Option.map_eq_some_iff.mp h
  have hid : p.1 = id := by simpa using List.find?_some hp
  rw [← hid]
  exact List.mem_of_find?_eq_some hp

open Templates in
theorem clocked_cases (hsegs : Tera.textTemplate id = some segs) (h : Tera.readsClock id) :
    segs = vppDispatched ∨ segs = priceAlertTriggered := by
  have clocks : ∀ p ∈ textTemplates, .now ∈ p.2 → p.2 = vppDispatched ∨
      p.2 = priceAlertTriggered := by
    decide
  rw [Tera.readsClock, hsegs, Option.any_some] at h
  exact clocks _ (mem_of_textTemplate hsegs) (of_decide_eq_true h)

end Rendered

section Agreement

variable {T : Tera} {upper : Uppercase} {id : String} {vars : Json} {c c' : String} {t t' : Int}

open Templates in
theorem clocked_texts {segs : List Seg} (hsegs : segs = vppDispatched ∨ segs = priceAlertTriggered)
    (h : T.segments vars t segs = some c) :
    (∀ t' c', T.segments vars t' segs = some c' → heading c = heading c') ∧
      ∀ c', T.segments vars (t + 1000) segs = some c' → bodyText c ≠ bodyText c' := by
  rcases hsegs with rfl | rfl
  · have head : ∀ t c, T.segments vars t vppDispatched = some c →
        heading c = some (trim "VPP Cluster Dispatch".toList) := fun t c h =>
      (of_headed "VPP Cluster Dispatch" "---------------------" h rfl rfl rfl rfl (by decide)
        (by decide) (by decide) rfl rfl).1
    refine ⟨fun t' c' h' => (head t c h).trans (head t' c' h').symm, fun c' h' => ?_⟩
    have hsegs : vppDispatched = _ :: _ :: _ :: ((vppDispatched.drop 3).take 9 ++ .now ::
      vppDispatched.drop 13) := rfl
    rw [hsegs] at h h'
    exact of_clocked "VPP Cluster Dispatch" "---------------------" h h' (by decide)
      (by decide) rfl rfl
      rfl rfl (by decide) (by decide) (by decide) rfl rfl
  · have head : ∀ t c, T.segments vars t priceAlertTriggered = some c →
        heading c = some (trim "Price Alert Triggered".toList) := fun t c h =>
      (of_headed "Price Alert Triggered" "---------------------" h rfl rfl rfl rfl (by decide)
        (by decide) (by decide) rfl rfl).1
    refine ⟨fun t' c' h' => (head t c h).trans (head t' c' h').symm, fun c' h' => ?_⟩
    have hsegs : priceAlertTriggered = _ :: _ :: _ ::
      ((priceAlertTriggered.drop 3).take 8 ++ .now ::
      priceAlertTriggered.drop 12) := rfl
    rw [hsegs] at h h'
    exact of_clocked "Price Alert Triggered" "---------------------" h h' (by decide)
      (by decide) rfl
      rfl rfl rfl (by decide) (by decide) (by decide) rfl rfl

def hasTitle (vars : Json) : Bool := (variableOf vars ["title", "headline"]).isSome

def hasBody (vars : Json) : Bool := (variableOf vars ["body"]).isSome

/-- Where a template and its text sibling both render: a page needs the variables to give the
body, and the title too if the sibling has a heading, and a template that prints the time
needs them to give the body. -/
def Steady (T : Tera) (id : String) (vars : Json) : Prop :=
  (T.render id vars 0).isSome → (T.render (textTemplateId id) vars 0).isSome →
    (textTemplateId id ≠ id → hasBody vars ∧
      (hasTitle vars ∨ (T.render (textTemplateId id) vars 0).bind heading = none)) ∧
    (Tera.readsClock id → hasBody vars)

theorem textTemplateId_of_text {segs : List Seg} (h : Tera.textTemplate id = some segs) :
    textTemplateId id = id := by
  have same : ∀ p ∈ Templates.textTemplates, textTemplateId p.1 = p.1 := by decide
  exact same _ (mem_of_textTemplate h)

open Templates in
theorem textTemplateId_of_html (h : id ∈ htmlTemplates) : textTemplateId id ≠ id ∧
    Tera.readsClock id = false ∧ Tera.readsClock (textTemplateId id) = false := by
  have other : ∀ id ∈ htmlTemplates, textTemplateId id ≠ id ∧
    Tera.readsClock id = false ∧ Tera.readsClock (textTemplateId id) = false := by decide
  exact other id h

theorem message_eq (hbody : hasBody vars) :
    (titleAndMessage upper id vars c).2 = (titleAndMessage upper id vars c').2 := by
  obtain ⟨b, hb⟩ := Option.isSome_iff_exists.mp hbody
  simp only [titleAndMessage_eq, hb, Option.getD_some]

theorem title_eq (h : hasTitle vars ∨ heading c = heading c') :
    (titleAndMessage upper id vars c).1 = (titleAndMessage upper id vars c').1 := by
  rcases h with htitle | heq
  · obtain ⟨b, hb⟩ := Option.isSome_iff_exists.mp htitle
    simp only [titleAndMessage_eq, hb, Option.getD_some]
  · simp only [titleAndMessage_eq, heq]

theorem hasBody_of_message_eq (hne : bodyText c ≠ bodyText c')
    (h : (titleAndMessage upper id vars c).2 = (titleAndMessage upper id vars c').2) :
    hasBody vars := by
  by_contra hnone
  rw [hasBody, Bool.not_eq_true, Option.isSome_eq_false_iff, Option.isNone_iff_eq_none] at hnone
  simp only [titleAndMessage_eq, hnone, Option.getD_none] at h
  exact hne (String.ofList_injective h)

def Agrees (upper : Uppercase) (T : Tera) (id : String) (vars : Json) : Prop :=
  ∀ t t' c c', t ≤ t' → T.render id vars t = some c →
    T.render (textTemplateId id) vars t' = some c' →
      titleAndMessage upper id vars c = titleAndMessage upper id vars c'

theorem Steady.agrees (h : Steady T id vars) {t t' : Int} {c c' : String}
    (hc : T.render id vars t = some c) (hc' : T.render (textTemplateId id) vars t' = some c') :
    titleAndMessage upper id vars c = titleAndMessage upper id vars c' := by
  have hrender : (T.render id vars 0).isSome := by
    rw [Tera.render_isSome, hc]
    rfl
  have hrender' : (T.render (textTemplateId id) vars 0).isSome := by
    rw [Tera.render_isSome, hc']
    rfl
  obtain ⟨hpages, hclocks⟩ := h hrender hrender'
  rcases render_cases hc with ⟨segs, hsegs, htext⟩ | ⟨hid, hhtml⟩
  · rw [textTemplateId_of_text hsegs] at hc'
    cases hclock : Tera.readsClock id with
    | false =>
      rw [Tera.render_timeless hclock, hc] at hc'
      rw [Option.some.inj hc']
    | true =>
      have hheading := (clocked_texts (clocked_cases hsegs hclock) htext).1 t' c'
        (of_render_text hsegs hc')
      exact Prod.ext (title_eq (.inr hheading)) (message_eq (hclocks hclock))
  · obtain ⟨hother, -, hsteady⟩ := textTemplateId_of_html hid
    obtain ⟨hbody, htitle⟩ := hpages hother
    obtain ⟨hplain, -⟩ := of_page (page_of_sibling hid hc') hhtml
    refine Prod.ext (title_eq (htitle.imp_right fun hnone => ?_)) (message_eq hbody)
    rw [Tera.render_timeless hsteady, hc'] at hnone
    rw [hplain]
    exact hnone.symm

theorem Agrees.steady (h : Agrees upper T id vars) : Steady T id vars := by
  intro hrender hrender'
  obtain ⟨c, hc⟩ := Option.isSome_iff_exists.mp hrender
  obtain ⟨c', hc'⟩ := Option.isSome_iff_exists.mp hrender'
  have hsame := h 0 0 c c' (Int.le_refl 0) hc hc'
  refine ⟨fun hother => ?_, fun hclock => ?_⟩
  · rcases render_cases hc with ⟨segs, hsegs, -⟩ | ⟨hid, hhtml⟩
    · exact absurd (textTemplateId_of_text hsegs) hother
    · obtain ⟨hplain, hfirst, hlast⟩ := of_page (page_of_sibling hid hc') hhtml
      have hsibling : Sibling upper id c' := sibling_of_render hid hc'
      have hne : bodyText c ≠ bodyText c' := fun heq => hsibling.body.elim
        (fun hhead => hhead (heq ▸ hfirst)) (fun hend => hend (heq ▸ hlast))
      refine ⟨hasBody_of_message_eq hne (congrArg Prod.snd hsame), ?_⟩
      rw [or_iff_not_imp_left, hc']
      intro hnotitle
      rw [hasTitle, Bool.not_eq_true, Option.isSome_eq_false_iff,
        Option.isNone_iff_eq_none] at hnotitle
      have htitles := congrArg Prod.fst hsame
      simp only [titleAndMessage_eq, hnotitle, hplain, Option.getD_none, Option.map_none] at htitles
      rw [Option.bind_some]
      by_contra hsome
      obtain ⟨line, hline⟩ := Option.ne_none_iff_exists'.mp hsome
      rw [hline] at htitles
      exact hsibling.title line hline htitles.symm
  · rcases render_cases hc with ⟨segs, hsegs, htext⟩ | ⟨hid, -⟩
    · have hrenders : (T.render id vars (0 + 1000)).isSome := Tera.render_isSome.trans hrender
      obtain ⟨later, hlater⟩ := Option.isSome_iff_exists.mp hrenders
      have hne := (clocked_texts (clocked_cases hsegs hclock) htext).2 later
        (of_render_text hsegs hlater)
      rw [← textTemplateId_of_text hsegs] at hlater
      exact hasBody_of_message_eq hne (congrArg Prod.snd (h 0 _ c later (by decide) hc hlater))
    · rw [(textTemplateId_of_html hid).2.1] at hclock
      cases hclock

end Agreement

end Wire

end NotiService
