import NotiService.Templates
import NotiService.Fcm

/-! The push envelope from the template that writes it to the provider that reads it: whatever
the strings, they come through, and the message to each device carries them. -/

namespace NotiService
open Foundation

namespace Templates

/-- The suffixes that `TemplateEngine::new` turns autoescape on for. -/
def autoescapeOn : List String := ["html.tera"]

def autoescaped (id : String) : Bool :=
  autoescapeOn.any fun suffix => suffix.toList.isSuffixOf id.toList

theorem autoescaped_text : ∀ p ∈ textTemplates, autoescaped p.1 = false := by decide

end Templates

/-- The engine at one template: what is printed of a variable goes through `escape` if the name
of the template has one of the suffixes. -/
def Tera.escaping (T : Tera) (escape : String → String) (id : String) : Tera :=
  { T with
    display := fun v => if Templates.autoescaped id then escape (T.display v) else T.display v
    jsonEncode := fun v =>
      if Templates.autoescaped id then escape (T.jsonEncode v) else T.jsonEncode v }

theorem Tera.escaping_text (T : Tera) (escape : String → String) {id : String} {segs : List Seg}
    (h : (id, segs) ∈ Templates.textTemplates) : T.escaping escape id = T := by
  have hplain := Templates.autoescaped_text _ h
  simp [Tera.escaping, hplain]

namespace Envelope
open JsonText

variable {T : Tera} {env : FcmEnv} {number : List Char → Option Number} {vars : Json}
  {title body : String} {now : Int}

/-- The rendered envelope, up to its last brace. -/
def text (title body : String) : String := object [' '] [("title", title), ("body", body)]

theorem of_get {key : String} {v : Json} (h : vars.get key = some v) :
    ∃ members, vars = .obj members := by
  cases vars with
  | obj members => exact ⟨members, rfl⟩
  | _ => cases h

theorem render_push (hencode : ∀ s, T.jsonEncode (.str s) = quote s)
    (htitle : vars.get "title" = some (.str title)) (hbody : vars.get "body" = some (.str body)) :
    T.render "push_notification.txt.tera" vars now = some (text title body ++ "\n") := by
  obtain ⟨members, rfl⟩ := of_get htitle
  have hsegs : Tera.textTemplate "push_notification.txt.tera" = some Templates.pushNotification :=
    rfl
  have hwritten : text title body ++ "\n" = "\x7b\"title\": " ++ (quote title ++ (", \"body\": " ++
      (quote body ++ ("\x7d\n" ++ "")))) := by
    apply String.toList_inj.mp
    simp [text, object, JsonText.members, member, quote, quoted, escape]
  rw [Tera.render, hsegs, hwritten]
  simp only [Templates.pushNotification, Tera.segments, Tera.segment, htitle, hbody, hencode,
    Option.map_some, Option.bind_some]

theorem readPayload_text (hread : env.fromStr = fromStr number) :
    (env.fromStr (text title body ++ "\n")).bind Fcm.readPayload = some ⟨title, body, none⟩ := by
  have hspace : ∀ c ∈ [' '], space c := List.forall_mem_singleton.mpr rfl
  have hend : ∀ c ∈ ['\n'], space c := List.forall_mem_singleton.mpr rfl
  have hobject := fromStr_object_append number hspace
    (List.cons_ne_nil ("title", title) [("body", body)]) hend
  rw [hread]
  exact congrArg (fun v => Option.bind v Fcm.readPayload) hobject

/-- String variables reach each device as they are, and never by way of the plain body. -/
theorem push_envelope_carried (T : Tera) (escape : String → String) (env : FcmEnv)
    (number : List Char → Option Number) (hencode : ∀ s, T.jsonEncode (.str s) = quote s)
    (hread : env.fromStr = fromStr number) (vars : Json) (title body : String) (now : Int)
    (htitle : vars.get "title" = some (.str title)) (hbody : vars.get "body" = some (.str body)) :
    ∃ content, (T.escaping escape "push_notification.txt.tera").render "push_notification.txt.tera"
        vars now = some content ∧
      (env.fromStr content).bind Fcm.readPayload = some ⟨title, body, none⟩ ∧
      Fcm.parsePayload env content = ⟨title, body, none⟩ ∧
      ∀ device, Fcm.buildMessage device (Fcm.parsePayload env content) =
        .obj [("token", .str device.token),
          ("notification", .obj [("title", .str title), ("body", .str body)]),
          Fcm.platformBlock device.platform] := by
  have hmem : ("push_notification.txt.tera", Templates.pushNotification) ∈
      Templates.textTemplates := by
    simp [Templates.textTemplates]
  have hpayload : (env.fromStr (text title body ++ "\n")).bind Fcm.readPayload =
      some ⟨title, body, none⟩ := readPayload_text hread
  have hparse : Fcm.parsePayload env (text title body ++ "\n") = ⟨title, body, none⟩ := by
    rw [Fcm.parsePayload, hpayload]
    rfl
  rw [T.escaping_text escape hmem]
  refine ⟨_, render_push hencode htitle hbody, hpayload, hparse, fun device => ?_⟩
  rw [hparse]
  rfl

/-- Quotes, a backslash, a bell and braces on their way to an iPhone. -/
theorem push_envelope_carried_quotes :
    let env : FcmEnv := ⟨fun _ => .error "", fromStr fun _ => none, Nat.repr, "", "gridtokenx"⟩
    let title := "\"Trade\" \\ matched\x07"
    let body := "\x7b10 kWh\x7d\n"
    ∃ content, Tera.sample.render "push_notification.txt.tera"
        (.obj [("body", .str body), ("title", .str title)]) 0 = some content ∧
      Fcm.parsePayload env content = ⟨title, body, none⟩ ∧
      ∀ device, device.platform = .ios → Fcm.buildMessage device (Fcm.parsePayload env content) =
        .obj [("token", .str device.token),
          ("notification", .obj [("title", .str title), ("body", .str body)]),
          ("apns", .obj [("headers", .obj [("apns-priority", .str "10")])])] := by
  intro env title body
  obtain ⟨content, hrender, -, hparse, hmessage⟩ := push_envelope_carried .sample String.quote env
    (fun _ => none) (fun _ => rfl) rfl (.obj [("body", .str body), ("title", .str title)]) title
    body 0
    rfl rfl
  refine ⟨content, hrender, hparse, fun device hios => ?_⟩
  rw [hmessage, hios]
  rfl

end Envelope

end NotiService
