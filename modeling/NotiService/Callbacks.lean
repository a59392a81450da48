import NotiService.Events
import NotiService.Encoding
import NotiService.Rewrite

/-! The mails with a callback link. Three events send one: what a reader finds in the link that
is made from a token, and whether there is a link at all. -/

namespace NotiService
open Foundation Json Url Events

inductive CallbackEvent
  | passwordReset
  | verificationEmail
  | walletLink
deriving DecidableEq

/-- What the payload of a callback event says: `extra` goes into the link beside the token. -/
structure Callback where
  upstreamUrl : String
  token : String
  email : String
  extra : Option (String × String)

def Callback.params (c : Callback) : List (String × String) := ("token", c.token) :: c.extra.toList

/-- A link can be formed from what the event and the configuration give. -/
def Callback.Formable (env : EventEnv) (c : Callback) : Prop :=
  c.upstreamUrl ≠ "" ∨ c.token ≠ "" ∧ env.frontendUrl ≠ none

namespace CallbackEvent

def eventType : CallbackEvent → String
  | .passwordReset => "PasswordResetRequested"
  | .verificationEmail => "VerificationEmailRequested"
  | .walletLink => "WalletLinkRequested"

def linkVar : CallbackEvent → String
  | .passwordReset => "reset_url"
  | .verificationEmail => "verification_url"
  | .walletLink => "confirmation_url"

def path : CallbackEvent → String
  | .passwordReset => "reset-password"
  | .verificationEmail => "verify"
  | .walletLink => "wallet/confirm"

def payload (e : CallbackEvent) (data : Json) : Option Callback :=
  match e with
  | .passwordReset => (PasswordResetRequested.parse data).map fun p =>
    ⟨p.resetUrl, p.token, p.email, none⟩
  | .verificationEmail => (VerificationEmailRequested.parse data).map fun p =>
    ⟨p.verificationUrl, p.token, p.email, some ("email", p.email)⟩
  | .walletLink => (WalletLinkRequested.parse data).map fun p =>
    ⟨p.confirmationUrl, p.token, p.email, some ("wallet", p.walletAddress)⟩

/-- Only the token of a password reset is not encoded. -/
def query (e : CallbackEvent) (c : Callback) : String :=
  let value := urlencode ((c.extra.map Prod.snd).getD "")
  match e with
  | .passwordReset => "token=" ++ c.token
  | .verificationEmail => "token=" ++ urlencode c.token ++ "&email=" ++ value
  | .walletLink => "token=" ++ urlencode c.token ++ "&wallet=" ++ value

def link (env : EventEnv) (e : CallbackEvent) (c : Callback) : String :=
  callbackUrl env c.upstreamUrl c.token e.path (e.query c)

/-- The event sends a mail: a password reset does not ask for a link. -/
def Mails (env : EventEnv) (e : CallbackEvent) (c : Callback) : Prop :=
  c.email ≠ "" ∧ (∀ p ∈ c.extra, p.2 ≠ "") ∧ (e = .passwordReset ∨ e.link env c ≠ "")

end CallbackEvent

section Handlers

variable {env : EventEnv} {e : CallbackEvent} {c : Callback} {data : Json}

theorem CallbackEvent.queued_none (h : e.payload data = none) : queued env e.eventType data =
    [] := by
  cases e
  · show passwordResetRequested env data = []
    rw [passwordResetRequested, Option.map_eq_none_iff.mp h]
  · show verificationEmailRequested env data = []
    rw [verificationEmailRequested, Option.map_eq_none_iff.mp h]
  · show walletLinkRequested env data = []
    rw [walletLinkRequested, Option.map_eq_none_iff.mp h]

theorem CallbackEvent.queued_mails (h : e.payload data = some c) (hmails : e.Mails env c) :
    ∃ q, queued env e.eventType data = [q] ∧ q.vars.get e.linkVar = some (.str (e.link env c)) := by
  obtain ⟨hemail, hextra, hlink⟩ := hmails
  cases e
  · obtain ⟨p, hp, rfl⟩ := Option.map_eq_some_iff.mp h
    refine ⟨?resetMail, ?queued, ?link⟩
    case queued =>
      show passwordResetRequested env data = _
      rw [passwordResetRequested, hp]
      exact if_neg hemail
    case link => rfl
  · obtain ⟨p, hp, rfl⟩ := Option.map_eq_some_iff.mp h
    refine ⟨?verificationMail, ?queued, ?link⟩
    case queued =>
      show verificationEmailRequested env data = _
      have hne : callbackUrl env p.verificationUrl p.token "verify"
          ("token=" ++ urlencode p.token ++ "&email=" ++ urlencode p.email) ≠ "" :=
        hlink.resolve_left nofun
      rw [verificationEmailRequested, hp]
      dsimp only
      rw [if_neg hemail, if_neg hne]
    case link => rfl
  · obtain ⟨p, hp, rfl⟩ := Option.map_eq_some_iff.mp h
    refine ⟨?walletMail, ?queued, ?link⟩
    case queued =>
      show walletLinkRequested env data = _
      have hne : callbackUrl env p.confirmationUrl p.token "wallet/confirm"
          ("token=" ++ urlencode p.token ++ "&wallet=" ++ urlencode p.walletAddress) ≠ "" :=
        hlink.resolve_left nofun
      rw [walletLinkRequested, hp]
      dsimp only
      rw [if_neg (not_or.mpr ⟨hemail, hextra _ rfl⟩), if_neg hne]
    case link => rfl

theorem CallbackEvent.mails_passwordReset (h : CallbackEvent.payload .passwordReset data = some c)
    (hemail : c.email ≠ "") : CallbackEvent.Mails env .passwordReset c := by
  obtain ⟨p, -, rfl⟩ := Option.map_eq_some_iff.mp h
  exact ⟨hemail, nofun, .inl rfl⟩

theorem CallbackEvent.queued_skips (h : e.payload data = some c) (hskips : ¬ e.Mails env c) :
    queued env e.eventType data = [] := by
  cases e
  · obtain ⟨p, hp, rfl⟩ := Option.map_eq_some_iff.mp h
    show passwordResetRequested env data = []
    rw [passwordResetRequested, hp]
    exact if_pos (by_contra fun hemail => hskips ⟨hemail, nofun, .inl rfl⟩)
  · obtain ⟨p, hp, rfl⟩ := Option.map_eq_some_iff.mp h
    show verificationEmailRequested env data = []
    rw [verificationEmailRequested, hp]
    by_cases hemail : p.email = ""
    · exact if_pos hemail
    · refine (if_neg hemail).trans (if_pos (by_contra fun hlink => hskips ⟨hemail, ?_, .inr hlink⟩))
      rintro _ ⟨⟩
      exact hemail
  · obtain ⟨p, hp, rfl⟩ := Option.map_eq_some_iff.mp h
    show walletLinkRequested env data = []
    rw [walletLinkRequested, hp]
    by_cases hparty : p.email = "" ∨ p.walletAddress = ""
    · exact if_pos hparty
    · obtain ⟨hemail, hwallet⟩ := not_or.mp hparty
      refine (if_neg hparty).trans (if_pos (by_contra fun hlink => hskips ⟨hemail, ?_, .inr hlink⟩))
      rintro _ ⟨⟩
      exact hwallet

theorem callbackUrl_ne_empty {path query : String} :
    callbackUrl env c.upstreamUrl c.token path query ≠ "" ↔ c.Formable env := by
  unfold callbackUrl Callback.Formable
  by_cases hupstream : c.upstreamUrl = ""
  · rw [if_neg (not_not.mpr hupstream)]
    by_cases htoken : c.token = ""
    · rw [if_neg (not_not.mpr htoken)]
      exact iff_of_false (not_not.mpr hupstream) (by simp [hupstream, htoken])
    · rw [if_pos htoken, buildCallbackUrl_ne_empty]
      simp [hupstream, htoken]
  · rw [if_pos hupstream]
    exact iff_of_true (rewriteUrl_ne_empty hupstream) (.inl hupstream)

end Handlers

/-- The link has no fragment and these parameters. -/
def Reads (link : String) (params : List (String × String)) : Prop :=
  '#' ∉ link.toList ∧ Percent.params link.toList = some params

/-- Nothing in the token ends the parameter or reads as an escape. -/
def Verbatim (token : String) : Prop :=
  '&' ∉ token.toList ∧ '#' ∉ token.toList ∧ ¬ Percent.HasEscape token.toList

section Token

variable {env : EventEnv} {base : String} {e : CallbackEvent} {c : Callback} {data : Json}

def pageOf (base : String) (e : CallbackEvent) : List Char :=
  (trimEndSlashes base).toList ++ '/' :: e.path.toList

theorem rooted_path (e : CallbackEvent) : rooted e.path = '/' :: e.path.toList :=
  if_neg (by cases e <;> decide)

theorem not_mem_pageOf {d : Char} (hbase : d ∉ base.toList) (hd : d ∈ delimiters)
    (e : CallbackEvent) : d ∉ pageOf base e := by
  have hpath : ∀ d ∈ delimiters, d ∉ e.path.toList ∧ d ≠ '/' := by
    cases e <;> simp [delimiters, CallbackEvent.path]
  rw [pageOf, ← rooted_path]
  exact not_mem_page hbase (hpath d hd).1 (hpath d hd).2

theorem toList_link (hbase : env.frontendUrl = some base) (hupstream : c.upstreamUrl = "")
    (htoken : c.token ≠ "") :
    (e.link env c).toList = pageOf base e ++ '?' :: (e.query c).toList := by
  rw [CallbackEvent.link, callbackUrl, if_neg (not_not.mpr hupstream), if_pos htoken, hbase,
    toList_buildCallbackUrl (by cases e <;> simp [CallbackEvent.query]), rooted_path, pageOf]

theorem reads_passwordReset_iff (hbase : env.frontendUrl = some base)
    (hplain : '?' ∉ base.toList ∧ '#' ∉ base.toList) (hupstream : c.upstreamUrl = "")
    (htoken : c.token ≠ "") :
    Reads (CallbackEvent.link env .passwordReset c) [("token", c.token)] ↔ Verbatim c.token := by
  have hpage : '?' ∉ pageOf base .passwordReset := not_mem_pageOf hplain.1 (by decide) _
  have hquery : (CallbackEvent.query .passwordReset c).toList =
      "token".toList ++ '=' :: c.token.toList :=
    String.toList_append ..
  have hhash : '#' ∉ pageOf base .passwordReset ++ '?' ::
    ("token".toList ++ '=' :: c.token.toList) ↔
      '#' ∉ c.token.toList := by
    simp [not_mem_pageOf hplain.2 (by decide) CallbackEvent.passwordReset]
  rw [Reads, toList_link hbase hupstream htoken, hquery, hhash]
  by_cases hamp : '&' ∈ c.token.toList
  · refine iff_of_false (fun h => ?_) (fun h => h.1 hamp)
    exact Percent.params_ne_one hpage (by simp [hamp]) _ h.2
  · rw [Percent.params_one hpage (by simp [hamp]), Percent.param_append (by decide)]
    unfold Verbatim
    rw [← Percent.text_decode_iff]
    simp [hamp]

theorem reads_encoded {page : List Char} {params : List (String × String)} {link : String}
    (hquestion : '?' ∉ page) (hhash : '#' ∉ page)
    (hnames : ∀ p ∈ params, ∀ d ∈ delimiters, d ∉ p.1.toList) (hne : params ≠ [])
    (hlink : link.toList = page ++ '?' :: encodedQuery params) : Reads link params := by
  rw [Reads, hlink, Percent.params_append hquestion]
  refine ⟨?_, pairs_encodedQuery hnames hne⟩
  rw [List.mem_append, List.mem_cons, not_or, not_or]
  exact ⟨hhash, by decide, not_mem_encodedQuery hnames (by decide) (by decide)⟩

theorem reads_link (he : e ≠ .passwordReset) (hc : e.payload data = some c)
    (hbase : env.frontendUrl = some base) (hplain : '?' ∉ base.toList ∧ '#' ∉ base.toList)
    (hupstream : c.upstreamUrl = "") (htoken : c.token ≠ "") : Reads (e.link env c) c.params := by
  have hlink := toList_link (e := e) hbase hupstream htoken
  have hencoded : (e.query c).toList = encodedQuery c.params ∧
      ∀ p ∈ c.params, ∀ d ∈ delimiters, d ∉ p.1.toList := by
    cases e with
    | passwordReset => exact absurd rfl he
    | verificationEmail | walletLink =>
      obtain ⟨p, -, rfl⟩ := Option.map_eq_some_iff.mp hc
      constructor
      · simp [CallbackEvent.query, Callback.params, encodedQuery, Percent.query]
      · simp [Callback.params, delimiters]
  rw [hencoded.1] at hlink
  exact reads_encoded (not_mem_pageOf hplain.1 (by decide) e)
    (not_mem_pageOf hplain.2 (by decide) e)
    hencoded.2 (List.cons_ne_nil _ _) hlink

/-- What is read in the link of a mail made from a token is what the payload says, except for a
password reset whose token does not stand for itself in a query. -/
theorem callback_params_iff (hbase : env.frontendUrl = some base)
    (hplain : '?' ∉ base.toList ∧ '#' ∉ base.toList) (hc : e.payload data = some c)
    (hupstream : c.upstreamUrl = "") (htoken : c.token ≠ "") :
    (∀ q ∈ queued env e.eventType data, ∃ link, q.vars.get e.linkVar = some (.str link) ∧
      Reads link c.params) ↔ (e = .passwordReset → c.email ≠ "" → Verbatim c.token) := by
  by_cases hmails : e.Mails env c
  · obtain ⟨q, hqueued, hvar⟩ := CallbackEvent.queued_mails hc hmails
    have hread : (∀ q ∈ queued env e.eventType data, ∃ link, q.vars.get e.linkVar =
      some (.str link) ∧
        Reads link c.params) ↔ Reads (e.link env c) c.params := by
      rw [hqueued, List.forall_mem_singleton, hvar]
      constructor
      · rintro ⟨_, ⟨⟩, hreads⟩
        exact hreads
      · exact fun hreads => ⟨_, rfl, hreads⟩
    rw [hread]
    by_cases he : e = .passwordReset
    · subst he
      obtain ⟨p, -, rfl⟩ := Option.map_eq_some_iff.mp hc
      have hiff := reads_passwordReset_iff hbase hplain hupstream htoken
      exact ⟨fun hreads _ _ => hiff.mp hreads, fun h => hiff.mpr (h rfl hmails.1)⟩
    · exact iff_of_true (reads_link he hc hbase hplain hupstream htoken) (fun h => absurd h he)
  · rw [CallbackEvent.queued_skips hc hmails]
    refine iff_of_true nofun ?_
    rintro rfl hemail
    exact absurd (CallbackEvent.mails_passwordReset hc hemail) hmails

end Token

def EventEnv.serving (frontendUrl : Option String) : EventEnv := ⟨frontendUrl, fun _ => none,
  fun _ => "null", fun _ => .error "expected value at line 1 column 1"⟩

def tokenPayload (token : String) : Json :=
  .obj [("email", .str "ann@example.com"), ("token", .str token)]

theorem callback_params_verification :
    queued (.serving (some "https://app.gridtokenx.test/")) "VerificationEmailRequested"
        (tokenPayload "a&b=c") ≠ [] ∧
      ∀ q ∈ queued (.serving (some "https://app.gridtokenx.test/")) "VerificationEmailRequested"
          (tokenPayload "a&b=c"),
        ∃ link, q.vars.get "verification_url" = some (.str link) ∧
          Reads link [("token", "a&b=c"), ("email", "ann@example.com")] :=
  ⟨List.cons_ne_nil _ _,
    (callback_params_iff (e := .verificationEmail) rfl ⟨by decide, by decide⟩
      (c := ⟨"", "a&b=c", "ann@example.com", some ("email", "ann@example.com")⟩) rfl rfl
      (by decide)).mpr nofun⟩

/-- The token of a password reset is cut at its first `&`. -/
theorem callback_params_cut : ¬ ∀ (env : EventEnv) (base : String) (e : CallbackEvent)
    (c : Callback)
    (data : Json), env.frontendUrl = some base → '?' ∉ base.toList ∧ '#' ∉ base.toList →
    e.payload data = some c → c.upstreamUrl = "" → c.token ≠ "" →
    ∀ q ∈ queued env e.eventType data, ∃ link, q.vars.get e.linkVar = some (.str link) ∧
      Reads link c.params := by
  intro h
  have hplain : '?' ∉ "https://app.gridtokenx.test/".toList ∧
      '#' ∉ "https://app.gridtokenx.test/".toList := ⟨by decide, by decide⟩
  obtain ⟨link, hvar, hreads⟩ := h (.serving (some "https://app.gridtokenx.test/")) _ .passwordReset
    ⟨"", "a&b=c", "ann@example.com", none⟩ (tokenPayload "a&b=c") rfl hplain rfl rfl (by decide) _
    (List.mem_singleton_self _)
  cases hvar
  have hiff : Reads (CallbackEvent.link (.serving (some "https://app.gridtokenx.test/"))
    .passwordReset
      ⟨"", "a&b=c", "ann@example.com", none⟩) [("token", "a&b=c")] ↔ Verbatim "a&b=c" :=
    reads_passwordReset_iff rfl hplain rfl (by decide)
  exact absurd (hiff.mp hreads).1 (by decide)

section Links

variable {env : EventEnv} {e : CallbackEvent} {c : Callback} {data : Json}

/-- Every mail has a link, and without a link there is no mail and no error. -/
def NoDeadButton (mq : Bool) (env : EventEnv) (ctx : MsgCtx) (e : CallbackEvent) (data : Json) :
    Prop :=
  (∀ q ∈ queued env e.eventType data, ∃ link, q.vars.get e.linkVar = some (.str link) ∧ link ≠ "") ∧
    ((∀ c, e.payload data = some c → ¬ c.Formable env) →
      queued env e.eventType data = [] ∧ dispatch mq env ctx e.eventType data = pure ())

theorem dispatch_of_queued_nil {mq : Bool} {ctx : MsgCtx} (h : queued env e.eventType data = []) :
    dispatch mq env ctx e.eventType data = pure () := by
  have hcounter : counter env e.eventType data = none := by cases e <;> rfl
  rw [dispatch_eq, hcounter, h]
  rfl

/-- There is no dead button if and only if no password reset is mailed without a link. -/
theorem noDeadButton_iff (mq : Bool) (env : EventEnv) (ctx : MsgCtx) (e : CallbackEvent)
    (data : Json) :
    NoDeadButton mq env ctx e data ↔ (e = .passwordReset →
      ∀ c, e.payload data = some c → c.email ≠ "" → c.Formable env) := by
  cases hpayload : e.payload data with
  | none =>
    have hnone : queued env e.eventType data = [] := CallbackEvent.queued_none hpayload
    refine iff_of_true ⟨?_, fun _ => ⟨hnone, dispatch_of_queued_nil hnone⟩⟩ nofun
    rw [hnone]
    nofun
  | some c =>
    have hlink : e.link env c ≠ "" ↔ c.Formable env := callbackUrl_ne_empty
    by_cases hmails : e.Mails env c
    · obtain ⟨q, hqueued, hvar⟩ := CallbackEvent.queued_mails hpayload hmails
      have hformable : NoDeadButton mq env ctx e data ↔ c.Formable env := by
        constructor
        · rintro ⟨hvars, -⟩
          obtain ⟨link, hlinkVar, hne⟩ := hvars q (by rw [hqueued]; exact List.mem_singleton_self q)
          rw [hvar] at hlinkVar
          cases hlinkVar
          exact hlink.mp hne
        · refine fun hformable => ⟨?_, fun h => absurd hformable (h c hpayload)⟩
          rw [hqueued, List.forall_mem_singleton]
          exact ⟨_, hvar, hlink.mpr hformable⟩
      rw [hformable]
      constructor
      · rintro h _ _ ⟨⟩ _
        exact h
      · intro h
        rcases hmails.2.2 with he | hne
        · exact h he c rfl hmails.1
        · exact hlink.mp hne
    · have hnone := CallbackEvent.queued_skips hpayload hmails
      refine iff_of_true ⟨?_, fun _ => ⟨hnone, dispatch_of_queued_nil hnone⟩⟩ ?_
      · rw [hnone]
        nofun
      · rintro rfl _ ⟨⟩ hemail
        exact absurd (CallbackEvent.mails_passwordReset hpayload hemail) hmails

/-- Without a frontend a password reset is mailed with an empty link. -/
theorem noDeadButton_reset : ¬ ∀ (mq : Bool) (env : EventEnv) (ctx : MsgCtx) (e : CallbackEvent)
    (data : Json), NoDeadButton mq env ctx e data := by
  intro h
  obtain ⟨link, hvar, hne⟩ := (h true (.serving none) ⟨0, 7, none⟩ .passwordReset
    (tokenPayload "abc")).1 _ (List.mem_singleton_self _)
  cases hvar
  exact hne rfl

end Links

end NotiService
