import NotiService.Fcm

/-! Which tokens a push send revokes: those whose request FCM answers as it answers for a dead
one. It answers so to a request with a malformed message, or for an unknown project, as well. -/

namespace NotiService
open Foundation Json

/-- The program, left to itself with outcomes that are `ok`, ends with `r` and leaves `s'`. -/
abbrev FcmState.Completes {α : Type} (ok : FcmOutcome → Prop) (s : FcmState) (p : Program FcmOp α)
    (r : α) (s' : FcmState) : Prop :=
  Program.Completes (fun o : { o // ok o } => FcmState.exec o.1) p s r s'

namespace Fcm

/-- One request for each device has been made, in order, and each token that was called
dead was then to be revoked. -/
structure Sent (env : FcmEnv) (payload : PushPayload) (ds : List DeviceToken) (s : FcmState)
    (sent : List Post) (s' : FcmState) : Prop where
  posts : s'.posts = s.posts ++ sent
  messages : sent.map Post.message = ds.map fun d => buildMessage d payload
  urls : ∀ p ∈ sent, p.url = url env
  revokes : s'.revokes = s.revokes ++ dead env sent
  devices : ∀ k, s'.devices.activeDevice k = s.devices.activeDevice k ∨
    (s'.devices.activeDevice k = none ∧ k ∈ dead env sent)

section FanOut

variable {env : FcmEnv} {accessToken : String} {payload : PushPayload} {ok : FcmOutcome → Prop}
  {s s' : FcmState}

theorem exec_post {o : FcmOutcome} {url bearer : String} {body : Json}
    {answer : Except String (Nat × String)}
    (h : FcmState.exec o (.post url bearer body) s = some (answer, s')) :
    s' = { s with posts := s.posts ++ [⟨url, (body.get "message").getD .null, answer⟩] } := by
  cases o with
  | answer r =>
    cases h
    rfl
  | _ => cases h

theorem exec_revoke {o : FcmOutcome} {token : String} {r : Except NotiError Unit}
    (h : FcmState.exec o (.revoke token) s = some (r, s')) :
    ∃ devices, s' = { s with devices, revokes := s.revokes ++ [token] } ∧
      ((∃ now, devices = s.devices.revoke now token) ∨ (devices = s.devices ∧ ¬o.succeeds)) := by
  cases o with
  | device o =>
    obtain ⟨⟨r, devices⟩, hexec, hs⟩ := Option.map_eq_some_iff.mp h
    cases hs
    refine ⟨devices, rfl, ?_⟩
    cases o with
    | done now _ | lost now _ _ =>
      cases hexec
      exact .inl ⟨now, rfl⟩
    | fail e =>
      cases hexec
      exact .inr ⟨rfl, Bool.false_ne_true⟩
    | listed tokens => cases hexec
  | _ => cases h

theorem dead_cons (p : Post) (posts : List Post) : dead env (p :: posts) =
    if invalid env p then p.token :: dead env posts else dead env posts := by
  cases h : invalid env p <;> simp [dead, h]

theorem dead_append (env : FcmEnv) (p : Post) (sent : List Post) :
    dead env (p :: sent) = dead env [p] ++ dead env sent := by
  rw [dead_cons, dead_cons]
  split <;> rfl

def Fold.add (fold : Fold) : Except SendError Unit → Fold
  | .ok () => { fold with delivered := fold.delivered + 1 }
  | .error (.invalidToken _) => { fold with pruned := fold.pruned + 1 }
  | .error (.retryable reason) => { fold with lastRetryable := some reason }

/-- The revocation that follows one request. -/
def prune (token : String) : Except SendError Unit → Program FcmOp Unit
  | .error (.invalidToken _) => .call (.revoke token) fun _ => .done ()
  | _ => .done ()

theorem fanOut_cons {d : DeviceToken} {ds : List DeviceToken} {fold : Fold} :
    fanOut env accessToken payload fold (d :: ds) =
      .call (.post (url env) accessToken (.obj [("message", buildMessage d payload)])) fun answer =>
        (prune d.token (classify env answer)).bind fun _ =>
          fanOut env accessToken payload (fold.add (classify env answer)) ds := by
  refine Program.call_congr fun answer => ?_
  change Program.bind (.done (classify env answer)) _ = _
  rcases classify env answer with (body | reason) | u <;> rfl

theorem delivered_add (fold : Fold) (p : Post) : (fold.add (classify env p.answer)).delivered =
    fold.delivered + if accepted env p then 1 else 0 := by
  unfold accepted
  rcases classify env p.answer with (body | reason) | u <;> rfl

theorem lastRetryable_add (fold : Fold) (p : Post) :
    (fold.add (classify env p.answer)).lastRetryable.isSome =
      (fold.lastRetryable.isSome || retryable env p) := by
  unfold retryable
  rcases classify env p.answer with (body | reason) | u
  · exact (Bool.or_false _).symm
  · exact (Bool.or_true _).symm
  · exact (Bool.or_false _).symm

theorem of_completes_prune {p : Post} {u : Unit}
    (h : s.Completes ok (prune p.token (classify env p.answer)) u s') :
    s'.posts = s.posts ∧ s'.revokes = s.revokes ++ dead env [p] ∧
      (∀ k, s'.devices.activeDevice k = s.devices.activeDevice k ∨
        (s'.devices.activeDevice k = none ∧ k ∈ dead env [p])) ∧
      ((∀ o, ok o → o.succeeds) → ∀ k ∈ dead env [p], s'.devices.activeDevice k = none) := by
  have hdead : dead env [p] = if invalid env p then [p.token] else [] := dead_cons p []
  unfold invalid at hdead
  cases hclass : classify env p.answer with
  | ok v =>
    rw [hclass] at h hdead
    obtain ⟨-, rfl⟩ := (Program.completes_done _).mp h
    simp [hdead]
  | error e =>
    cases e with
    | retryable reason =>
      rw [hclass] at h hdead
      obtain ⟨-, rfl⟩ := (Program.completes_done _).mp h
      simp [hdead]
    | invalidToken body =>
      rw [hclass] at h hdead
      obtain ⟨⟨o, hok⟩, r, s₁, hexec, hrest⟩ := (Program.completes_call _).mp h
      obtain ⟨-, rfl⟩ := (Program.completes_done _).mp hrest
      obtain ⟨devices, rfl, hdevices⟩ := exec_revoke hexec
      have hafter : dead env [p] = [p.token] := hdead
      rw [hafter]
      rcases hdevices with ⟨now, rfl⟩ | ⟨rfl, hfail⟩
      · refine ⟨rfl, rfl, fun k => ?_, fun _ k hk => ?_⟩
        · rw [DeviceTable.activeDevice_revoke]
          by_cases hk : k = p.token
          · exact .inr ⟨if_pos hk, List.mem_singleton.mpr hk⟩
          · exact .inl (if_neg hk)
        · rw [DeviceTable.activeDevice_revoke, if_pos (List.mem_singleton.mp hk)]
      · exact ⟨rfl, rfl, fun _ => .inl rfl, fun hall => absurd (hall o hok) hfail⟩

theorem Sent.cons {d : DeviceToken} {ds : List DeviceToken} {s₁ : FcmState} {sent : List Post}
    {answer : Except String (Nat × String)}
    (hposts : s₁.posts = s.posts ++ [⟨url env, buildMessage d payload, answer⟩])
    (hrevokes : s₁.revokes = s.revokes ++ dead env [⟨url env, buildMessage d payload, answer⟩])
    (hdevices : ∀ k, s₁.devices.activeDevice k = s.devices.activeDevice k ∨
      (s₁.devices.activeDevice k = none ∧ k ∈ dead env [⟨url env, buildMessage d payload, answer⟩]))
    (h : Sent env payload ds s₁ sent s') :
    Sent env payload (d :: ds) s (⟨url env, buildMessage d payload, answer⟩ :: sent) s' := by
  have hdead := dead_append env ⟨url env, buildMessage d payload, answer⟩ sent
  refine ⟨?_, ?_, List.forall_mem_cons.mpr ⟨rfl, h.urls⟩, ?_, fun k => ?_⟩
  · rw [h.posts, hposts, List.append_assoc]
    rfl
  · rw [List.map_cons, List.map_cons, h.messages]
  · rw [h.revokes, hrevokes, hdead, List.append_assoc]
  · rw [hdead, List.mem_append]
    rcases h.devices k with hk | ⟨hk, hmem⟩
    · rcases hdevices k with hk₁ | ⟨hk₁, hmem⟩
      · exact .inl (hk.trans hk₁)
      · exact .inr ⟨hk.trans hk₁, .inl hmem⟩
    · exact .inr ⟨hk, .inr hmem⟩

theorem of_completes_fanOut {ds : List DeviceToken} {fold fold' : Fold}
    (h : s.Completes ok (fanOut env accessToken payload fold ds) fold' s') :
    ∃ sent, Sent env payload ds s sent s' ∧
      fold'.delivered = fold.delivered + sent.countP (accepted env) ∧
      fold'.lastRetryable.isSome = (fold.lastRetryable.isSome || sent.any (retryable env)) ∧
      ((∀ o, ok o → o.succeeds) → ∀ k ∈ dead env sent, s'.devices.activeDevice k = none) := by
  induction ds generalizing fold s with
  | nil =>
    obtain ⟨rfl, rfl⟩ := (Program.completes_done _).mp h
    exact ⟨[], ⟨by simp, rfl, nofun, by simp [dead], fun _ => .inl rfl⟩, rfl, by simp, fun _ =>
      nofun⟩
  | cons d ds ih =>
    rw [fanOut_cons] at h
    obtain ⟨o, answer, s₁, hexec, h⟩ := (Program.completes_call _).mp h
    obtain ⟨u, s₂, hprune, hrest⟩ := (Program.completes_bind _).mp h
    obtain rfl := exec_post hexec
    let post : Post := ⟨url env, buildMessage d payload, answer⟩
    obtain ⟨hposts, hrevokes, hdevices, hpruned⟩ := of_completes_prune (p := post) hprune
    obtain ⟨sent, hsent, hdelivered, hretry, hdead⟩ := ih hrest
    refine ⟨post :: sent, hsent.cons hposts hrevokes hdevices, ?_, ?_, fun hok k hk => ?_⟩
    · have hadd : (fold.add (classify env answer)).delivered = _ := delivered_add fold post
      rw [hdelivered, hadd, List.countP_cons]
      omega
    · have hadd : (fold.add (classify env answer)).lastRetryable.isSome = _ :=
        lastRetryable_add fold post
      rw [hretry, hadd, List.any_cons, Bool.or_assoc]
    · rw [dead_append, List.mem_append] at hk
      rcases hk with hk | hk
      · rcases hsent.devices k with hsame | ⟨hnone, -⟩
        · exact hsame.trans (hpruned hok k hk)
        · exact hnone
      · exact hdead hok k hk

theorem exec_activeForUser {o : FcmOutcome} {user : Uuid} {r : Except NotiError (List DeviceToken)}
    (h : FcmState.exec o (.activeForUser user) s = some (r, s')) :
    s' = s ∧ ((∃ e, r = .error e ∧ ¬o.succeeds) ∨ ∃ ds, r = .ok ds ∧
      (ds.map DeviceToken.token).Nodup ∧ ∀ d, d ∈ ds ↔ s.devices.Active user d) := by
  cases o with
  | device o =>
    obtain ⟨⟨r', devices⟩, hexec, hs⟩ := Option.map_eq_some_iff.mp h
    cases hs
    cases o with
    | listed tokens =>
      obtain ⟨r, hr, hlist⟩ := Option.map_eq_some_iff.mp hexec
      cases hlist
      obtain ⟨ds, rfl, htokens, hnodup, hmem⟩ := DeviceTable.activeForUser_eq_some hr
      exact ⟨rfl, .inr ⟨ds, rfl, htokens ▸ hnodup, hmem⟩⟩
    | fail e =>
      cases hexec
      exact ⟨rfl, .inl ⟨e, rfl, Bool.false_ne_true⟩⟩
    | done | lost => cases hexec
  | _ => cases h

theorem exec_accessToken {o : FcmOutcome} {r : Except NotiError String}
    (h : FcmState.exec o .accessToken s = some (r, s')) :
    s' = s ∧ ((∃ e, r = .error e ∧ ¬o.succeeds) ∨ ∃ token, r = .ok token) := by
  cases o with
  | token t =>
    cases h
    exact ⟨rfl, .inr ⟨t, rfl⟩⟩
  | denied e =>
    cases h
    exact ⟨rfl, .inl ⟨e, rfl, Bool.false_ne_true⟩⟩
  | _ => cases h

theorem report_error {fold : Fold} : (∃ e, report fold = .error e) ↔
    fold.delivered = 0 ∧ fold.lastRetryable.isSome := by
  unfold report
  cases hretry : fold.lastRetryable with
  | none => simp
  | some reason =>
    by_cases hdelivered : fold.delivered = 0
    · simp [hdelivered]
    · simp [hdelivered, Nat.pos_of_ne_zero hdelivered]

/-- What a send to a user has done when it ends, if no call but the requests to FCM failed:
a request for each active device, and it reports an error exactly if no device has
accepted the message and one may do so later. -/
theorem of_completes_send {recipient content : String} {user : Uuid} {r : Except NotiError String}
    (huser : env.parseStr recipient = .ok user)
    (h : s.Completes ok (send env recipient content) r s') :
    (s' = s ∧ (∃ e, r = .error e) ∧ ∃ o, ok o ∧ ¬o.succeeds) ∨
    ∃ ds sent, (ds.map DeviceToken.token).Nodup ∧ (∀ d, d ∈ ds ↔ s.devices.Active user d) ∧
      Sent env (parsePayload env content) ds s sent s' ∧
      ((∃ e, r = .error e) ↔ (∀ p ∈ sent, accepted env p = false) ∧ ∃ p ∈ sent, retryable env p) ∧
      ((∀ o, ok o → o.succeeds) → ∀ k ∈ dead env sent, s'.devices.activeDevice k = none) := by
  rw [send, huser] at h
  obtain ⟨⟨o, hok⟩, listed, s₁, hexec, h⟩ := (Program.completes_call _).mp h
  obtain ⟨rfl, ⟨e, rfl, hfail⟩ | ⟨ds, rfl, hnodup, hmem⟩⟩ := exec_activeForUser hexec
  · obtain ⟨rfl, rfl⟩ := (Program.completes_done _).mp h
    exact .inl ⟨rfl, ⟨e, rfl⟩, o, hok, hfail⟩
  cases ds with
  | nil =>
    obtain ⟨rfl, rfl⟩ := (Program.completes_done _).mp h
    refine .inr ⟨[], [], hnodup, hmem, ⟨by simp, rfl, nofun, by simp [dead], fun _ => .inl rfl⟩, ?_,
      fun _ => nofun⟩
    exact ⟨fun ⟨e, he⟩ => (nomatch he), fun ⟨_, _, hp, _⟩ => (nomatch hp)⟩
  | cons d ds =>
    obtain ⟨⟨o', hok'⟩, access, s₂, hexec', h⟩ := (Program.completes_call _).mp h
    obtain ⟨rfl, ⟨e, rfl, hfail⟩ | ⟨accessToken, rfl⟩⟩ := exec_accessToken hexec'
    · obtain ⟨rfl, rfl⟩ := (Program.completes_done _).mp h
      exact .inl ⟨rfl, ⟨e, rfl⟩, o', hok', hfail⟩
    · have hrest : FcmState.Completes ok s₂ ((fanOut env accessToken (parsePayload env content)
          ⟨0, 0, none⟩ (d :: ds)).bind fun fold => .done (report fold)) r s' := h
      obtain ⟨fold, s₃, hfan, hdone⟩ := (Program.completes_bind _).mp hrest
      obtain ⟨rfl, rfl⟩ := (Program.completes_done _).mp hdone
      obtain ⟨sent, hsent, hdelivered, hretry, hdead⟩ := of_completes_fanOut hfan
      refine .inr ⟨d :: ds, sent, hnodup, hmem, hsent, ?_, hdead⟩
      rw [report_error, hdelivered, hretry, Nat.zero_add, List.countP_eq_zero, Option.isSome_none,
        Bool.false_or, List.any_eq_true]
      simp only [Bool.not_eq_true]

theorem completes_fanOut (answer : DeviceToken → Except String (Nat × String)) (fold : Fold)
    (s : FcmState) (ds : List DeviceToken) :
    ∃ fold' s', s.Completes (fun _ => True) (fanOut env accessToken payload fold ds) fold' s' ∧
      s'.posts = s.posts ++ ds.map fun d => ⟨url env, buildMessage d payload, answer d⟩ := by
  induction ds generalizing fold s with
  | nil => exact ⟨fold, s, (Program.completes_done _).mpr ⟨rfl, rfl⟩, by simp⟩
  | cons d ds ih =>
    let s₁ : FcmState :=
      { s with posts := s.posts ++ [⟨url env, buildMessage d payload, answer d⟩] }
    obtain ⟨s₂, hprune, hposts⟩ : ∃ s₂, s₁.Completes (fun _ => True)
        (prune d.token (classify env (answer d))) () s₂ ∧ s₂.posts = s₁.posts := by
      rcases classify env (answer d) with (body | reason) | u
      · exact ⟨_, (Program.completes_call _).mpr ⟨⟨.device (.done 0 ⟨0⟩), trivial⟩, .ok (), _, rfl,
          (Program.completes_done _).mpr ⟨rfl, rfl⟩⟩, rfl⟩
      · exact ⟨s₁, (Program.completes_done _).mpr ⟨rfl, rfl⟩, rfl⟩
      · exact ⟨s₁, (Program.completes_done _).mpr ⟨rfl, rfl⟩, rfl⟩
    obtain ⟨fold', s', hrest, hposts'⟩ := ih (fold.add (classify env (answer d))) s₂
    refine ⟨fold', s', ?_, ?_⟩
    · rw [fanOut_cons]
      exact (Program.completes_call _).mpr ⟨⟨.answer (answer d), trivial⟩, answer d, s₁, rfl,
        (Program.completes_bind _).mpr ⟨(), s₂, hprune, hrest⟩⟩
    · rw [hposts', hposts, List.append_assoc]
      rfl

end FanOut

section Dead

variable {env : FcmEnv}

/-- The body of an answer gives an error code, in its details or as its status. -/
def HasErrorCode (env : FcmEnv) (body code : String) : Prop :=
  ∃ v, (env.fromStr body).map toValue = some v ∧ ∃ d ∈ details v, errorCode d = some code

def HasStatus (env : FcmEnv) (body code : String) : Prop :=
  ∃ v, (env.fromStr body).map toValue = some v ∧ status v = some code

theorem isInvalidToken_cases {httpStatus : Nat} {body : String}
    (h : isInvalidToken env httpStatus body = true) :
    httpStatus = 404 ∨ HasErrorCode env body "INVALID_ARGUMENT" ∨
      HasErrorCode env body "UNREGISTERED" ∨ HasStatus env body "UNREGISTERED" := by
  unfold isInvalidToken at h
  split at h
  · next h404 => exact .inl h404
  · split at h
    · cases h
    · next v hv =>
      split at h
      · next hany =>
        obtain ⟨d, hd, hcode⟩ := List.any_eq_true.mp hany
        rcases of_decide_eq_true hcode with hcode | hcode
        · exact .inr (.inr (.inl ⟨v, hv, d, hd, hcode⟩))
        · exact .inr (.inl ⟨v, hv, d, hd, hcode⟩)
      · exact .inr (.inr (.inr ⟨v, hv, of_decide_eq_true h⟩))

theorem isInvalidToken_of_code {httpStatus : Nat} {body : String}
    (h : HasErrorCode env body "INVALID_ARGUMENT") : isInvalidToken env httpStatus body = true := by
  obtain ⟨v, hv, d, hd, hcode⟩ := h
  unfold isInvalidToken
  split
  · rfl
  · rw [hv]
    exact if_pos (List.any_eq_true.mpr ⟨d, hd, decide_eq_true (.inr hcode)⟩)

theorem invalid_iff {p : Post} : invalid env p ↔ ∃ httpStatus body, p.answer =
    .ok (httpStatus, body) ∧
    ¬(200 ≤ httpStatus ∧ httpStatus < 300) ∧ isInvalidToken env httpStatus body := by
  unfold invalid classify
  rcases p.answer with e | ⟨httpStatus, body⟩
  · simp
  · by_cases hok : 200 ≤ httpStatus ∧ httpStatus < 300
    · simp only [if_pos hok]
      refine iff_of_false Bool.false_ne_true ?_
      rintro ⟨_, _, heq, hnot, -⟩
      cases heq
      exact hnot hok
    · simp only [if_neg hok, Except.ok.injEq, Prod.mk.injEq]
      cases hinvalid : isInvalidToken env httpStatus body with
      | true => exact iff_of_true rfl ⟨httpStatus, body, ⟨rfl, rfl⟩, hok, hinvalid⟩
      | false =>
        refine iff_of_false Bool.false_ne_true ?_
        rintro ⟨_, _, ⟨rfl, rfl⟩, -, hdead⟩
        rw [hinvalid] at hdead
        cases hdead

/-- FCM, as it is documented: what it knows, and the answers it may give to a request. -/
structure Service (env : FcmEnv) where
  wellFormed : String → Prop
  registered : String → Prop
  messageValid : Json → Prop
  known : String → Prop
  answers : String → Json → Nat → String → Prop
  refused : ∀ url message, ¬wellFormed (tokenOf message) ∨ ¬messageValid message →
    ∃ body, answers url message 400 body ∧ HasErrorCode env body "INVALID_ARGUMENT"
  missing : ∀ url message, ¬registered (tokenOf message) ∨ ¬known url →
    ∃ body, answers url message 404 body
  invalidArgument : ∀ url message status body, answers url message status body →
    HasErrorCode env body "INVALID_ARGUMENT" → ¬wellFormed (tokenOf message) ∨ ¬messageValid message
  unregistered : ∀ url message status body, answers url message status body →
    HasErrorCode env body "UNREGISTERED" ∨ HasStatus env body "UNREGISTERED" →
    ¬registered (tokenOf message)
  notFound : ∀ url message body, answers url message 404 body →
    ¬registered (tokenOf message) ∨ ¬known url
  success : ∀ url message status body, answers url message status body →
    200 ≤ status → status < 300 → wellFormed (tokenOf message) ∧ registered (tokenOf message) ∧
      messageValid message ∧ known url

def Service.Answered (S : Service env) (p : Post) : Prop :=
  ∀ status body, p.answer = .ok (status, body) → S.answers p.url p.message status body

/-- A well-formed token that is registered with FCM. -/
def Service.Live (S : Service env) (token : String) : Prop :=
  S.wellFormed token ∧ S.registered token

theorem Service.not_live (S : Service env) {p : Post} (hanswered : S.Answered p)
    (hinvalid : invalid env p) (hvalid : S.messageValid p.message) (hknown : S.known p.url) :
    ¬S.Live p.token := by
  rintro ⟨hwell, hregistered⟩
  obtain ⟨httpStatus, body, hanswer, -, hdead⟩ := invalid_iff.mp hinvalid
  have hgiven := hanswered httpStatus body hanswer
  rcases isInvalidToken_cases hdead with rfl | hcode | hcode
  · exact (S.notFound _ _ _ hgiven).elim (fun h => h hregistered) fun h => h hknown
  · exact (S.invalidArgument _ _ _ _ hgiven hcode).elim (fun h => h hwell) fun h => h hvalid
  · exact S.unregistered _ _ _ _ hgiven hcode hregistered

theorem Service.exists_dead_answer (S : Service env) {url : String} {message : Json}
    (h : ¬(S.messageValid message ∧ S.known url)) :
    ∃ httpStatus body, S.answers url message httpStatus body ∧
      invalid env ⟨url, message, .ok (httpStatus, body)⟩ := by
  by_cases hvalid : S.messageValid message
  · obtain ⟨body, hanswer⟩ := S.missing url message (.inr fun hknown => h ⟨hvalid, hknown⟩)
    exact ⟨404, body, hanswer, invalid_iff.mpr ⟨404, body, rfl, by omega, rfl⟩⟩
  · obtain ⟨body, hanswer, hcode⟩ := S.refused url message (.inr hvalid)
    exact ⟨400, body, hanswer, invalid_iff.mpr
      ⟨400, body, rfl, by omega, isInvalidToken_of_code hcode⟩⟩

theorem Sent.exists_device {payload : PushPayload} {ds : List DeviceToken} {s s' : FcmState}
    {sent : List Post} (h : Sent env payload ds s sent s') {p : Post} (hp : p ∈ sent) :
    ∃ d ∈ ds, p.message = buildMessage d payload ∧ p.token = d.token := by
  obtain ⟨d, hd, hmessage⟩ := List.mem_map.mp (h.messages ▸ List.mem_map_of_mem hp)
  exact ⟨d, hd, hmessage.symm, by rw [Post.token, ← hmessage, tokenOf_buildMessage]⟩

theorem completes_send {recipient : String} (content : String) {user : Uuid} {devices : DeviceTable}
    (huser : env.parseStr recipient = .ok user) {d : DeviceToken} (hd : devices.Active user d)
    (answer : DeviceToken → Except String (Nat × String)) :
    ∃ (ds : List DeviceToken) (r : Except NotiError String) (s' : FcmState), d ∈ ds ∧
      FcmState.Completes (fun _ => True) ⟨devices, [], []⟩ (send env recipient content) r s' ∧
      s'.posts = ds.map fun d => ⟨url env, buildMessage d (parsePayload env content),
          answer d⟩ := by
  let tokens := (devices.activeRows user).map DeviceTokenRow.token
  obtain ⟨listed, hlisted⟩ : ∃ r, devices.activeForUser user tokens = some r :=
    ⟨_, if_pos (List.Perm.refl _)⟩
  obtain ⟨ds, rfl, -, -, hmem⟩ := DeviceTable.activeForUser_eq_some hlisted
  have hin := (hmem d).mpr hd
  obtain ⟨fold, s', hfan, hposts⟩ : ∃ fold s', FcmState.Completes (fun _ => True) ⟨devices, [], []⟩
      (fanOut env "token" (parsePayload env content) ⟨0, 0, none⟩ ds) fold s' ∧ _ :=
    completes_fanOut answer ⟨0, 0, none⟩ ⟨devices, [], []⟩ ds
  refine ⟨ds, report fold, s', hin, ?_, hposts⟩
  rw [send, huser]
  refine (Program.completes_call _).mpr ⟨⟨.device (.listed tokens), trivial⟩, .ok ds,
    ⟨devices, [], []⟩, ?_, ?_⟩
  · exact Option.map_eq_some_iff.mpr ⟨_, Option.map_eq_some_iff.mpr ⟨_, hlisted, rfl⟩, rfl⟩
  · cases ds with
    | nil => cases hin
    | cons d₀ ds =>
      have hrest : FcmState.Completes (fun _ => True) ⟨devices, [], []⟩
          ((fanOut env "token" (parsePayload env content) ⟨0, 0, none⟩ (d₀ :: ds)).bind
            fun fold => .done (report fold)) (report fold) s' :=
        (Program.completes_bind _).mpr ⟨fold, s', hfan, (Program.completes_done _).mpr ⟨rfl, rfl⟩⟩
      exact (Program.completes_call _).mpr ⟨⟨.token "token", trivial⟩, .ok "token", _, rfl, hrest⟩

theorem Service.exists_revocation (S : Service env) {recipient content : String} {user : Uuid}
    {devices : DeviceTable} {d : DeviceToken} (huser : env.parseStr recipient = .ok user)
    (hd : devices.Active user d)
    (hbad : ¬(S.messageValid (buildMessage d (parsePayload env content)) ∧ S.known (url env))) :
    ∃ r s', FcmState.Completes (fun _ => True) ⟨devices, [], []⟩ (send env recipient content) r s' ∧
      (∀ p ∈ s'.posts, S.Answered p) ∧ d.token ∈ s'.revokes := by
  obtain ⟨httpStatus, body, hgiven, hinvalid⟩ := S.exists_dead_answer hbad
  obtain ⟨ds, r, s', hin, hcompletes, hposts⟩ := completes_send content huser hd
    fun d' => if d' = d then .ok (httpStatus, body) else .error "operation timed out"
  have hpost : (⟨url env, buildMessage d (parsePayload env content), .ok (httpStatus, body)⟩ : Post)
      ∈ s'.posts := by
    rw [hposts]
    exact List.mem_map.mpr ⟨d, hin, by rw [if_pos rfl]⟩
  refine ⟨r, s', hcompletes, ?_, ?_⟩
  · rw [hposts, List.forall_mem_map]
    intro d' _ status' body' hanswer
    dsimp only at hanswer
    split at hanswer
    · next heq =>
      cases hanswer
      exact heq ▸ hgiven
    · cases hanswer
  · rcases of_completes_send huser hcompletes with ⟨rfl, -⟩ | ⟨_, sent, -, -, hsent, -⟩
    · cases hpost
    · rw [hsent.posts] at hpost
      rw [hsent.revokes]
      exact List.mem_map.mpr ⟨_, List.mem_filter.mpr ⟨hpost, hinvalid⟩, rfl⟩

end Dead

/-- `send` never revokes a live token exactly if every message it builds for a live token is
one that FCM accepts as well formed, and the project is known. -/
theorem send_revokes_dead_only_iff (env : FcmEnv) (S : Service env) (devices : DeviceTable)
    (recipient content : String) :
    (∀ r s', FcmState.Completes (fun _ => True) ⟨devices, [], []⟩
    (send env recipient content) r s' →
      (∀ p ∈ s'.posts, S.Answered p) → ∀ token ∈ s'.revokes, ¬S.Live token) ↔
    ∀ user d, env.parseStr recipient = .ok user → devices.Active user d → S.Live d.token →
      S.messageValid (buildMessage d (parsePayload env content)) ∧ S.known (url env) := by
  constructor
  · intro hclaim user d huser hd hlive
    by_contra hbad
    obtain ⟨r, s', hcompletes, hanswered, htoken⟩ := S.exists_revocation huser hd hbad
    exact hclaim r s' hcompletes hanswered d.token htoken hlive
  · intro hgood r s' hcompletes hanswered token htoken hlive
    cases huser : env.parseStr recipient with
    | error e =>
      rw [send, huser] at hcompletes
      obtain ⟨-, rfl⟩ := (Program.completes_done _).mp hcompletes
      cases htoken
    | ok user =>
      rcases of_completes_send huser hcompletes with ⟨rfl, -⟩ | ⟨ds, sent, -, hmem, hsent, -⟩
      · cases htoken
      · rw [hsent.revokes] at htoken
        obtain ⟨p, hp, rfl⟩ := List.mem_map.mp htoken
        obtain ⟨hp, hinvalid⟩ := List.mem_filter.mp hp
        obtain ⟨d, hd, hmessage, hptoken⟩ := hsent.exists_device hp
        obtain ⟨hvalid, hknown⟩ := hgood user d huser ((hmem d).mp hd) (hptoken ▸ hlive)
        refine S.not_live (hanswered p (by rw [hsent.posts]; exact hp)) hinvalid
          (hmessage ▸ hvalid) ?_
          hlive
        rw [hsent.urls p hp]
        exact hknown

def numericData : String := "\x7b\"body\":\"hi\",\"data\":\x7b\"k\":1\x7d\x7d"

def refusal : String := "\x7b\"error\":\x7b\"code\":400,\"status\":\"INVALID_ARGUMENT\"," ++
  "\"details\":[\x7b\"errorCode\":\"INVALID_ARGUMENT\"\x7d]\x7d\x7d"

def sampleEnv : FcmEnv where
  parseStr _ := .ok ⟨7⟩
  fromStr s :=
    if s = numericData then
      some (.obj [("body", .str "hi"), ("data", .obj [("k", .num (.int 1))])])
    else if s = refusal then
      some (.obj [("error", .obj [("code", .num (.int 400)), ("status", .str "INVALID_ARGUMENT"),
        ("details", .arr [.obj [("errorCode", .str "INVALID_ARGUMENT")]])])])
    else none
  statusText := Nat.repr
  messagingBaseUrl := "https://fcm.googleapis.com"
  projectId := "project"

/-- FCM with every token registered: it refuses a number under `data`. -/
def sampleService : Service sampleEnv where
  wellFormed _ := True
  registered _ := True
  messageValid message := ∀ data, message.get "data" = some data → ∀ z, data.get "k" ≠ some (.num z)
  known _ := True
  answers _ message status body :=
    ((∀ data, message.get "data" = some data → ∀ z, data.get "k" ≠ some (.num z)) ∧
      status = 200 ∧ body = "") ∨
    ((∃ data z, message.get "data" = some data ∧ data.get "k" = some (.num z)) ∧
      status = 400 ∧ body = refusal)
  refused _ message h := by
    have hdata : ∃ data z, message.get "data" = some data ∧ data.get "k" = some (.num z) := by
      simpa using h
    exact ⟨refusal, .inr ⟨hdata, rfl, rfl⟩, _, rfl, _, List.mem_cons_self .., rfl⟩
  missing _ _ h := by simp at h
  invalidArgument _ message status body h hcode := by
    rcases h with ⟨-, -, rfl⟩ | ⟨hdata, -, -⟩
    · obtain ⟨v, hv, -⟩ := hcode
      cases hv
    · simpa using hdata
  unregistered _ message status body h hcode := by
    rcases h with ⟨-, -, rfl⟩ | ⟨-, -, rfl⟩
    · rcases hcode with ⟨v, hv, -⟩ | ⟨v, hv, -⟩ <;> cases hv
    · rcases hcode with ⟨v, hv, d, hd, hc⟩ | ⟨v, hv, hc⟩
      · cases hv
        cases hd with
        | head =>
          have heq : some "INVALID_ARGUMENT" = some "UNREGISTERED" := hc
          exact absurd heq (by decide)
        | tail _ hd => cases hd
      · cases hv
        have heq : some "INVALID_ARGUMENT" = some "UNREGISTERED" := hc
        exact absurd heq (by decide)
  notFound _ _ _ h := by
    rcases h with ⟨-, h, -⟩ | ⟨-, h, -⟩ <;> cases h
  success _ _ _ _ h _ hlt := by
    rcases h with ⟨hvalid, -, -⟩ | ⟨-, rfl, -⟩
    · exact ⟨trivial, trivial, hvalid, trivial⟩
    · omega

/-- A number under `data` revokes a live token. -/
theorem send_revokes_live : ¬∀ (env : FcmEnv) (S : Service env) devices recipient content r s',
    FcmState.Completes (fun _ => True) ⟨devices, [], []⟩ (send env recipient content) r s' →
      (∀ p ∈ s'.posts, S.Answered p) → ∀ token ∈ s'.revokes, ¬S.Live token := by
  intro hclaim
  obtain ⟨devices, d, hregister⟩ : ∃ devices d,
      DeviceTable.empty.register 0 ⟨1⟩ ⟨7⟩ "tok" .web = .ok (d, devices) := ⟨_, _, rfl⟩
  obtain ⟨htoken, huser, -, hget⟩ := DeviceTable.register_eq_ok hregister
  have hactive : devices.Active ⟨7⟩ d := ⟨by rw [hget, if_pos htoken], huser⟩
  have hbad : ¬(sampleService.messageValid (buildMessage d (parsePayload sampleEnv numericData)) ∧
      sampleService.known (url sampleEnv)) := by
    rintro ⟨hvalid, -⟩
    exact hvalid (.obj [("k", .num (.int 1))]) rfl (.int 1) rfl
  obtain ⟨r, s', hcompletes, hanswered, hin⟩ : ∃ r s', FcmState.Completes (fun _ => True)
      ⟨devices, [], []⟩ (send sampleEnv "00000000-0000-0000-0000-000000000007" numericData) r s' ∧
          _ :=
    sampleService.exists_revocation rfl hactive hbad
  exact hclaim _ sampleService devices _ _ r s' hcompletes hanswered d.token hin ⟨trivial, trivial⟩

end Fcm

end NotiService
