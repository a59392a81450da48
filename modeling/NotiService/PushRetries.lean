import NotiService.DeadTokens
import NotiService.RowHistory

/-! The attempts to deliver a Push notification: `dispatch` with the FCM provider in place of
its call of the push provider. One dispatch follows the other; the registry may change in
between. -/

namespace NotiService
open Foundation Orchestrator

abbrev PushOp (β : Type) := Op β ⊕ FcmOp β

/-- `dispatch` with the provider's program for each push it sends, and the results these had. -/
def Fcm.wire {α : Type} (env : FcmEnv) :
    Program Op α → Program PushOp (List (Except NotiError String) × α)
  | .done value => .done ([], value)
  | .call (.send .push recipient content) rest =>
    ((Fcm.send env recipient content).mapOps fun op => .inr op).bind fun report =>
      (wire env (rest report)).map fun (reports, value) => (report :: reports, value)
  | .call op rest => .call (.inl op) fun answer => wire env (rest answer)

inductive PushOutcome where
  | op (o : Outcome)
  | fcm (o : FcmOutcome)

def OpKind.assumed (kind : OpKind) (o : Outcome) : Bool :=
  !(kind.repository || kind = .render) || !o.failed

theorem Failed.not_assumed {Bytes : Type} {kind : OpKind} {o : Outcome} {e : NotiError}
    {w w₁ w' : World Bytes} (h : Failed e w w₁ o w') (hkind : kind.repository) :
      ¬kind.assumed o := by
  rw [OpKind.assumed, hkind, h.failed]
  exact Bool.false_ne_true

structure PushWorld (Bytes : Type) where
  world : World Bytes
  fcm : FcmState

variable {Bytes : Type}

def PushWorld.exec (d : Deployment Bytes) (o : PushOutcome) :
    {β : Type} → PushOp β → PushWorld Bytes → Option (β × PushWorld Bytes)
  | _, .inl op, w =>
    match o with
    | .op o =>
      if op.kind.assumed o then
        (NotiService.exec d o op w.world).map fun (r, world) => (r, { w with world })
      else none
    | _ => none
  | _, .inr op, w =>
    match o with
    | .fcm o =>
      if o.succeeds then (FcmState.exec o op w.fcm).map fun (r, fcm) => (r, { w with fcm })
      else none
    | _ => none

/-- What an attempt has found in the registry and left there, the requests to FCM and the
revocations it has made, and what the provider reported. -/
structure Attempt where
  found : DeviceTable
  posts : List Post
  revokes : List String
  reports : List (Except NotiError String)
  left : DeviceTable

structure PushState (Bytes : Type) where
  world : World Bytes
  devices : DeviceTable
  attempts : List Attempt

inductive PushLabel where
  | tick (ms : Nat)
  | register (now : Int) (newId user : Uuid) (token : String) (platform : DevicePlatform)
  | revoke (now : Int) (token : String)
  | attempt (script : List PushOutcome)

/-- The dispatches of the notification `id` until it is terminal, from any state of its row. -/
def pushSystem (d : Deployment Bytes) (env : FcmEnv) (id : Uuid) :
    System (PushState Bytes) PushLabel where
  init s := (∃ n, s.world.table.getById id = some n ∧ n.channel = .push) ∧ s.attempts = []
  step s
    | .tick ms => some { s with world := s.world.tick ms }
    | .register now newId user token platform =>
      (s.devices.register now newId user token platform).toOption.map fun (_, devices) =>
        { s with devices }
    | .revoke now token => some { s with devices := s.devices.revoke now token }
    | .attempt script =>
      if (s.world.table.getById id).any fun n => n.status.live then
        (Program.play (PushWorld.exec d) (Fcm.wire env (dispatch d.mq id).run) script
          ⟨s.world, ⟨s.devices, [], []⟩⟩).map fun ((reports, _), w) =>
            { world := w.world
              devices := w.fcm.devices
              attempts := s.attempts ++
                [⟨s.devices, w.fcm.posts, w.fcm.revokes, reports, w.fcm.devices⟩] }
      else none

namespace Fcm

section Attempt

variable {α : Type} {d : Deployment Bytes} {env : FcmEnv} {id : Uuid} {script : List PushOutcome}
  {w w' : PushWorld Bytes}

theorem wire_call {β : Type} {op : Op β} {rest : β → Program Op α} (hop : op.kind ≠ .send) :
    wire env (.call op rest) = .call (.inl op) fun answer => wire env (rest answer) := by
  cases op with
  | send => exact absurd rfl hop
  | _ => rfl

theorem exec_inl {β : Type} {o : PushOutcome} {op : Op β} {answer : β}
    (h : PushWorld.exec d o (.inl op) w = some (answer, w')) :
    ∃ o' world, o = .op o' ∧ op.kind.assumed o' ∧ NotiService.exec d o' op w.world =
      some (answer, world) ∧
      w' = { w with world } := by
  cases o with
  | op o' =>
    obtain ⟨hassumed, h⟩ := Option.ite_none_right_eq_some.mp h
    obtain ⟨⟨r, world⟩, hexec, hw⟩ := Option.map_eq_some_iff.mp h
    cases hw
    exact ⟨o', world, rfl, hassumed, hexec, rfl⟩
  | fcm o' => cases h

theorem of_play_wire {p : Program Op α} {kind : OpKind} {v : List (Except NotiError String) × α}
    (hkind : awaits p = some kind) (hsend : kind ≠ .send)
    (h : Program.play (PushWorld.exec d) (wire env p) script w = some (v, w')) :
    ∃ o script' p' world, script = .op o :: script' ∧ kind.assumed o ∧
      Program.step (NotiService.exec d o) p w.world = some (p', world) ∧
      Program.play (PushWorld.exec d) (wire env p') script' { w with world } = some (v, w') := by
  cases p with
  | done value => cases hkind
  | call op rest =>
    obtain rfl := Option.some.inj hkind
    rw [wire_call hsend] at h
    obtain ⟨o, script', answer, w₁, rfl, hcall, hrest⟩ := (Program.play_call_eq_some _).mp h
    obtain ⟨o', world, rfl, hassumed, hexec, rfl⟩ := exec_inl hcall
    exact ⟨o', script', rest answer, world, rfl, hassumed,
      (Program.step_call_eq_some _ _ _ _ _ _).mpr ⟨answer, hexec, rfl⟩, hrest⟩

theorem of_play_prog {pc : DispatchPc} {kind : OpKind}
    {v : List (Except NotiError String) × Except NotiError Unit}
    (hkind : pc.kind = some kind) (hsend : kind ≠ .send)
    (h : Program.play (PushWorld.exec d) (wire env (pc.prog d.mq id)) script w = some (v, w')) :
    ∃ o script' pc' world, script = .op o :: script' ∧ kind.assumed o ∧
      DispatchStep d id o w.world pc world pc' ∧
      Program.play (PushWorld.exec d) (wire env (pc'.prog d.mq id)) script' { w with world } =
        some (v, w') := by
  obtain ⟨o, script', p', world, hscript, hassumed, hstep, hrest⟩ :=
    of_play_wire ((pc.awaits_prog d.mq id).trans hkind) hsend h
  obtain ⟨pc', rfl, hs⟩ := dispatchStep_of_step hstep
  exact ⟨o, script', pc', world, hscript, hassumed, hs, hrest⟩

def pastSend : DispatchPc → Bool
  | .load | .mark _ | .render _ | .encode _ _ | .send _ _ => false
  | _ => true

theorem pastSend_of_step {o : Outcome} {pc pc' : DispatchPc} {w w' : World Bytes}
    (h : DispatchStep d id o w pc w' pc') (hpc : pastSend pc) : pastSend pc' := by
  cases h with
  | repend =>
    unfold DispatchPc.retryVia
    split <;> rfl
  | load | loadTerminal | loadMissing | loadFail | mark | markFail | render | renderFail | encode
  | encodeFail | send | sendFail | sendExhausted => cases hpc
  | _ => rfl

theorem pastSend_afterSend (n : Notification) (report : Except NotiError String) :
    pastSend (DispatchPc.afterSend n report) := by
  cases report with
  | ok ref => rfl
  | error e => by_cases hmax : maxRetries ≤ n.retryCount <;> simp [DispatchPc.afterSend, hmax,
      pastSend]

theorem kind_of_pastSend {pc : DispatchPc} (hpc : pastSend pc) : pc.kind ≠ some .send := by
  intro hkind
  cases pc with
  | send => cases hpc
  | _ => cases hkind

theorem of_play_done {r v : Except NotiError Unit} {reports : List (Except NotiError String)}
    (h : Program.play (PushWorld.exec d) (wire env ((DispatchPc.done r).prog d.mq id)) script w =
      some ((reports, v), w')) : reports = [] ∧ w' = w := by
  obtain ⟨-, hv, rfl⟩ := (Program.play_done_eq_some _).mp h
  cases hv
  exact ⟨rfl, rfl⟩

theorem evolves_of_step {o : Outcome} {pc pc' : DispatchPc} {w w' : World Bytes} {n : Notification}
    (h : DispatchStep d id o w pc w' pc') (hn : w.table.getById id = some n) :
    ∃ n', w'.table.getById id = some n' ∧ n.Evolves n' := by
  rcases h.row with hsame | ⟨f, hf, hmap⟩
  · exact ⟨n, hsame.trans hn, .refl n⟩
  · exact ⟨f n, by rw [hmap, hn]; rfl, DispatchPc.write_evolves hf n⟩

theorem of_play_pastSend {pc : DispatchPc} {reports : List (Except NotiError String)}
    {v : Except NotiError Unit} {n : Notification} (hpc : pastSend pc)
    (hn : w.world.table.getById id = some n)
    (h : Program.play (PushWorld.exec d) (wire env (pc.prog d.mq id)) script w =
      some ((reports, v), w')) :
    reports = [] ∧ w'.fcm = w.fcm ∧
      ∃ n', w'.world.table.getById id = some n' ∧ n.Evolves n' := by
  induction script generalizing pc w n with
  | nil =>
    cases hkind : pc.kind with
    | none =>
      cases pc with
      | done r =>
        obtain ⟨rfl, rfl⟩ := of_play_done h
        exact ⟨rfl, rfl, n, hn, .refl n⟩
      | _ => cases hkind
    | some kind =>
      obtain ⟨_, _, _, _, hscript, -⟩ :=
        of_play_prog hkind (fun hsend => kind_of_pastSend hpc (hkind.trans (congrArg some hsend))) h
      cases hscript
  | cons o script ih =>
    cases hkind : pc.kind with
    | none =>
      cases pc with
      | done r => cases h
      | _ => cases hkind
    | some kind =>
      obtain ⟨o', script', pc', world, hscript, -, hs, hrest⟩ :=
        of_play_prog hkind (fun hsend => kind_of_pastSend hpc (hkind.trans (congrArg some hsend))) h
      cases hscript
      obtain ⟨n₁, hn₁, hev⟩ := evolves_of_step hs hn
      obtain ⟨hreports, hfcm, n', hn', hev'⟩ := ih (pastSend_of_step hs hpc) hn₁ hrest
      exact ⟨hreports, hfcm, n', hn', hev.trans hev'⟩

theorem of_play_push {p : Program FcmOp α} {value : α}
    (h : Program.play (PushWorld.exec d) (p.mapOps fun op => .inr op) script w = some (value, w')) :
    w'.world = w.world ∧ w.fcm.Completes (fun o => o.succeeds) p value w'.fcm := by
  have hexec : ∀ {β : Type} (o : PushOutcome) (op : FcmOp β) (w : PushWorld Bytes) (answer : β)
      (w' : PushWorld Bytes), PushWorld.exec d o (.inr op) w = some (answer, w') →
        w'.world = w.world ∧ ∃ o : { o : FcmOutcome // o.succeeds },
          FcmState.exec o.1 op w.fcm = some (answer, w'.fcm) := by
    intro β o op w answer w' h
    cases o with
    | op o => cases h
    | fcm o =>
      obtain ⟨hok, h⟩ := Option.ite_none_right_eq_some.mp h
      obtain ⟨⟨r, fcm⟩, hexec, hw⟩ := Option.map_eq_some_iff.mp h
      cases hw
      exact ⟨rfl, ⟨o, hok⟩, hexec⟩
  exact Program.of_completes_mapOps (R := fun w w' : PushWorld Bytes => w'.world = w.world)
    (fun o : { o : FcmOutcome // o.succeeds } => FcmState.exec o.1) (fun _ => rfl)
    (fun _ _ _ h h' => h'.trans h) hexec ⟨script, h⟩

variable {n : Notification} {reports : List (Except NotiError String)} {v : Except NotiError Unit}

theorem of_play_load (hn : w.world.table.getById id = some n) (hlive : n.status.live)
    (h : Program.play (PushWorld.exec d) (wire env (dispatch d.mq id).run) script w =
      some ((reports, v), w')) :
    ∃ script', Program.play (PushWorld.exec d)
      (wire env ((DispatchPc.mark n).prog d.mq id)) script' w =
      some ((reports, v), w') := by
  obtain ⟨o, script', pc, world, -, hassumed, hs, hrest⟩ :=
    of_play_prog (show DispatchPc.load.kind = some .getById from rfl) (fun h => nomatch h) h
  cases hs with
  | load hn' =>
    obtain rfl := Option.some.inj (hn.symm.trans hn')
    exact ⟨script', hrest⟩
  | loadTerminal hn' hdead =>
    obtain rfl := Option.some.inj (hn.symm.trans hn')
    rw [hdead] at hlive
    cases hlive
  | loadMissing hn' =>
    rw [hn] at hn'
    cases hn'
  | loadFail hf => exact absurd hassumed (hf.not_assumed rfl)

theorem of_play_mark (hn : w.world.table.getById id = some n)
    (h : Program.play (PushWorld.exec d) (wire env ((DispatchPc.mark n).prog d.mq id)) script w =
      some ((reports, v), w')) :
    ∃ script' world n', world.table.getById id = some n' ∧ n.Evolves n' ∧
      Program.play (PushWorld.exec d) (wire env ((DispatchPc.render n).prog d.mq id)) script'
        { w with world } = some ((reports, v), w') := by
  obtain ⟨o, script', pc, world, -, hassumed, hs, hrest⟩ :=
    of_play_prog (show (DispatchPc.mark n).kind = some .updateStatus from rfl)
      (fun h => nomatch h) h
  obtain ⟨n', hn', hev⟩ := evolves_of_step hs hn
  cases hs with
  | mark => exact ⟨script', _, n', hn', hev, hrest⟩
  | markFail hf => exact absurd hassumed (hf.not_assumed rfl)

theorem of_play_render (hpush : n.channel = .push)
    (h : Program.play (PushWorld.exec d) (wire env ((DispatchPc.render n).prog d.mq id)) script w =
      some ((reports, v), w')) :
    ∃ script' content, Program.play (PushWorld.exec d)
      (wire env ((DispatchPc.send n content).prog d.mq id)) script' w =
          some ((reports, v), w') := by
  obtain ⟨o, script', pc, world, -, hassumed, hs, hrest⟩ :=
    of_play_prog (show (DispatchPc.render n).kind = some .render from rfl) (fun h => nomatch h) h
  have hnot : NotificationChannel.push ≠ .webSocket := by decide
  cases hs with
  | @render _ _ content =>
    rw [DispatchPc.afterRender, hpush, if_neg hnot] at hrest
    exact ⟨script', content, hrest⟩
  | renderFail => cases hassumed

theorem of_play_send {content : String} (hpush : n.channel = .push)
    (h : Program.play (PushWorld.exec d) (wire env ((DispatchPc.send n content).prog d.mq id))
    script w =
      some ((reports, v), w')) :
    ∃ script' report later w₁, w₁.world = w.world ∧
      w.fcm.Completes (fun o => o.succeeds) (send env n.recipient content) report w₁.fcm ∧
      reports = report :: later ∧ Program.play (PushWorld.exec d)
        (wire env ((DispatchPc.afterSend n report).prog d.mq id)) script' w₁ =
            some ((later, v), w') := by
  rw [DispatchPc.prog_send, hpush] at h
  have hsend : Program.play (PushWorld.exec d)
      (((send env n.recipient content).mapOps fun op => .inr op).bind fun report =>
        (wire env ((DispatchPc.afterSend n report).prog d.mq id)).map fun (reports, value) =>
          (report :: reports, value)) script w = some ((reports, v), w') := h
  obtain ⟨script₁, script₂, report, w₁, -, hsent, hrest⟩ := Program.play_bind_eq_some _ hsend
  obtain ⟨hworld, hcompletes⟩ := of_play_push hsent
  obtain ⟨⟨later, v'⟩, hreports, hrest⟩ := Program.play_map_eq_some _ hrest
  cases hreports
  exact ⟨script₂, report, later, w₁, hworld, hcompletes, rfl, hrest⟩

theorem of_play_succeed {ref : String} (hn : w.world.table.getById id = some n)
    (h : Program.play (PushWorld.exec d) (wire env ((DispatchPc.succeed ref).prog d.mq id)) script
    w =
      some ((reports, v), w')) :
    ∃ n', w'.world.table.getById id = some n' ∧ n'.status.live = false := by
  obtain ⟨o, script', pc, world, -, hassumed, hs, hrest⟩ :=
    of_play_prog (show (DispatchPc.succeed ref).kind = some .updateStatus from rfl)
      (fun h => nomatch h) h
  cases hs with
  | succeed =>
    obtain ⟨-, rfl⟩ := of_play_done hrest
    exact ⟨NotificationTable.withStatus w.world.now .sent none (some ref) n,
      by simp [hn], rfl⟩
  | succeedFail hf => exact absurd hassumed (hf.not_assumed rfl)

/-- One dispatch of a live Push notification makes one send, and the row is terminal if that
reports no error. -/
theorem of_play_dispatch (hn : w.world.table.getById id = some n) (hlive : n.status.live)
    (hpush : n.channel = .push)
    (h : Program.play (PushWorld.exec d) (wire env (dispatch d.mq id).run) script w =
      some ((reports, v), w')) :
    ∃ content report, reports = [report] ∧
      w.fcm.Completes (fun o => o.succeeds) (send env n.recipient content) report w'.fcm ∧
      ∃ n', w'.world.table.getById id = some n' ∧ n.Evolves n' ∧
        ∀ ref, report = .ok ref → n'.status.live = false := by
  obtain ⟨_, hmark⟩ := of_play_load hn hlive h
  obtain ⟨_, world, n₁, hn₁, hev, hrender⟩ := of_play_mark hn hmark
  obtain ⟨_, content, hsend⟩ := of_play_render hpush hrender
  obtain ⟨_, report, later, w₁, hworld, hcompletes, rfl, hrest⟩ := of_play_send hpush hsend
  have hn₂ : w₁.world.table.getById id = some n₁ := hworld ▸ hn₁
  obtain ⟨rfl, hfcm, n', hn', hev'⟩ := of_play_pastSend (pastSend_afterSend n report) hn₂ hrest
  refine ⟨content, report, rfl, hfcm ▸ hcompletes, n', hn', hev.trans hev', ?_⟩
  rintro ref rfl
  obtain ⟨n'', hn'', hdead⟩ := of_play_succeed hn₂ hrest
  obtain rfl := Option.some.inj (hn'.symm.trans hn'')
  exact hdead

end Attempt

end Fcm

structure Attempt.Delivers (env : FcmEnv) (user : Uuid) (a : Attempt) : Prop where
  once : (a.posts.map Post.token).Nodup
  contacted : ∀ token, token ∈ a.posts.map Post.token ↔ a.found.owner token = some user
  reported : ∃ report, a.reports = [report] ∧ ((∃ e, report = .error e) ↔
    (∀ p ∈ a.posts, Fcm.accepted env p = false) ∧ ∃ p ∈ a.posts, Fcm.retryable env p)
  revoked : a.revokes = Fcm.dead env a.posts
  left : ∀ token, a.left.activeDevice token =
    if token ∈ a.revokes then none else a.found.activeDevice token

/-- A recipient that is not a user id is refused, and no device is contacted. -/
structure Attempt.Refused (e : String) (a : Attempt) : Prop where
  posts : a.posts = []
  revokes : a.revokes = []
  reports : a.reports = [.error (.validation ("FCM recipient must be a user_id UUID: " ++ e))]
  left : a.left = a.found

def Attempt.Accords (env : FcmEnv) (recipient : String) (a : Attempt) : Prop :=
  match env.parseStr recipient with
  | .ok user => a.Delivers env user
  | .error e => a.Refused e

namespace Attempt

variable {env : FcmEnv} {recipient content : String} {a : Attempt}

theorem accords_of_completes {report : Except NotiError String} {devices : DeviceTable}
    {fcm : FcmState}
    (h : FcmState.Completes (fun o => o.succeeds) ⟨devices, [], []⟩ (Fcm.send env recipient content)
      report fcm) : Accords env recipient ⟨devices, fcm.posts, fcm.revokes, [report],
          fcm.devices⟩ := by
  unfold Accords
  cases huser : env.parseStr recipient with
  | error e =>
    rw [Fcm.send, huser] at h
    obtain ⟨rfl, rfl⟩ := (Program.completes_done _).mp h
    exact ⟨rfl, rfl, rfl, rfl⟩
  | ok user =>
    rcases Fcm.of_completes_send huser h with
      ⟨-, -, o, hok, hfail⟩ | ⟨ds, sent, hnodup, hmem, hsent,
      hreport, hdead⟩
    · exact absurd hok hfail
    · have hposts : fcm.posts = sent := hsent.posts
      have hrevokes : fcm.revokes = Fcm.dead env sent := hsent.revokes
      have htokens : sent.map Post.token = ds.map DeviceToken.token := by
        have hmessages := congrArg (List.map tokenOf) hsent.messages
        rwa [List.map_map, List.map_map] at hmessages
      subst hposts
      refine ⟨htokens ▸ hnodup, fun token => ?_, ⟨report, rfl, hreport⟩, hrevokes, fun token => ?_⟩
      · rw [htokens, DeviceTable.owner_eq_some, List.mem_map]
        constructor
        · rintro ⟨d, hd, rfl⟩
          exact ⟨d, (hmem d).mp hd⟩
        · rintro ⟨d, hd, hd'⟩
          have htoken := DeviceTable.token_of_activeDevice hd
          exact ⟨d, (hmem d).mpr ⟨htoken.symm ▸ hd, hd'⟩, htoken⟩
      · rw [hrevokes]
        split
        · next hin => exact hdead (fun _ h => h) token hin
        · next hout => exact (hsent.devices token).resolve_right fun h => hout h.2

theorem Accords.nodup (h : a.Accords env recipient) : (a.posts.map Post.token).Nodup := by
  unfold Accords at h
  split at h
  · exact h.once
  · rw [h.posts]
    exact List.nodup_nil

theorem Accords.not_accepted (h : a.Accords env recipient) {e : NotiError}
    (he : a.reports = [.error e]) : ∀ p ∈ a.posts, Fcm.accepted env p = false := by
  unfold Accords at h
  split at h
  · obtain ⟨report, hreport, herror⟩ := h.reported
    rw [he] at hreport
    exact (herror.mp ⟨e, (List.singleton_inj.mp hreport).symm⟩).1
  · rw [h.posts]
    exact fun _ hp => nomatch hp

theorem Accords.left_revoked (h : a.Accords env recipient) {token : String}
    (htoken : token ∈ a.revokes) :
    a.left.activeDevice token = none := by
  unfold Accords at h
  split at h
  · rw [h.left, if_pos htoken]
  · rw [h.revokes] at htoken
    cases htoken

theorem Accords.inactive (h : a.Accords env recipient) {token : String}
    (htoken : a.found.activeDevice token = none) :
    token ∉ a.posts.map Post.token ∧ a.left.activeDevice token = none := by
  unfold Accords at h
  split at h
  · refine ⟨fun hin => ?_, ?_⟩
    · have howner := (h.contacted token).mp hin
      rw [DeviceTable.owner, htoken] at howner
      cases howner
    · rw [h.left, htoken, ite_self]
  · rw [h.posts, h.left]
    exact ⟨fun hin => (nomatch hin), htoken⟩

end Attempt

section Runs

variable {d : Deployment Bytes} {env : FcmEnv} {id : Uuid} {s t : PushState Bytes}

/-- What holds of the notification and the attempts so far. A row that is live has been
accepted by no device. -/
structure PushState.Sound (env : FcmEnv) (id : Uuid) (s : PushState Bytes) (n : Notification) :
    Prop where
  row : s.world.table.getById id = some n
  push : n.channel = .push
  accords : ∀ a ∈ s.attempts, a.Accords env n.recipient
  waiting : n.status.live → ∀ p ∈ s.attempts.flatMap Attempt.posts, Fcm.accepted env p = false
  once : ∀ token, (s.attempts.flatMap Attempt.posts).countP
    (fun p => p.token = token ∧ Fcm.accepted env p) ≤ 1

def PushLabel.registers (token : String) : PushLabel → Bool
  | .register _ _ _ token' _ => token' = token
  | _ => false

theorem PushState.Sound.attempt {n : Notification} {script : List PushOutcome}
    (hs : s.Sound env id n)
    (h : (pushSystem d env id).step s (.attempt script) = some t) :
    ∃ a n' report, t.attempts = s.attempts ++ [a] ∧ a.found = s.devices ∧ a.left = t.devices ∧
      a.Accords env n.recipient ∧ n.status.live ∧ a.reports = [report] ∧
      t.world.table.getById id = some n' ∧ n.Evolves n' ∧
      ∀ ref, report = .ok ref → n'.status.live = false := by
  obtain ⟨hlive, h⟩ := Option.ite_none_right_eq_some.mp h
  rw [hs.row] at hlive
  obtain ⟨⟨⟨reports, v⟩, w⟩, hplay, rfl⟩ := Option.map_eq_some_iff.mp h
  obtain ⟨content, report, rfl, hsent, n', hn', hev, hdone⟩ :=
    Fcm.of_play_dispatch hs.row hlive hs.push hplay
  exact ⟨_, n', report, rfl, rfl, rfl, Attempt.accords_of_completes hsent, hlive, rfl, hn', hev,
    hdone⟩

theorem PushState.between {l : PushLabel} (hl : ∀ script, l ≠ .attempt script)
    (h : (pushSystem d env id).step s l = some t) :
    t.world.table = s.world.table ∧ t.attempts = s.attempts ∧ ∀ token, l.registers token = false →
      s.devices.activeDevice token = none → t.devices.activeDevice token = none := by
  cases l with
  | tick ms =>
    cases h
    exact ⟨rfl, rfl, fun _ _ h => h⟩
  | register now newId user token platform =>
    obtain ⟨⟨device, devices⟩, hregister, rfl⟩ := Option.map_eq_some_iff.mp h
    refine ⟨rfl, rfl, fun token' htoken hnone => ?_⟩
    cases hres : s.devices.register now newId user token platform with
    | error e =>
      rw [hres] at hregister
      cases hregister
    | ok result =>
      rw [hres] at hregister
      cases hregister
      obtain ⟨-, -, -, hactive⟩ := DeviceTable.register_eq_ok hres
      have hne : token ≠ token' := of_decide_eq_false htoken
      exact (hactive token').trans ((if_neg hne.symm).trans hnone)
  | revoke now token =>
    cases h
    refine ⟨rfl, rfl, fun token' _ hnone => ?_⟩
    refine (DeviceTable.activeDevice_revoke now token').trans ?_
    rw [hnone, ite_self]
  | attempt script => exact absurd rfl (hl script)

theorem PushLabel.cases_attempt (l : PushLabel) :
    (∃ script, l = .attempt script) ∨ ∀ script, l ≠ .attempt script := by
  cases l with
  | attempt script => exact .inl ⟨script, rfl⟩
  | _ => exact .inr fun _ h => nomatch h

theorem Attempt.Accords.countP_le {recipient : String} {a : Attempt} (h : a.Accords env recipient)
    (token : String) : a.posts.countP (fun p => p.token = token ∧ Fcm.accepted env p) ≤ 1 :=
  calc a.posts.countP (fun p => p.token = token ∧ Fcm.accepted env p)
    _ ≤ a.posts.countP (fun p => p.token = token) :=
      List.countP_mono_left fun p _ hp => decide_eq_true (of_decide_eq_true hp).1
    _ = (a.posts.map Post.token).count token := by
      rw [List.count, List.countP_map]
      exact List.countP_congr fun p _ => by simp
    _ ≤ 1 := List.nodup_iff_count_le_one.mp h.nodup token

theorem PushState.Sound.next {n : Notification} {l : PushLabel} (hs : s.Sound env id n)
    (h : (pushSystem d env id).step s l = some t) : ∃ n', t.Sound env id n' ∧ n.Evolves n' := by
  rcases l.cases_attempt with ⟨script, rfl⟩ | hl
  · obtain ⟨a, n', report, hattempts, -, -, ha, hlive, hreport, hn', hev, hdone⟩ := hs.attempt h
    have hwait := hs.waiting hlive
    refine ⟨n', ⟨hn', hev.channel.trans hs.push, ?_, fun hlive' => ?_, fun token => ?_⟩, hev⟩
    · rw [hattempts, hev.recipient]
      exact List.forall_mem_append.mpr ⟨hs.accords, List.forall_mem_singleton.mpr ha⟩
    · cases report with
      | ok ref =>
        rw [hdone ref rfl] at hlive'
        cases hlive'
      | error e =>
        rw [hattempts, List.flatMap_append, List.flatMap_singleton]
        exact List.forall_mem_append.mpr ⟨hwait, ha.not_accepted hreport⟩
    · rw [hattempts, List.flatMap_append, List.flatMap_singleton, List.countP_append,
        List.countP_eq_zero.mpr fun p hp => by simp [hwait p hp], Nat.zero_add]
      exact ha.countP_le token
  · obtain ⟨htable, hattempts, -⟩ := PushState.between hl h
    refine ⟨n, ⟨htable ▸ hs.row, hs.push, ?_, ?_, ?_⟩, .refl n⟩ <;> rw [hattempts]
    · exact hs.accords
    · exact hs.waiting
    · exact hs.once

theorem PushState.sound_reachable (h : (pushSystem d env id).Reachable System.always s) :
    ∃ n, s.Sound env id n := by
  refine h.invariant (P := fun s => ∃ n, s.Sound env id n) ?_ ?_
  · rintro s ⟨⟨n, hn, hpush⟩, hnone⟩
    refine ⟨n, hn, hpush, ?_, ?_, ?_⟩ <;> simp [hnone]
  · rintro s l t ⟨n, hs⟩ - h
    obtain ⟨n', ht, -⟩ := hs.next h
    exact ⟨n', ht⟩

/-- No attempt of a run from here contacts the token before it is registered again. -/
def PushState.Shuns (d : Deployment Bytes) (env : FcmEnv) (id : Uuid) (s : PushState Bytes)
    (token : String) : Prop :=
  ∀ ls t, (∀ l ∈ ls, l.registers token = false) → (pushSystem d env id).run s ls = some t →
    ∃ later, t.attempts = s.attempts ++ later ∧ ∀ a ∈ later, token ∉ a.posts.map Post.token

theorem PushState.Sound.shuns {n : Notification} {token : String} (hs : s.Sound env id n)
    (htoken : s.devices.activeDevice token = none) : s.Shuns d env id token := by
  intro ls t hls hrun
  refine (System.run_invariant (P := fun t => (∃ n, t.Sound env id n) ∧
    t.devices.activeDevice token = none ∧ ∃ later, t.attempts = s.attempts ++ later ∧
      ∀ a ∈ later, token ∉ a.posts.map Post.token) ?_
    ⟨⟨n, hs⟩, htoken, [], (List.append_nil _).symm, fun _ h => nomatch h⟩ hls hrun).2.2
  rintro u l u' ⟨⟨n, hu⟩, hnone, later, hlater, hshun⟩ hl hstep
  obtain ⟨n', hu', -⟩ := hu.next hstep
  rcases l.cases_attempt with ⟨script, rfl⟩ | hother
  · obtain ⟨a, _, _, hattempts, hfound, hleft, ha, -⟩ := hu.attempt hstep
    obtain ⟨hout, hafter⟩ := ha.inactive (hfound ▸ hnone)
    refine ⟨⟨n', hu'⟩, hleft ▸ hafter, later ++ [a], ?_, ?_⟩
    · rw [hattempts, hlater, List.append_assoc]
    · exact List.forall_mem_append.mpr ⟨hshun, List.forall_mem_singleton.mpr hout⟩
  · obtain ⟨-, hattempts, hstays⟩ := PushState.between hother hstep
    exact ⟨⟨n', hu'⟩, hstays token hl hnone, later, hattempts.trans hlater, hshun⟩

end Runs

/-- Retries of a Push notification: every attempt reaches each active device of its recipient
once, no device gets two messages, and a revoked token is left alone. -/
theorem push_attempts (d : Deployment Bytes) (env : FcmEnv) (id : Uuid) (s : PushState Bytes)
    (h : (pushSystem d env id).Reachable System.always s) :
    (∃ n, s.world.table.getById id = some n ∧ n.channel = .push ∧
      ∀ a ∈ s.attempts, a.Accords env n.recipient) ∧
    (∀ token, (s.attempts.flatMap Attempt.posts).countP
      (fun p => p.token = token ∧ Fcm.accepted env p) ≤ 1) ∧
    (∀ now token t, (pushSystem d env id).step s (.revoke now token) = some t →
      t.Shuns d env id token) ∧
    ∀ script t, (pushSystem d env id).step s (.attempt script) = some t →
      ∃ a, t.attempts = s.attempts ++ [a] ∧ ∀ token ∈ a.revokes, t.Shuns d env id token := by
  obtain ⟨n, hs⟩ := PushState.sound_reachable h
  refine ⟨⟨n, hs.row, hs.push, hs.accords⟩, hs.once, fun now token t hstep => ?_,
    fun script t hstep => ?_⟩
  · obtain ⟨n', ht, -⟩ := hs.next hstep
    cases hstep
    exact ht.shuns ((DeviceTable.activeDevice_revoke now token).trans (if_pos rfl))
  · obtain ⟨n', ht, -⟩ := hs.next hstep
    obtain ⟨a, _, _, hattempts, -, hleft, ha, -⟩ := hs.attempt hstep
    exact ⟨a, hattempts, fun token htoken => ht.shuns (hleft ▸ ha.left_revoked htoken)⟩

def PushState.sample (recipient : String) : PushState NotificationTask where
  world := .boot 0
    { table :=
        ⟨[{ Request.sample with channel := .push, recipient }.notification ⟨1⟩ 0 0 0], by simp⟩
      keysUnique := by simp [Request.notification, Request.sample] }
  devices := .empty
  attempts := []

/-- The device does not answer the first attempt and accepts the second. -/
theorem push_attempts_second : ∃ s : PushState NotificationTask, s.attempts.length = 2 ∧
    (∃ n, s.world.table.getById ⟨1⟩ = some n ∧ n.channel = .push ∧
      ∀ a ∈ s.attempts, a.Accords Fcm.sampleEnv n.recipient) ∧
    (∀ token, (s.attempts.flatMap Attempt.posts).countP
      (fun p => p.token = token ∧ Fcm.accepted Fcm.sampleEnv p) ≤ 1) ∧
    (∀ now token t, (pushSystem (.plain true) Fcm.sampleEnv ⟨1⟩).step s
    (.revoke now token) = some t →
      t.Shuns (.plain true) Fcm.sampleEnv ⟨1⟩ token) ∧
    ∀ script t, (pushSystem (.plain true) Fcm.sampleEnv ⟨1⟩).step s (.attempt script) = some t →
      ∃ a, t.attempts = s.attempts ++ [a] ∧
        ∀ token ∈ a.revokes, t.Shuns (.plain true) Fcm.sampleEnv ⟨1⟩ token := by
  have hruns : ((pushSystem (.plain true) Fcm.sampleEnv ⟨1⟩).run
      (.sample "00000000-0000-0000-0000-000000000007")
      [.register 0 ⟨1⟩ ⟨7⟩ "tok" .web,
        .attempt [.op .ok, .op .ok, .op (.text "hi"), .fcm (.device (.listed ["tok"])),
          .fcm (.token "access"), .fcm (.answer (.error "operation timed out")), .op .ok, .op .ok,
          .op .ok, .op .ok],
        .tick 120000,
        .attempt [.op .ok, .op .ok, .op (.text "hi"), .fcm (.device (.listed ["tok"])),
          .fcm (.token "access"), .fcm (.answer (.ok (200, ""))), .op .ok]]).any
      (fun s => s.attempts.length = 2) = true := by decide +kernel
  obtain ⟨s, hrun, htwo⟩ := (Option.any_eq_true _ _).mp hruns
  have hreach := (System.Reachable.start (S := pushSystem (.plain true) Fcm.sampleEnv ⟨1⟩)
    (s := .sample "00000000-0000-0000-0000-000000000007") ⟨⟨_, rfl, rfl⟩, rfl⟩).run hrun
  exact ⟨s, of_decide_eq_true htwo, push_attempts (.plain true) Fcm.sampleEnv ⟨1⟩ s hreach⟩

/-- The attempt to reach a recipient that is not a user id reports an error, and no device
has failed. -/
theorem push_attempts_refused : ¬∀ (d : Deployment NotificationTask) (env : FcmEnv) (id : Uuid)
    (s : PushState NotificationTask), (pushSystem d env id).Reachable System.always s →
      ∀ a ∈ s.attempts, ∃ report, a.reports = [report] ∧ ((∃ e, report = .error e) ↔
        (∀ p ∈ a.posts, Fcm.accepted env p = false) ∧ ∃ p ∈ a.posts, Fcm.retryable env p) := by
  intro hclaim
  let env : FcmEnv := { Fcm.sampleEnv with parseStr := fun _ => .error "invalid character" }
  obtain ⟨s, hrun, a, ha, e, he, hposts⟩ : ∃ s, (pushSystem (.plain true) env ⟨1⟩).run
      (.sample "nobody") [.attempt [.op .ok, .op .ok, .op (.text "hi"), .op .ok, .op .ok, .op .ok,
        .op .ok]] = some s ∧ ∃ a ∈ s.attempts, ∃ e, a.reports = [.error e] ∧ a.posts = [] :=
    ⟨_, rfl, _, List.mem_singleton.mpr rfl, _, rfl, rfl⟩
  have hreach := (System.Reachable.start (S := pushSystem (.plain true) env ⟨1⟩)
    (s := .sample "nobody") ⟨⟨_, rfl, rfl⟩, rfl⟩).run hrun
  obtain ⟨report, hreport, herror⟩ := hclaim (.plain true) env ⟨1⟩ s hreach a ha
  rw [he] at hreport
  obtain ⟨-, p, hp, -⟩ := herror.mp ⟨e, (List.singleton_inj.mp hreport).symm⟩
  rw [hposts] at hp
  cases hp

end NotiService
