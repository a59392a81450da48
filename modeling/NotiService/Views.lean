import NotiService.OneShape
import NotiService.RowHistory
import NotiService.UuidText

/-! The frames that `dispatch` pushes to WebSocket clients beside the list rows of
`list_user_notification_views`: both are a `NotificationView` of one row, and a client reads
the same fields from either. -/

namespace NotiService
open Foundation Orchestrator Wire

variable {Bytes : Type}

/-- What a client reads from a frame or a list row. -/
structure Shown where
  id : Uuid
  type : String
  title : String
  message : String
deriving DecidableEq

def NotificationView.shown (v : NotificationView) : Shown :=
  ⟨v.notification.id, v.eventType, v.title, v.message⟩

/-- The JSON of a view, and reading it. -/
structure FrameCodec where
  encode : NotificationView → String
  read : String → Option Shown
  read_encode : ∀ v, read (encode v) = some v.shown

/-- The SELECT when the database sorts the rows of the user as `ids`: those that compare equal
may come in any order. -/
def NotificationTable.listByUser (t : NotificationTable) (userId : Uuid) (limit offset : Int)
    (ids : List Uuid) : Option (Except NotiError (List Notification)) :=
  if limit < 0 then some (.error (.database "LIMIT must not be negative"))
  else if offset < 0 then some (.error (.database "OFFSET must not be negative"))
  else
    let rows := ids.filterMap t.getById
    if ids.Perm ((t.rows.filter fun n => n.userId = some userId).map Notification.id) ∧
        rows.Pairwise fun n n' => n'.createdAt ≤ n.createdAt then
      some (.ok ((rows.drop offset.toNat).take limit.toNat))
    else none

/-- A row that does not render is listed with an empty text. -/
def listUserNotificationViews (upper : Uppercase) (T : Tera) (now : Int)
    (listed : Except NotiError (List Notification)) : Except NotiError (List NotificationView) :=
  listed.map fun rows => rows.map fun n =>
    .new upper n ((T.render (textTemplateId n.templateId) n.vars now).getD "")

/-- `frames` are the contents pushed for each notification so far. -/
structure ViewState (Bytes : Type) where
  ledger : LedgerState Bytes
  frames : List (Uuid × String)

def Op.frame {α : Type} : Op α → Option String
  | .send .webSocket _ content => some content
  | _ => none

def frame {α : Type} (p : Program Op α) : Option String := (p.peek Op.frame).join

def LedgerState.pushes (s : LedgerState Bytes) : LedgerLabel → List (Uuid × String)
  | .work id _ => (((s.working id).bind frame).map fun content => (id, content)).toList
  | _ => []

def viewSystem (d : Deployment Bytes) : System (ViewState Bytes) LedgerLabel where
  init s := (ledgerSystem d).init s.ledger ∧ s.frames = []
  step s l := ((ledgerSystem d).step s.ledger l).map fun ledger =>
    ⟨ledger, s.frames ++ s.ledger.pushes l⟩

section Answers

variable (upper : Uppercase) (T : Tera) (C : FrameCodec)

def Op.answeredBy (now : Int) (o : Outcome) : {α : Type} → Op α → Prop
  | _, .render id vars =>
    match o with
    | .text c => T.render id vars now = some c
    | _ => T.render id vars now = none
  | _, .encodeView n content => o = .text (C.encode (.new upper n content))
  | _, _ => True

/-- The dispatches render by the engine and encode by the codec. -/
def Answers (s : ViewState Bytes) : LedgerLabel → Prop
  | .work id o => ∀ p, s.ledger.working id = some p →
    (p.peek (Op.answeredBy upper T C s.ledger.world.now o)).getD True
  | _ => True

end Answers

section Runs

variable {upper : Uppercase} {T : Tera} {C : FrameCodec} {d : Deployment Bytes}
    {m m' : Ledger Bytes}
  {w w' : World Bytes} {id : Uuid} {l : LedgerLabel}

/-- The row of a notification has been `n`. -/
def World.Was (w : World Bytes) (id : Uuid) (n : Notification) : Prop :=
  ∃ n', w.table.getById id = some n' ∧ n.Evolves n'

theorem World.Was.grows {n : Notification} (h : w.Was id n) (hgrows : Ledger.Grows w w') :
    w'.Was id n := by
  obtain ⟨n', hn', hev⟩ := h
  obtain ⟨n'', hn'', hev'⟩ := hgrows id n' hn'
  exact ⟨n'', hn'', hev.trans hev'⟩

/-- The content is a view of the row, rendered from its own template at some time. -/
def World.Drew (upper : Uppercase) (T : Tera) (C : FrameCodec) (w : World Bytes) (id : Uuid)
    (content : String) : Prop :=
  ∃ n c t, w.Was id n ∧ T.render n.templateId n.vars t = some c ∧
    content = C.encode (.new upper n c)

theorem World.Drew.grows {content : String} (h : w.Drew upper T C id content)
    (hgrows : Ledger.Grows w w') : w'.Drew upper T C id content := by
  obtain ⟨n, c, t, hwas, hrender, hcontent⟩ := h
  exact ⟨n, c, t, hwas.grows hgrows, hrender, hcontent⟩

/-- What a dispatch holds of its row and of what it will push. -/
def DispatchPc.Drafts (upper : Uppercase) (T : Tera) (C : FrameCodec) (w : World Bytes)
    (id : Uuid) :
    DispatchPc → Prop
  | .mark n | .render n => w.Was id n
  | .encode n c => w.Was id n ∧ ∃ t, T.render n.templateId n.vars t = some c
  | .send n content => n.channel = .webSocket → w.Drew upper T C id content
  | _ => True

theorem DispatchPc.Drafts.grows {pc : DispatchPc} (h : pc.Drafts upper T C w id)
    (hgrows : Ledger.Grows w w') : pc.Drafts upper T C w' id := by
  cases pc with
  | mark | render => exact World.Was.grows h hgrows
  | encode => exact ⟨h.1.grows hgrows, h.2⟩
  | send => exact fun hchannel => (h hchannel).grows hgrows
  | _ => trivial

theorem DispatchStep.drafts {o : Outcome} {pc pc' : DispatchPc}
    (hs : DispatchStep d id o w pc w' pc')
    (h : pc.Drafts upper T C w id)
    (hok : ((pc.prog d.mq id).peek (Op.answeredBy upper T C w.now o)).getD True) :
    pc'.Drafts upper T C w' id := by
  have hgrows := Ledger.Grows.of_work hs
  cases hs with
  | load hn => exact ⟨_, hn, .refl _⟩
  | mark => exact World.Was.grows h hgrows
  | @render _ n content =>
    exact DispatchPc.afterRender_ok n content (fun _ => ⟨h, _, hok⟩) fun hchannel hws =>
      absurd hws hchannel
  | encode =>
    obtain ⟨hwas, t, hrender⟩ := h
    have hjson := Outcome.text.inj hok
    exact fun _ => ⟨_, _, t, hwas, hrender, hjson⟩
  | repend =>
    unfold DispatchPc.retryVia
    split <;> trivial
  | _ => trivial

theorem DispatchPc.of_frame_prog {mq : Bool} {pc : DispatchPc} {content : String}
    (h : frame (pc.prog mq id) = some content) :
    ∃ n, pc = .send n content ∧ n.channel = .webSocket := by
  cases pc with
  | send n c =>
    rw [DispatchPc.prog_send] at h
    cases hchannel : n.channel <;> rw [hchannel] at h <;> cases h
    exact ⟨n, rfl, hchannel⟩
  | _ => cases h

structure Ledger.Viewed (upper : Uppercase) (T : Tera) (C : FrameCodec) (m : Ledger Bytes)
    (frames : List (Uuid × String)) : Prop where
  sound : m.Sound
  drafts : ∀ id pc, m.working id = some pc → pc.Drafts upper T C m.world id
  frames : ∀ id content, (id, content) ∈ frames → m.world.Drew upper T C id content

theorem Ledger.Viewed.step {frames : List (Uuid × String)} (h : m.Viewed upper T C frames)
    (hs : Ledger.Step d l m m') (hok : Answers upper T C ⟨m.state d, frames⟩ l) :
    m'.Viewed upper T C (frames ++ (m.state d).pushes l) := by
  obtain ⟨hsound, hgrows⟩ := hs.sound h.sound
  have hkept : ∀ id content, (id, content) ∈ frames → m'.world.Drew upper T C id content :=
    fun id content hmem => (h.frames id content hmem).grows hgrows
  have haside : (m.state d).pushes l = [] → m'.working = m.working →
      m'.Viewed upper T C (frames ++ (m.state d).pushes l) := by
    intro hpushes hworking
    rw [hpushes, List.append_nil]
    exact ⟨hsound, fun id pc hpc => (h.drafts id pc (hworking ▸ hpc)).grows hgrows, hkept⟩
  cases hs with
  | tick | request | call | recover | sweep | markAsRead | markAllAsRead => exact haside rfl rfl
  | @dispatch _ id hidle =>
    rw [show (m.state d).pushes (.dispatch id) = [] from rfl, List.append_nil]
    refine ⟨hsound, fun k pc hpc => ?_, hkept⟩
    rcases working_cases hpc with ⟨-, hload⟩ | ⟨-, hother⟩
    · obtain rfl := Option.some.inj hload
      trivial
    · exact (h.drafts k pc hother).grows hgrows
  | @work _ id o pc w pc' hpc hs =>
    have hworking : (m.state d).working id = some (pc.prog d.mq id) := congrArg (Option.map _) hpc
    have hdraft := hs.drafts (h.drafts id pc hpc) (hok _ hworking)
    refine ⟨hsound, fun k q hq => ?_, fun k content hmem => ?_⟩
    · rcases working_cases hq with ⟨rfl, hnext⟩ | ⟨-, hother⟩
      · obtain rfl := DispatchPc.of_unfinished hnext
        exact hdraft
      · exact (h.drafts k q hother).grows hgrows
    · rcases List.mem_append.mp hmem with hmem | hmem
      · exact hkept k content hmem
      · obtain ⟨content', hpush, heq⟩ := Option.map_eq_some_iff.mp (Option.mem_toList.mp hmem)
        cases heq
        rw [hworking, Option.bind_some] at hpush
        obtain ⟨n, rfl, hchannel⟩ := DispatchPc.of_frame_prog hpush
        exact (h.drafts id _ hpc hchannel).grows hgrows

theorem viewed_reachable {s : ViewState Bytes}
    (h : (viewSystem d).Reachable (Answers upper T C) s) :
    ∃ m : Ledger Bytes, s.ledger = m.state d ∧ (∀ pc ∈ m.sweeps, pc.Normal) ∧
      m.Viewed upper T C s.frames := by
  refine h.invariant (P := fun s => ∃ m : Ledger Bytes, s.ledger = m.state d ∧
    (∀ pc ∈ m.sweeps, pc.Normal) ∧ m.Viewed upper T C s.frames) ?_ ?_
  · rintro ⟨⟨w, calls, working, sweeps, trace⟩, frames⟩ ⟨⟨htable, rfl, hworking, rfl, htrace⟩, rfl⟩
    obtain rfl : working = fun _ => none := funext hworking
    obtain rfl : trace = fun _ => [] := funext htrace
    exact ⟨⟨w, [], fun _ => none, [], fun _ => []⟩, rfl, by simp,
      ⟨Ledger.sound_initial htable, by simp, by simp⟩⟩
  · rintro ⟨_, frames⟩ l t ⟨m, rfl, hnormal, hm⟩ hok hstep
    obtain ⟨ledger, hledger, rfl⟩ := Option.map_eq_some_iff.mp hstep
    obtain ⟨m', hs, rfl, hnormal'⟩ := Ledger.step_sim hnormal hledger
    exact ⟨m', rfl, hnormal', hm.step hs hok⟩

theorem NotificationTable.of_mem_listByUser {t : NotificationTable} {userId : Uuid}
    {limit offset : Int}
    {ids : List Uuid} {rows : List Notification}
    (h : t.listByUser userId limit offset ids = some (.ok rows)) {n : Notification}
    (hn : n ∈ rows) :
    t.getById n.id = some n := by
  unfold listByUser at h
  split at h
  · cases h
  split at h
  · cases h
  obtain ⟨-, h⟩ := Option.ite_none_right_eq_some.mp h
  cases h
  have hmem := List.mem_of_mem_drop (List.mem_of_mem_take hn)
  obtain ⟨id, -, hget⟩ := List.mem_filterMap.mp hmem
  have hid : n.id = id := t.table.key_of_get hget
  exact hid ▸ hget

theorem NotificationTable.listByUser_singleton {t : NotificationTable} {userId : Uuid}
    {n : Notification}
    (hrows : t.rows = [n]) (huser : n.userId = some userId) :
    t.listByUser userId 1 0 [n.id] = some (.ok [n]) := by
  have hget : t.getById n.id = some n := mem_rows_iff.mp (hrows ▸ List.mem_singleton_self n)
  have hrow : [n.id].filterMap t.getById = [n] := List.filterMap_cons_some hget
  unfold listByUser
  rw [if_neg (by decide), if_neg (by decide), if_pos]
  · rw [hrow]
    rfl
  · rw [hrow, hrows, List.filter_cons_of_pos (by simpa using huser)]
    exact ⟨.refl _, List.pairwise_singleton ..⟩

theorem shown_of_evolves {n n' : Notification} (h : n.Evolves n') {c c' : String}
    (htext : titleAndMessage upper n.templateId n.vars c =
    titleAndMessage upper n.templateId n.vars c') :
    (NotificationView.new upper n' c').shown = (NotificationView.new upper n c).shown := by
  unfold NotificationView.new NotificationView.shown
  rw [h.id, h.templateId, h.vars, htext]

theorem next_work {s : ViewState Bytes} {pc : DispatchPc} {β : Type} {op : Op β}
    {after : β → DispatchPc} (o : Outcome) (answer : β)
    (hs : (viewSystem d).Reachable (Answers upper T C) s)
    (hworking : s.ledger.working id = some (pc.prog d.mq id))
    (hprog : pc.prog d.mq id = .call op fun r => (after r).prog d.mq id)
    (hexec : exec d o op s.ledger.world = some (answer, w'))
    (hok : op.answeredBy upper T C s.ledger.world.now o) (hawaits : (after answer).kind.isSome) :
    ∃ t, (viewSystem d).Reachable (Answers upper T C) t ∧ t.ledger.world = w' ∧
      t.ledger.working id = some ((after answer).prog d.mq id) ∧
      t.frames = s.frames ++ (op.frame.map fun content => (id, content)).toList := by
  have hstep : Program.step (exec d o) (pc.prog d.mq id) s.ledger.world =
      some ((after answer).prog d.mq id, w') := by
    rw [hprog, Program.step_call_eq_some]
    exact ⟨answer, hexec, rfl⟩
  have hledger : (ledgerSystem d).step s.ledger (.work id o) = some { s.ledger with
      world := w'
      working := Function.update s.ledger.working id (unfinished ((after answer).prog d.mq id))
      trace := Function.update s.ledger.trace id
        (s.ledger.trace id ++ (event o s.ledger.world.now (pc.prog d.mq id)).toList) } :=
    Option.bind_eq_some_iff.mpr ⟨_, hworking, Option.map_eq_some_iff.mpr ⟨_, hstep, rfl⟩⟩
  refine ⟨_, hs.next (l := .work id o) (fun p hp => ?_)
    (Option.map_eq_some_iff.mpr ⟨_, hledger, rfl⟩),
    rfl, ?_, ?_⟩
  · rw [hworking, hprog] at hp
    obtain rfl := Option.some.inj hp
    exact hok
  · refine (Function.update_self ..).trans ?_
    have hsome : ¬ (after answer).kind.isNone := by
      rw [Option.isNone_iff_eq_none]
      exact Option.isSome_iff_ne_none.mp hawaits
    rw [DispatchPc.unfinished_prog, DispatchPc.unfinished, if_neg hsome]
    rfl
  · simp only [LedgerState.pushes, hworking, hprog, Option.bind_some]
    rfl

def viewRequest (templateId : String) (vars : Json) : Request :=
  ⟨some ⟨7⟩, .webSocket, (⟨7⟩ : Uuid).toString, templateId, vars, none⟩

def viewRow (templateId : String) (vars : Json) (t : Int) : Notification :=
  (viewRequest templateId vars).notification ⟨1⟩ t t t

/-- Some run pushes a frame with a text that the row's template renders to, and goes on to any
later time. -/
theorem exists_frame (d : Deployment Bytes) (upper : Uppercase) (T : Tera) (C : FrameCodec)
    {templateId : String} {vars : Json} {t t' : Int} (ht : t ≤ t') {c : String}
    (hrender : T.render templateId vars t = some c) :
    ∃ (s : ViewState Bytes) (n : Notification), (viewSystem d).Reachable (Answers upper T C) s ∧
      s.ledger.world.now = t' ∧ s.ledger.world.table.rows = [n] ∧
      (viewRow templateId vars t).Evolves n ∧
      (⟨1⟩, C.encode (.new upper (viewRow templateId vars t) c)) ∈ s.frames := by
  let row := viewRow templateId vars t
  let quiet : ViewState Bytes → LedgerLabel → Bool := fun _ l =>
    match l with
    | .work _ _ => false
    | _ => true
  have hquiet : ∀ s l, quiet s l = true → Answers upper T C s l := by
    intro s l hl
    cases l with
    | work => cases hl
    | _ => trivial
  obtain ⟨s₀, hrun, hnow, hrows, hworking⟩ : ∃ s, (viewSystem d).runWhen quiet ⟨.start t, []⟩
      [.request (viewRequest templateId vars), .call 0 (.fresh ⟨1⟩), .call 0 .ok, .call 0 .ok,
        .call 0 .ok, .call 0 .ok, .dispatch ⟨1⟩] = some s ∧ s.ledger.world.now = t ∧
      s.ledger.world.table.rows = [row] ∧
      s.ledger.working ⟨1⟩ = some (DispatchPc.load.prog d.mq ⟨1⟩) :=
    ⟨_, rfl, rfl, rfl, rfl⟩
  have hstart : (viewSystem d).init ⟨.start t, []⟩ :=
    ⟨⟨rfl, rfl, fun _ => rfl, rfl, fun _ => rfl⟩, rfl⟩
  have hreach₀ := (System.Reachable.start hstart).runWhen hquiet hrun
  have hrow : s₀.ledger.world.table.getById ⟨1⟩ = some row := by
    show s₀.ledger.world.table.rows.find? _ = _
    rw [hrows]
    rfl
  have hload : exec d .ok (.getById ⟨1⟩) s₀.ledger.world = some (.ok (some row), s₀.ledger.world) :=
    congrArg (fun r => some (Except.ok r, s₀.ledger.world)) hrow
  obtain ⟨s₁, hreach₁, hw₁, hworking₁, hframes₁⟩ :=
    next_work .ok _ hreach₀ hworking (DispatchPc.prog_load ..) hload trivial rfl
  obtain ⟨s₂, hreach₂, hw₂, hworking₂, hframes₂⟩ :=
    next_work .ok (.ok ()) hreach₁ hworking₁ (DispatchPc.prog_mark ..) rfl trivial rfl
  have hnow₂ : s₂.ledger.world.now = t := by
    rw [hw₂]
    exact (congrArg World.now hw₁).trans hnow
  obtain ⟨s₃, hreach₃, hw₃, hworking₃, hframes₃⟩ :=
    next_work (.text c) (.ok c) hreach₂ hworking₂ (DispatchPc.prog_render ..) rfl
      (hnow₂.symm ▸ hrender) rfl
  obtain ⟨s₄, hreach₄, hw₄, hworking₄, hframes₄⟩ :=
    next_work (.text (C.encode (.new upper row c))) (.ok _) hreach₃ hworking₃
      (DispatchPc.prog_encode ..) rfl rfl rfl
  obtain ⟨s₅, hreach₅, hw₅, -, hframes₅⟩ :=
    next_work (.text "ref") (.ok "ref") hreach₄ hworking₄ (DispatchPc.prog_send ..) rfl trivial rfl
  have hworld : s₅.ledger.world = s₀.ledger.world.updateStatus ⟨1⟩ .processing none none := by
    rw [hw₅, hw₄, hw₃, hw₂, hw₁]
  refine ⟨_, NotificationTable.withStatus t .processing none none row,
    hreach₅.next (l := .tick (t' - t).toNat) trivial rfl, ?_, ?_,
    Notification.evolves_withStatus .., ?_⟩
  · show s₅.ledger.world.now + _ = t'
    rw [hworld]
    show s₀.ledger.world.now + _ = t'
    rw [hnow]
    omega
  · show s₅.ledger.world.table.rows = _
    rw [hworld]
    show (s₀.ledger.world.table.updateStatus ..).rows = _
    rw [hnow]
    show s₀.ledger.world.table.rows.map _ = _
    rw [hrows]
    rfl
  · show _ ∈ s₅.frames ++ []
    rw [List.append_nil, hframes₅]
    exact List.mem_append_right _ (List.mem_singleton.mpr rfl)

/-- Whenever a frame has been pushed for a row of the template and the variables, a list row of
it that renders shows what the frame shows. -/
def OneShape (upper : Uppercase) (T : Tera) (C : FrameCodec) (d : Deployment Bytes)
    (templateId : String) (vars : Json) : Prop :=
  ∀ s, (viewSystem d).Reachable (Answers upper T C) s → ∀ id content, (id, content) ∈ s.frames →
    ∀ userId limit offset ids views,
      (s.ledger.world.table.listByUser userId limit offset ids).map
        (listUserNotificationViews upper T s.ledger.world.now) = some (.ok views) →
      ∀ v ∈ views, v.notification.id = id → v.notification.templateId = templateId →
        v.notification.vars = vars →
        (T.render (textTemplateId templateId) vars s.ledger.world.now).isSome →
        C.read content = some v.shown

theorem OneShape.agrees {templateId : String} {vars : Json}
    (hshape : OneShape upper T C d templateId vars) : Agrees upper T templateId vars := by
  intro t t' c c' ht hc hc'
  obtain ⟨s, n, hs, rfl, hrows, hev, hframe⟩ := exists_frame d upper T C ht hc
  have htemplate : n.templateId = templateId := hev.templateId
  have hvars : n.vars = vars := hev.vars
  have hlist : (s.ledger.world.table.listByUser ⟨7⟩ 1 0 [n.id]).map
      (listUserNotificationViews upper T s.ledger.world.now) = some (.ok [.new upper n c']) := by
    rw [NotificationTable.listByUser_singleton hrows hev.userId, Option.map_some,
      listUserNotificationViews, Except.map, List.map_singleton, htemplate, hvars, hc',
        Option.getD_some]
  have hshown := hshape s hs _ _ hframe _ _ _ _ _ hlist _
    (List.mem_singleton_self _) hev.id htemplate
    hvars (Option.isSome_iff_exists.mpr ⟨c', hc'⟩)
  rw [C.read_encode] at hshown
  have hparts := Option.some.inj hshown
  simp only [NotificationView.new, NotificationView.shown, htemplate, hvars,
    Shown.mk.injEq] at hparts
  exact Prod.ext hparts.2.2.1 hparts.2.2.2

theorem one_shape_of_steady {templateId : String} {vars : Json}
    (hsteady : Steady T templateId vars) :
    OneShape upper T C d templateId vars := by
  intro s hs id content hframe userId limit offset ids views hviews v hv hid htemplate hvars
    hrenders
  obtain ⟨m, hm, -, hviewed⟩ := viewed_reachable hs
  obtain ⟨n, c, t, ⟨n', hn', hev⟩, hc, rfl⟩ := hviewed.frames id content hframe
  obtain ⟨listed, hlisted, hviews⟩ := Option.map_eq_some_iff.mp hviews
  cases listed with
  | error => cases hviews
  | ok rows =>
    cases hviews
    obtain ⟨row, hrow, rfl⟩ := List.mem_map.mp hv
    have hget : s.ledger.world.table.getById row.id = some row :=
      NotificationTable.of_mem_listByUser hlisted hrow
    obtain rfl : row.id = id := hid
    obtain rfl : row.templateId = templateId := htemplate
    obtain rfl : row.vars = vars := hvars
    rw [hm] at hget hrenders ⊢
    obtain rfl : n' = row := Option.some.inj (hn'.symm.trans hget)
    obtain ⟨c', hc'⟩ := Option.isSome_iff_exists.mp hrenders
    rw [hc', Option.getD_some, C.read_encode]
    rw [hev.templateId, hev.vars] at hsteady hc'
    rw [shown_of_evolves hev (hsteady.agrees hc hc')]

/-- A frame shows what a later list row shows, for the rows of a template and variables, if
and only if these are steady. -/
theorem one_shape_iff (upper : Uppercase) (T : Tera) (C : FrameCodec) (d : Deployment Bytes)
    (templateId : String) (vars : Json) :
    OneShape upper T C d templateId vars ↔ Steady T templateId vars :=
  ⟨fun h => h.agrees.steady, one_shape_of_steady⟩

/-- The four members that a client reads, as serde_json writes them. -/
def sampleCodec : FrameCodec where
  encode v := JsonText.object [] [("id", v.notification.id.toString), ("type", v.eventType),
    ("title", v.title), ("message", v.message)]
  read text := do
    let v ← JsonText.fromStr (fun _ => none) text
    return ⟨.read (← (v.get "id").bind Json.asStr), ← (v.get "type").bind Json.asStr,
      ← (v.get "title").bind Json.asStr, ← (v.get "message").bind Json.asStr⟩
  read_encode v := by
    rw [JsonText.fromStr_object _ (by simp) (by simp)]
    simp [Json.get, Json.lookup, Json.asStr, Uuid.read_toString, NotificationView.shown]

def sampleUpper : Uppercase := ⟨fun c => [c.toUpper], fun _ _ => rfl⟩

/-- The text of a VPP dispatch says when it is rendered, and its variables give no body. -/
theorem one_shape_vpp_dispatched : ¬ OneShape sampleUpper .sample sampleCodec (.plain true)
    "vpp_dispatched.txt.tera"
    (.obj [("cluster_id", .str "c-1"), ("target_kw", .str "50"),
      ("members_count", .str "12")]) := by
  intro h
  have hsteady := h.agrees.steady
  exact absurd ((hsteady (by decide) (by decide)).2 (by decide)) (by decide)

end Runs

end NotiService
