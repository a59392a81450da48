import NotiService.Consumer
import NotiService.Redelivery
import NotiService.UuidText
import NotiService.Foundation.RollingCounter

/-! Sign-ins one after the other. A sign-in is alerted exactly if its user has not signed in from
its address within the memory of the counters, whatever the sign-ins of other users and from
other addresses were. -/

namespace NotiService
open Foundation Orchestrator Events

variable {Bytes : Type}

/-- The data of a sign-in with a valid user id and an address. -/
structure SignIn (env : EventEnv) where
  ctx : MsgCtx
  data : Json
  payload : UserLoggedIn
  uid : Uuid
  ip : String
  parsed : UserLoggedIn.parse data = some payload
  user : parseUuid env payload.userId = some uid
  address : payload.ipAddress = some ip
  nonempty : ip ≠ ""

/-- A sign-in, the time it was handled at and what its handler asked to be queued. -/
structure Visit (env : EventEnv) where
  signIn : SignIn env
  time : Int
  asked : List Request

section Key

theorem loginIpKey_inj {u v : Uuid} {ip ip' : String} :
    loginIpKey u ip = loginIpKey v ip' ↔ u = v ∧ ip = ip' := by
  constructor
  · intro h
    have hchars := congrArg String.toList h
    simp only [loginIpKey, String.toList_append, List.append_assoc,
      List.append_cancel_left_eq] at hchars
    obtain ⟨huser, hrest⟩ := List.append_inj hchars (by rw [u.length_toString, v.length_toString])
    exact ⟨Uuid.toString_injective (String.toList_inj.mp huser),
      String.toList_inj.mp (List.append_cancel_left hrest)⟩
  · rintro ⟨rfl, rfl⟩
    rfl

def loginIpKeys : Set String := {key | ∃ uid ip, key = loginIpKey uid ip}

end Key

section SignIn

variable {env : EventEnv}

namespace SignIn

def key (s : SignIn env) : String := loginIpKey s.uid s.ip

def alert (s : SignIn env) : List Request :=
  (loginAlert s.uid s.payload.username s.ip).map (Queued.request s.ctx)

theorem loginCheck_eq (s : SignIn env) :
    loginCheck env s.data = some (s.key, loginAlert s.uid s.payload.username s.ip) := by
  have hip : (some s.ip).filter (· ≠ "") = some s.ip := by simp [s.nonempty]
  simp only [loginCheck, s.parsed, s.user, s.address, hip, Option.bind_eq_bind, Option.bind_some]
  rfl

theorem dispatch_run (s : SignIn env) (mq : Bool) :
    (Events.dispatch mq env s.ctx "UserLoggedIn" s.data).run =
      .call (.incrementWithTtl s.key loginIpMemorySecs)
        (afterBump mq s.ctx (loginAlert s.uid s.payload.username s.ip)) := by
  rw [Events.dispatch, if_pos rfl, userLoggedIn, s.loginCheck_eq]
  exact alertIfNew_run ..

end SignIn

/-- The user has signed in from the address less than the memory of the counters before. -/
def Known (past : List (Visit env)) (s : SignIn env) (time : Int) : Prop :=
  ∃ v ∈ past, v.signIn.uid = s.uid ∧ v.signIn.ip = s.ip ∧
    time < v.time + (loginIpMemorySecs * 1000 : Nat)

instance (past : List (Visit env)) (s : SignIn env) (time : Int) : Decidable (Known past s time) :=
  inferInstanceAs (Decidable (∃ v ∈ past, _ ∧ _ ∧ _))

/-- Handling a sign-in: the cache answers and no call for a row fails. -/
def SignIn.Handled (d : Deployment Bytes) (s : SignIn env) (w : World Bytes) (asked : List Request)
    (w' : World Bytes) : Prop :=
  ∃ script, Program.play (Program.logged (exec d) Op.request)
    (Events.dispatch d.mq env s.ctx "UserLoggedIn" s.data).run (.ok :: script) (w, []) =
      some (.ok (), (w', asked))

/-- Time passes, and the service does anything else. -/
def Between (w w' : World Bytes) : Prop := w.now ≤ w'.now ∧ w'.counters = w.counters

/-- A sequence of sign-ins from a world, one after the other. -/
inductive Visits (d : Deployment Bytes) : World Bytes → List (Visit env) → World Bytes → Prop
  | nil (w : World Bytes) : Visits d w [] w
  | snoc {w w₁ w₂ w₃ : World Bytes} {past : List (Visit env)} {s : SignIn env}
      {asked : List Request} : Visits d w past w₁ → Between w₁ w₂ → s.Handled d w₂ asked w₃ →
      Visits d w (past ++ [⟨s, w₂.now, asked⟩]) w₃

def touches (past : List (Visit env)) : List (String × Int) :=
  past.map fun v => (v.signIn.key, v.time)

variable {d : Deployment Bytes} {w w' : World Bytes} {past : List (Visit env)} {s : SignIn env}
  {asked : List Request}

theorem known_iff_within {time : Int} : Known past s time ↔
    RollingCounter.Within (loginIpMemorySecs * 1000) (touches past) time s.key := by
  constructor
  · rintro ⟨v, hv, huser, hip, hyoung⟩
    exact ⟨_, List.mem_map_of_mem hv, loginIpKey_inj.mpr ⟨huser, hip⟩, hyoung⟩
  · rintro ⟨_, he, hkey, hyoung⟩
    obtain ⟨v, hv, rfl⟩ := List.mem_map.mp he
    obtain ⟨huser, hip⟩ := loginIpKey_inj.mp hkey
    exact ⟨v, hv, huser, hip, hyoung⟩

theorem answer_world {α : Type} {w₁ : World Bytes} {value : α} {o : Outcome}
    {r : Except NotiError α} (h : w.answer value w₁ o = some (r, w')) : w' = w ∨ w' = w₁ := by
  rcases World.answer_eq_some.mp h with ⟨-, -, rfl⟩ | ⟨e, -, hfailed⟩
  · exact .inr rfl
  · cases hfailed with
    | before => exact .inl rfl
    | after => exact .inr rfl

def SameCounters (w w' : World Bytes) : Prop := w'.counters = w.counters ∧ w'.now = w.now

theorem SameCounters.trans {u v w : World Bytes} (h : SameCounters u v) (h' : SameCounters v w) :
    SameCounters u w := ⟨h'.1.trans h.1, h'.2.trans h.2⟩

theorem exec_frame {β : Type} {o : Outcome} {op : Op β} {answer : β} (hop : op.bumps = none)
    (h : exec d o op w = some (answer, w')) : SameCounters w w' := by
  have hsame : w' = w → SameCounters w w' := by
    rintro rfl
    exact ⟨rfl, rfl⟩
  cases op with
  | incrementWithTtl => cases hop
  | now => exact hsame (by cases h; rfl)
  | newV4 =>
    simp only [exec] at h
    split at h
    · split at h
      · cases h
        exact ⟨rfl, rfl⟩
      · cases h
    · cases h
  | create n =>
    simp only [exec] at h
    split at h
    · rcases answer_world h with rfl | rfl <;> exact ⟨rfl, rfl⟩
    · exact hsame (by cases h; rfl)
  | updateStatus | incrementRetry | resetStuckProcessing =>
    rcases answer_world h with rfl | rfl <;> exact ⟨rfl, rfl⟩
  | getById | setValue =>
    rcases answer_world h with rfl | rfl <;> exact ⟨rfl, rfl⟩
  | getPendingForRetry =>
    simp only [exec] at h
    split at h
    · obtain ⟨due, -, heq⟩ := Option.map_eq_some_iff.mp h
      exact hsame (by cases heq; rfl)
    · exact hsame (by cases h; rfl)
    · cases h
  | render | send => exact hsame (World.reply_eq_some.mp h).1
  | encodeView =>
    simp only [exec] at h
    split at h
    · exact hsame (by cases h; rfl)
    · exact hsame (by cases h; rfl)
    · cases h
  | publishDispatch | publishRetry =>
    simp only [exec] at h
    split at h
    · rcases answer_world h with rfl | rfl <;> exact ⟨rfl, rfl⟩
    · exact hsame (by cases h; rfl)
  | enterTriggerDispatch | spawnDispatch | spawnInProcessRetry =>
    cases h
    exact ⟨rfl, rfl⟩

theorem SignIn.Handled.spec (h : s.Handled d w asked w') :
    asked = (if 0 < w.count s.key then [] else s.alert) ∧ w'.now = w.now ∧
      w'.counters = RollingCounter.touch w.counters w.now (loginIpMemorySecs * 1000) s.key := by
  obtain ⟨script, hplay⟩ := h
  rw [s.dispatch_run] at hplay
  obtain ⟨_, _, answer, ⟨w₁, seen⟩, heq, hcall, hrest⟩ := (Program.play_call_eq_some _).mp hplay
  cases heq
  cases hcall
  by_cases hseen : 0 < w.count s.key
  · rw [afterBump_later (Nat.succ_lt_succ hseen)] at hrest
    obtain ⟨-, -, heq⟩ := (Program.play_done_eq_some _).mp hrest
    cases heq
    rw [if_pos hseen]
    exact ⟨rfl, rfl, rfl⟩
  · rw [afterBump_first (by omega)] at hrest
    obtain ⟨hrun, shown, rfl, hpath⟩ := Program.play_logged hrest
    have hall : asked = s.alert := queueAll_rows_ok d.mq (request_request s.ctx) hpath
    have hframe : SameCounters (w.incrementWithTtl s.key loginIpMemorySecs) w' :=
      Program.frame_of_silent (fun _ => ⟨rfl, rfl⟩) (fun _ _ _ => .trans)
        (fun _ _ _ _ _ => exec_frame) (silent_queueAll d.mq s.ctx _) hrun
    rw [if_neg hseen]
    exact ⟨hall, hframe.2, hframe.1⟩

theorem Visits.tracks (h : Visits d w past w')
    (hfresh : ∀ uid ip, w.count (loginIpKey uid ip) = 0) :
    RollingCounter.Tracks loginIpKeys (loginIpMemorySecs * 1000)
        (touches past) w'.now w'.counters := by
  induction h with
  | nil =>
    refine RollingCounter.tracks_nil ?_
    rintro _ ⟨uid, ip, rfl⟩
    exact hfresh uid ip
  | snoc _ hbetween hhandled ih =>
    obtain ⟨-, hnow, hcounters⟩ := hhandled.spec
    rw [hnow, hcounters, touches, List.map_append]
    have hwait := ih.wait hbetween.1
    rw [← hbetween.2] at hwait
    exact hwait.touch _

/-- A sign-in of a sequence is alerted if and only if its user is not known to come from its
address, and the sign-ins of others have no part in it. -/
theorem visits_asked (h : Visits d w past w') (hfresh : ∀ uid ip, w.count (loginIpKey uid ip) = 0)
    {before after : List (Visit env)} {v : Visit env} (hpast : past = before ++ v :: after) :
    v.asked = if Known before v.signIn v.time then [] else v.signIn.alert := by
  induction h generalizing after with
  | nil => cases (List.append_eq_nil_iff.mp hpast.symm).2
  | @snoc w₁ w₂ w₃ past s asked hvisits hbetween hhandled ih =>
    rcases List.eq_nil_or_concat after with rfl | ⟨after, last, rfl⟩
    · obtain ⟨rfl, hlast⟩ := List.append_inj' hpast rfl
      cases hlast
      have htracks := (hvisits.tracks hfresh).live s.key ⟨_, _, rfl⟩ w₂.now hbetween.1
      rw [← hbetween.2, ← known_iff_within] at htracks
      obtain ⟨hasked, -⟩ := hhandled.spec
      rw [hasked]
      exact if_congr htracks rfl rfl
    · rw [List.concat_eq_append, ← List.cons_append, ← List.append_assoc] at hpast
      exact ih (List.append_inj' hpast rfl).1

end SignIn

def EventEnv.braced : EventEnv where
  frontendUrl := none
  parseStr s := if s = Uuid.toString ⟨7⟩ ∨ s =
    "\x7b" ++ Uuid.toString ⟨7⟩ ++ "\x7d" then some ⟨7⟩ else none
  toString _ := "null"
  fromStr _ := .error "expected value at line 1 column 1"

def SignIn.spelled (id spelling : String)
    (h : EventEnv.braced.parseStr spelling = some ⟨7⟩) : SignIn .braced where
  ctx := ⟨0, 7, some id⟩
  data := .obj [("user_id", .str spelling), ("ip_address", .str "10.0.0.1")]
  payload := ⟨some spelling, "", some "10.0.0.1"⟩
  uid := ⟨7⟩
  ip := "10.0.0.1"
  parsed := rfl
  user := h
  address := rfl
  nonempty := by decide

theorem visits_asked_braced : ∃ (past : List (Visit .braced)) (v : Visit .braced)
    (w' : World NotificationTask), Visits (.plain true) (.boot 0 .empty) (past ++ [v]) w' ∧
      past.map (·.asked.length) = [2] ∧ v.asked.length = 0 ∧
      v.asked = if Known past v.signIn v.time then [] else v.signIn.alert := by
  let first : SignIn .braced := .spelled "a" (Uuid.toString ⟨7⟩) rfl
  let second : SignIn .braced := .spelled "b" ("\x7b" ++ Uuid.toString ⟨7⟩ ++ "\x7d") rfl
  let handle (s : SignIn .braced) (script : List Outcome) (w : World NotificationTask) :=
    Program.play (Program.logged (exec (.plain true)) Op.request)
      (Events.dispatch true .braced s.ctx "UserLoggedIn" s.data).run (.ok :: script) (w, [])
  have hrun : ((handle first (creating ⟨1⟩ ++ creating ⟨2⟩) (.boot 0 .empty)).bind
      fun (r₁, w₁, asked₁) => (handle second [] (w₁.tick 1000)).map fun (r₂, _, asked₂) =>
        r₁.toOption.isSome && r₂.toOption.isSome && asked₁.length = 2 && asked₂.length = 0) =
      some true := by decide +kernel
  obtain ⟨⟨r₁, w₁, asked₁⟩, h₁, hrun⟩ := Option.bind_eq_some_iff.mp hrun
  obtain ⟨⟨r₂, w₂, asked₂⟩, h₂, hrun⟩ := Option.map_eq_some_iff.mp hrun
  simp only [Bool.and_eq_true, decide_eq_true_eq] at hrun
  obtain ⟨⟨⟨hr₁, hr₂⟩, hasked₁⟩, hasked₂⟩ := hrun
  cases r₁ with
  | error e => cases hr₁
  | ok _ =>
    cases r₂ with
    | error e => cases hr₂
    | ok _ =>
      have hvisits : Visits (.plain true) (.boot 0 .empty)
          ([] ++ [⟨first, 0, asked₁⟩] ++ [⟨second, (w₁.tick 1000).now, asked₂⟩]) w₂ :=
        .snoc (.snoc (.nil _) ⟨Int.le_refl _, rfl⟩ ⟨_, h₁⟩)
          ⟨Int.le_add_of_nonneg_right (by decide), rfl⟩ ⟨_, h₂⟩
      exact ⟨_, _, w₂, hvisits, by simp [hasked₁], hasked₂,
        visits_asked hvisits (fun _ _ => rfl) rfl⟩

end NotiService
