import Mathlib.Logic.Relation

/-! Programs as trees of typed requests. A program either is finished or asks
for one operation and continues with the answer. What an operation does is not
part of the program: `step` answers the next request in a given world, `play` answers
all of them by a script, one entry a request, and `Path` lets any answer come. -/

namespace NotiService.Foundation

universe u

inductive Program (Op : Type → Type) (α : Type) : Type 1 where
  | done : α → Program Op α
  | call {β : Type} : Op β → (β → Program Op α) → Program Op α

namespace Program

variable {Op : Type → Type} {α β γ σ : Type}

def bind (program : Program Op α) (next : α → Program Op β) : Program Op β :=
  match program with
  | .done value => next value
  | .call op rest => .call op fun answer => (rest answer).bind next

instance : Monad (Program Op) where
  pure := .done
  bind := bind

def map (f : α → β) (p : Program Op α) : Program Op β := p.bind fun value => .done (f value)

def perform (op : Op β) : Program Op β := .call op .done

/-- The same program with its requests written as others. -/
def mapOps {Op' : Type → Type} (f : {β : Type} → Op β → Op' β) : Program Op α → Program Op' α
  | .done value => .done value
  | .call op rest => .call (f op) fun answer => (rest answer).mapOps f

def isDone : Program Op α → Bool
  | .done _ => true
  | .call _ _ => false

def result : Program Op α → Option α
  | .done value => some value
  | .call _ _ => none

/-- A view of the request a program waits on, if it waits on one. -/
def peek (view : {β : Type} → Op β → γ) : Program Op α → Option γ
  | .done _ => none
  | .call op _ => some (view op)

/-- What the requests show if each is answered by `answer`. -/
def shown (answer : {β : Type} → Op β → β) (view : {β : Type} → Op β → Option γ) :
    Program Op α → List γ
  | .done _ => []
  | .call op rest => (view op).toList ++ (rest (answer op)).shown answer view

@[simp] theorem shown_pure (answer : {β : Type} → Op β → β) (view : {β : Type} → Op β → Option γ)
    (value : α) : (pure value : Program Op α).shown answer view = [] := rfl

@[simp] theorem shown_perform (answer : {β : Type} → Op β → β)
    (view : {β : Type} → Op β → Option γ) (op : Op β) (next : β → Program Op α) :
    (perform op >>= next).shown answer view =
      (view op).toList ++ (next (answer op)).shown answer view := rfl

@[simp] theorem isDone_done (value : α) : (done value : Program Op α).isDone = true := rfl

@[simp] theorem isDone_call (op : Op β) (rest : β → Program Op α) :
    (call op rest).isDone = false := rfl

@[simp] theorem result_done (value : α) :
    (done value : Program Op α).result = some value := rfl

@[simp] theorem result_call (op : Op β) (rest : β → Program Op α) :
    (call op rest).result = none := rfl

@[simp] theorem peek_done (view : {β : Type} → Op β → γ) (value : α) :
    (done value : Program Op α).peek view = none := rfl

@[simp] theorem peek_call (view : {β : Type} → Op β → γ) (op : Op β)
    (rest : β → Program Op α) : (call op rest).peek view = some (view op) := rfl

@[simp] theorem isDone_map (f : α → β) (p : Program Op α) : (p.map f).isDone = p.isDone := by
  cases p <;> rfl

@[simp] theorem result_map (f : α → β) (p : Program Op α) :
    (p.map f).result = p.result.map f := by
  cases p <;> rfl

@[simp] theorem peek_map (view : {β : Type} → Op β → γ) (f : α → β) (p : Program Op α) :
    (p.map f).peek view = p.peek view := by
  cases p <;> rfl

theorem isNone_peek (view : {β : Type} → Op β → γ) (p : Program Op α) :
    (p.peek view).isNone = p.isDone := by
  cases p <;> rfl

theorem call_congr {op : Op β} {rest rest' : β → Program Op α}
    (h : ∀ answer, rest answer = rest' answer) : call op rest = call op rest' := by
  rw [funext h]

theorem bind_done (p : Program Op α) : p.bind .done = p := by
  induction p with
  | done value => rfl
  | call op rest ih => exact call_congr ih

theorem bind_assoc (p : Program Op α) (f : α → Program Op β) (g : β → Program Op γ) :
    (p.bind f).bind g = p.bind fun value => (f value).bind g := by
  induction p with
  | done value => rfl
  | call op rest ih => exact call_congr ih

section Step

variable (exec : {β : Type} → Op β → σ → Option (β × σ))

def step : Program Op α → σ → Option (Program Op α × σ)
  | .done _, _ => none
  | .call op rest, w => (exec op w).map fun (answer, w') => (rest answer, w')

@[simp] theorem step_done (value : α) (w : σ) :
    step exec (done value : Program Op α) w = none := rfl

theorem step_call_eq_some (op : Op β) (rest : β → Program Op α) (w w' : σ)
    (p : Program Op α) :
    step exec (call op rest) w = some (p, w') ↔
      ∃ answer, exec op w = some (answer, w') ∧ p = rest answer := by
  simp only [step, Option.map_eq_some_iff, Prod.exists, Prod.mk.injEq]
  constructor
  · rintro ⟨answer, v, h, rfl, rfl⟩
    exact ⟨answer, h, rfl⟩
  · rintro ⟨answer, h, rfl⟩
    exact ⟨answer, w', h, rfl, rfl⟩

theorem step_map (f : α → β) (p : Program Op α) (w : σ) :
    step exec (p.map f) w = (step exec p w).map fun (p', w') => (p'.map f, w') := by
  cases p with
  | done value => rfl
  | call op rest =>
    show Option.map _ _ = Option.map _ (Option.map _ _)
    rw [Option.map_map]
    rfl

end Step

section Play

variable {ι : Type} (exec : ι → {β : Type} → Op β → σ → Option (β × σ))

/-- The script must last exactly as long as the program. -/
def play : Program Op α → List ι → σ → Option (α × σ)
  | .done value, [], w => some (value, w)
  | .done _, _ :: _, _ => none
  | .call _ _, [], _ => none
  | .call op rest, i :: script, w =>
    (exec i op w).bind fun (answer, w') => play (rest answer) script w'

theorem play_done_eq_some {value value' : α} {script : List ι} {w w' : σ} :
    play exec (.done value : Program Op α) script w = some (value', w') ↔
      script = [] ∧ value' = value ∧ w' = w := by
  cases script with
  | nil => simp [play, eq_comm]
  | cons i script => simp [play]

theorem play_call_eq_some {op : Op β} {rest : β → Program Op α} {value : α} {script : List ι}
    {w w' : σ} : play exec (.call op rest) script w = some (value, w') ↔
      ∃ i script' answer w₁, script = i :: script' ∧ exec i op w = some (answer, w₁) ∧
        play exec (rest answer) script' w₁ = some (value, w') := by
  cases script with
  | nil => simp [play]
  | cons i script =>
    simp only [play, Option.bind_eq_some_iff, List.cons.injEq, Prod.exists]
    constructor
    · rintro ⟨answer, w₁, hexec, hrest⟩
      exact ⟨i, script, answer, w₁, ⟨rfl, rfl⟩, hexec, hrest⟩
    · rintro ⟨_, _, answer, w₁, ⟨rfl, rfl⟩, hexec, hrest⟩
      exact ⟨answer, w₁, hexec, hrest⟩

theorem step_of_play {p : Program Op α} {script : List ι} {w w' : σ} {value : α}
    (hp : p.isDone = false) (h : play exec p script w = some (value, w')) :
    ∃ i script' p' w₁, script = i :: script' ∧ step (exec i) p w = some (p', w₁) ∧
      play exec p' script' w₁ = some (value, w') := by
  cases p with
  | done v => cases hp
  | call op rest =>
    cases script with
    | nil => cases h
    | cons i script =>
      obtain ⟨⟨answer, w₁⟩, hexec, hrest⟩ := Option.bind_eq_some_iff.mp h
      exact ⟨i, script, rest answer, w₁, rfl,
        (step_call_eq_some _ _ _ _ _ _).mpr ⟨answer, hexec, rfl⟩, hrest⟩

theorem play_bind_eq_some {p : Program Op α} {next : α → Program Op β} {script : List ι}
    {w w' : σ} {value : β} (h : play exec (p.bind next) script w = some (value, w')) :
    ∃ script₁ script₂ a w₁, script = script₁ ++ script₂ ∧
      play exec p script₁ w = some (a, w₁) ∧ play exec (next a) script₂ w₁ = some (value, w') := by
  induction p generalizing script w with
  | done a => exact ⟨[], script, a, w, rfl, rfl, h⟩
  | call op rest ih =>
    cases script with
    | nil => cases h
    | cons i script =>
      obtain ⟨⟨answer, w₁⟩, hexec, hrest⟩ := Option.bind_eq_some_iff.mp h
      obtain ⟨script₁, script₂, a, w₂, rfl, h₁, h₂⟩ := ih answer hrest
      exact ⟨i :: script₁, script₂, a, w₂, rfl,
        Option.bind_eq_some_iff.mpr ⟨_, hexec, h₁⟩, h₂⟩

theorem play_map_eq_some {p : Program Op α} {f : α → β} {script : List ι} {w w' : σ} {value : β}
    (h : play exec (p.map f) script w = some (value, w')) :
    ∃ a, value = f a ∧ play exec p script w = some (a, w') := by
  obtain ⟨script₁, script₂, a, w₁, rfl, h₁, h₂⟩ := play_bind_eq_some exec h
  obtain ⟨rfl, rfl, rfl⟩ := (play_done_eq_some exec).mp h₂
  exact ⟨a, rfl, by rwa [List.append_nil]⟩

/-- A program by its points: what every step from a point keeps holds where it is done. -/
theorem play_points {π : Type} {prog : π → Program Op α} {P : σ → π → Prop} {Q : σ → α → Prop}
    {ok : ι → Prop}
    (hstep : ∀ i pc w p w', ok i → P w pc → step (exec i) (prog pc) w = some (p, w') →
      ∃ pc', p = prog pc' ∧ P w' pc')
    (hdone : ∀ pc w value, P w pc → prog pc = .done value → Q w value)
    {pc : π} {script : List ι} {w w' : σ} {value : α} (hok : ∀ i ∈ script, ok i) (hP : P w pc)
    (h : play exec (prog pc) script w = some (value, w')) : Q w' value := by
  induction script generalizing pc w with
  | nil =>
    cases hprog : prog pc with
    | done v =>
      rw [hprog] at h
      obtain ⟨-, rfl, rfl⟩ := (play_done_eq_some exec).mp h
      exact hdone pc w' value hP hprog
    | call op rest =>
      rw [hprog] at h
      cases h
  | cons i script ih =>
    cases hisDone : (prog pc).isDone with
    | false =>
      obtain ⟨_, _, p, w₁, heq, hs, hrest⟩ := step_of_play exec hisDone h
      cases heq
      obtain ⟨pc', rfl, hP'⟩ := hstep i pc w p w₁ (hok i (List.mem_cons_self ..)) hP hs
      exact ih (fun j hj => hok j (List.mem_cons_of_mem i hj)) hP' hrest
    | true =>
      cases hprog : prog pc with
      | done v =>
        rw [hprog] at h
        cases ((play_done_eq_some exec).mp h).1
      | call op rest =>
        rw [hprog] at hisDone
        cases hisDone

def Completes (p : Program Op α) (w : σ) (value : α) (w' : σ) : Prop :=
  ∃ script, play exec p script w = some (value, w')

@[simp] theorem completes_done {value value' : α} {w w' : σ} :
    Completes exec (.done value : Program Op α) w value' w' ↔ value' = value ∧ w' = w := by
  constructor
  · rintro ⟨script, h⟩
    exact ((play_done_eq_some exec).mp h).2
  · rintro ⟨rfl, rfl⟩
    exact ⟨[], rfl⟩

theorem completes_call {op : Op β} {rest : β → Program Op α} {value : α} {w w' : σ} :
    Completes exec (.call op rest) w value w' ↔
      ∃ i answer w₁, exec i op w = some (answer, w₁) ∧
          Completes exec (rest answer) w₁ value w' := by
  constructor
  · rintro ⟨_ | ⟨i, script⟩, h⟩
    · cases h
    · obtain ⟨⟨answer, w₁⟩, hexec, hrest⟩ := Option.bind_eq_some_iff.mp h
      exact ⟨i, answer, w₁, hexec, script, hrest⟩
  · rintro ⟨i, answer, w₁, hexec, script, hrest⟩
    exact ⟨i :: script, Option.bind_eq_some_iff.mpr ⟨_, hexec, hrest⟩⟩

theorem completes_call_of_eq [Nonempty ι] {op : Op β} {rest : β → Program Op α} {answer : β}
    {value : α} {w w₁ w' : σ} (hexec : ∀ i, exec i op w = some (answer, w₁)) :
    Completes exec (.call op rest) w value w' ↔ Completes exec (rest answer) w₁ value w' := by
  rw [completes_call]
  constructor
  · rintro ⟨i, answer', w₂, h, hrest⟩
    rw [hexec] at h
    cases h
    exact hrest
  · intro hrest
    exact ⟨Classical.ofNonempty, answer, w₁, hexec _, hrest⟩

theorem completes_bind {p : Program Op α} {next : α → Program Op β} {w w' : σ} {value : β} :
    Completes exec (p.bind next) w value w' ↔
      ∃ a w₁, Completes exec p w a w₁ ∧ Completes exec (next a) w₁ value w' := by
  induction p generalizing w with
  | done a => exact ⟨fun h => ⟨a, w, (completes_done exec).mpr ⟨rfl, rfl⟩, h⟩,
      fun ⟨_, _, hdone, h⟩ => by obtain ⟨rfl, rfl⟩ := (completes_done exec).mp hdone; exact h⟩
  | call op rest ih =>
    constructor
    · intro h
      obtain ⟨i, answer, w₁, hexec, h⟩ := (completes_call exec).mp h
      obtain ⟨a, w₂, hp, hnext⟩ := (ih answer).mp h
      exact ⟨a, w₂, (completes_call exec).mpr ⟨i, answer, w₁, hexec, hp⟩, hnext⟩
    · rintro ⟨a, w₂, hp, hnext⟩
      obtain ⟨i, answer, w₁, hexec, hp⟩ := (completes_call exec).mp hp
      exact (completes_call exec).mpr ⟨i, answer, w₁, hexec, (ih answer).mpr ⟨a, w₂, hp, hnext⟩⟩

/-- A program within a larger one, on its part `part` of the state. -/
theorem of_completes_mapOps {Op' : Type → Type} {ι' τ : Type} {f : {β : Type} → Op β → Op' β}
    {exec' : ι' → {β : Type} → Op' β → τ → Option (β × τ)} {part : τ → σ} {R : τ → τ → Prop}
    (hrefl : ∀ w, R w w) (htrans : ∀ u v w, R u v → R v w → R u w)
    (hexec : ∀ {β : Type} i (op : Op β) (w : τ) (answer : β) (w' : τ),
      exec' i (f op) w = some (answer, w') →
        R w w' ∧ ∃ j, exec j op (part w) = some (answer, part w'))
    {p : Program Op α} {w w' : τ} {value : α} (h : Completes exec' (p.mapOps f) w value w') :
    R w w' ∧ Completes exec p (part w) value (part w') := by
  induction p generalizing w with
  | done a =>
    obtain ⟨rfl, rfl⟩ := (completes_done _).mp h
    exact ⟨hrefl _, (completes_done _).mpr ⟨rfl, rfl⟩⟩
  | call op rest ih =>
    obtain ⟨i, answer, w₁, hcall, hrest⟩ := (completes_call _).mp h
    obtain ⟨hR, j, hj⟩ := hexec i op w answer w₁ hcall
    obtain ⟨hR', hrest⟩ := ih answer hrest
    exact ⟨htrans _ _ _ hR hR', (completes_call _).mpr ⟨j, answer, _, hj, hrest⟩⟩

end Play

section Path

variable {κ : Type} (view : {β : Type} → Op β → Option κ)

/-- Some run of the program, stopped anywhere or finished, shows `seen` in its requests. -/
inductive Path : Program Op α → List κ → Option α → Prop where
  | stop (p : Program Op α) : Path p [] none
  | done (value : α) : Path (.done value) [] (some value)
  | call {β : Type} {op : Op β} {rest : β → Program Op α} {seen : List κ} {r : Option α}
      (answer : β) : Path (rest answer) seen r → Path (.call op rest) ((view op).toList ++ seen) r

variable {view}

theorem path_done {value : α} {seen : List κ} {r : Option α}
    (h : Path view (.done value : Program Op α) seen r) : seen = [] ∧ ∀ a, r = some a →
      a = value := by
  cases h with
  | stop => exact ⟨rfl, nofun⟩
  | done => exact ⟨rfl, fun a ha => (Option.some.inj ha).symm⟩

theorem path_call {op : Op β} {rest : β → Program Op α} {seen : List κ} {r : Option α}
    (h : Path view (.call op rest : Program Op α) seen r) : (seen = [] ∧ r = none) ∨
      ∃ answer seen', Path view (rest answer) seen' r ∧ seen = (view op).toList ++ seen' := by
  cases h with
  | stop => exact .inl ⟨rfl, rfl⟩
  | call answer h => exact .inr ⟨answer, _, h, rfl⟩

theorem Path.shown {op : Op β} {rest : β → Program Op α} {k : κ} {seen : List κ} {r : Option α}
    (hop : view op = some k) (answer : β) (h : Path view (rest answer) seen r) :
    Path view (.call op rest : Program Op α) (k :: seen) r := by
  have hcall : Path view (.call op rest : Program Op α) ((view op).toList ++ seen) r :=
    .call answer h
  rwa [hop] at hcall

theorem path_bind {p : Program Op α} {next : α → Program Op β} {seen : List κ} {r : Option β}
    (h : Path view (p.bind next) seen r) : (Path view p seen none ∧ r = none) ∨
      ∃ seen₁ seen₂ a, Path view p seen₁ (some a) ∧ Path view (next a) seen₂ r ∧
        seen = seen₁ ++ seen₂ := by
  induction p generalizing seen with
  | done a => exact .inr ⟨[], seen, a, .done a, h, rfl⟩
  | call op rest ih =>
    rcases path_call h with ⟨rfl, rfl⟩ | ⟨answer, seen', hrest, rfl⟩
    · exact .inl ⟨.stop _, rfl⟩
    · rcases ih answer hrest with ⟨hstop, rfl⟩ | ⟨seen₁, seen₂, a, h₁, h₂, rfl⟩
      · exact .inl ⟨.call answer hstop, rfl⟩
      · exact .inr ⟨_, seen₂, a, .call answer h₁, h₂, (List.append_assoc ..).symm⟩

theorem Path.bind {p : Program Op α} {next : α → Program Op β} {seen₁ seen₂ : List κ} {a : α}
    {r : Option β} (h : Path view p seen₁ (some a)) (h₂ : Path view (next a) seen₂ r) :
    Path view (p.bind next) (seen₁ ++ seen₂) r := by
  induction p generalizing seen₁ with
  | done value =>
    obtain ⟨rfl, hvalue⟩ := path_done h
    obtain rfl := hvalue a rfl
    exact h₂
  | call op rest ih =>
    rcases path_call h with ⟨-, hstop⟩ | ⟨answer, seen', hrest, rfl⟩
    · cases hstop
    · rw [List.append_assoc]
      exact .call answer (ih answer hrest)

variable (view) in
def Silent (p : Program Op α) : Prop := ∀ seen r, Path view p seen r → seen = []

theorem silent_done (value : α) : Silent view (.done value : Program Op α) :=
  fun _ _ h => (path_done h).1

theorem silent_call {op : Op β} {rest : β → Program Op α} (hop : view op = none)
    (h : ∀ answer, Silent view (rest answer)) : Silent view (.call op rest : Program Op α) := by
  intro seen r hpath
  rcases path_call hpath with ⟨rfl, -⟩ | ⟨answer, seen', hrest, rfl⟩
  · rfl
  · rw [hop, h answer _ _ hrest]
    rfl

theorem silent_bind {p : Program Op α} {next : α → Program Op β} (h : Silent view p)
    (h' : ∀ a, Silent view (next a)) : Silent view (p.bind next) := by
  intro seen r hpath
  rcases path_bind hpath with ⟨hstop, -⟩ | ⟨seen₁, seen₂, a, h₁, h₂, rfl⟩
  · exact h _ _ hstop
  · rw [h _ _ h₁, h' a _ _ h₂]
    rfl

variable (view) in
/-- A run shows `k` once if it finishes, and before that nothing or `k`. -/
def Shows (p : Program Op α) (k : κ) : Prop :=
  ∀ seen r, Path view p seen r → seen = [k] ∨ (seen = [] ∧ r = none)

theorem shows_call {op : Op β} {rest : β → Program Op α} {k : κ} (hop : view op = some k)
    (h : ∀ answer, Silent view (rest answer)) :
    Shows view (.call op rest : Program Op α) k := by
  intro seen r hpath
  rcases path_call hpath with hstop | ⟨answer, seen', hrest, rfl⟩
  · exact .inr hstop
  · rw [hop, h answer _ _ hrest]
    exact .inl rfl

theorem shows_skip {op : Op β} {rest : β → Program Op α} {k : κ} (hop : view op = none)
    (h : ∀ answer, Shows view (rest answer) k) :
    Shows view (.call op rest : Program Op α) k := by
  intro seen r hpath
  rcases path_call hpath with hstop | ⟨answer, seen', hrest, rfl⟩
  · exact .inr hstop
  · rw [hop]
    exact h answer _ _ hrest

theorem shows_map {p : Program Op α} {k : κ} (f : α → β) (h : Shows view p k) :
    Shows view (p.map f) k := by
  intro seen r hpath
  rcases path_bind hpath with ⟨hstop, rfl⟩ | ⟨seen₁, seen₂, a, h₁, h₂, rfl⟩
  · exact (h _ _ hstop).imp_right fun hnil => ⟨hnil.1, rfl⟩
  · obtain rfl := (path_done h₂).1
    rw [List.append_nil]
    exact .inl ((h _ _ h₁).resolve_right fun hnil => nomatch hnil.2)

end Path

section Logged

variable {ι κ σ : Type} (exec : ι → {β : Type} → Op β → σ → Option (β × σ))
  (view : {β : Type} → Op β → Option κ)

/-- Keeps what the requests show beside the state. -/
def logged (i : ι) {β : Type} (op : Op β) : σ × List κ → Option (β × (σ × List κ))
  | (w, seen) => (exec i op w).map fun (answer, w') => (answer, (w', seen ++ (view op).toList))

variable {exec view}

theorem play_logged {p : Program Op α} {script : List ι} {w w' : σ} {seen seen' : List κ} {a : α}
    (h : play (logged exec view) p script (w, seen) = some (a, (w', seen'))) :
    play exec p script w = some (a, w') ∧
      ∃ shown, seen' = seen ++ shown ∧ Path view p shown (some a) := by
  induction p generalizing script w seen with
  | done value =>
    obtain ⟨rfl, rfl, heq⟩ := (play_done_eq_some _).mp h
    cases heq
    exact ⟨rfl, [], (List.append_nil _).symm, .done _⟩
  | call op rest ih =>
    obtain ⟨i, script, answer, w₁, rfl, hexec, hrest⟩ := (play_call_eq_some _).mp h
    obtain ⟨⟨answer', v⟩, hcall, heq⟩ := Option.map_eq_some_iff.mp hexec
    cases heq
    obtain ⟨hplay, shown, rfl, hpath⟩ := ih answer hrest
    refine ⟨(play_call_eq_some _).mpr ⟨i, script, answer, v, rfl, hcall, hplay⟩,
      (view op).toList ++ shown, List.append_assoc .., .call answer hpath⟩

theorem frame_of_silent {R : σ → σ → Prop} (hrefl : ∀ w, R w w)
    (htrans : ∀ u v w, R u v → R v w → R u w)
    (hexec : ∀ {β : Type} i (op : Op β) (w : σ) (answer : β) (w' : σ), view op = none →
      exec i op w = some (answer, w') → R w w')
    {p : Program Op α} {script : List ι} {w w' : σ} {a : α} (hsilent : Silent view p)
    (h : play exec p script w = some (a, w')) : R w w' := by
  induction p generalizing script w with
  | done value =>
    obtain ⟨-, -, rfl⟩ := (play_done_eq_some _).mp h
    exact hrefl _
  | call op rest ih =>
    obtain ⟨i, script, answer, w₁, rfl, hcall, hrest⟩ := (play_call_eq_some _).mp h
    have hquiet := hsilent _ _ (.call answer (.stop (rest answer)))
    rw [List.append_nil, Option.toList_eq_nil_iff] at hquiet
    refine htrans _ _ _ (hexec i op w answer w₁ hquiet hcall)
      (ih answer (fun seen r hpath => ?_) hrest)
    have hall := hsilent _ _ (.call answer hpath)
    rwa [hquiet] at hall

end Logged

end Program

end NotiService.Foundation
