import Mathlib.Data.List.Induction
import Mathlib.Logic.Relation

/-! Labelled transition systems with an executable step. A label carries every
choice the environment makes in a step, so `step` is a function and a concrete
run can be computed. `Reachable ok` keeps to the steps that satisfy `ok`; all
runs are those of `ok = always`. -/

namespace NotiService.Foundation

universe u v w

structure System (σ : Type u) (ι : Type v) where
  init : σ → Prop
  step : σ → ι → Option σ

namespace System

variable {σ : Type u} {ι : Type v} (S : System σ ι)

def always (_ : σ) (_ : ι) : Prop := True

def Next (ok : σ → ι → Prop) (s t : σ) : Prop := ∃ l, ok s l ∧ S.step s l = some t

def Reachable (ok : σ → ι → Prop) (s : σ) : Prop :=
  ∃ s₀, S.init s₀ ∧ Relation.ReflTransGen (S.Next ok) s₀ s

/-- The end of a run whose steps all pass the check `ok`. -/
def runWhen (ok : σ → ι → Bool) : σ → List ι → Option σ
  | s, [] => some s
  | s, l :: ls => if ok s l then (S.step s l).bind fun t => runWhen ok t ls else none

def run : σ → List ι → Option σ := S.runWhen fun _ _ => true

variable {S}

theorem Reachable.start {ok : σ → ι → Prop} {s : σ} (h : S.init s) : S.Reachable ok s :=
  ⟨s, h, .refl⟩

theorem Reachable.next {ok : σ → ι → Prop} {s t : σ} {l : ι} (h : S.Reachable ok s)
    (hok : ok s l) (hs : S.step s l = some t) : S.Reachable ok t := by
  obtain ⟨s₀, h₀, path⟩ := h
  exact ⟨s₀, h₀, path.tail ⟨l, hok, hs⟩⟩

theorem Reachable.invariant {ok : σ → ι → Prop} {P : σ → Prop}
    (hinit : ∀ s, S.init s → P s)
    (hstep : ∀ s l t, P s → ok s l → S.step s l = some t → P t)
    {s : σ} (h : S.Reachable ok s) : P s := by
  obtain ⟨s₀, h₀, path⟩ := h
  induction path with
  | refl => exact hinit _ h₀
  | tail _ next ih =>
    obtain ⟨l, hok, hs⟩ := next
    exact hstep _ l _ ih hok hs

theorem Reachable.runWhen {ok : σ → ι → Prop} {check : σ → ι → Bool}
    (hcheck : ∀ s l, check s l = true → ok s l) {s t : σ} {ls : List ι}
    (h : S.Reachable ok s) (hr : S.runWhen check s ls = some t) : S.Reachable ok t := by
  induction ls generalizing s with
  | nil =>
    obtain rfl : s = t := by simpa [System.runWhen] using hr
    exact h
  | cons l ls ih =>
    rw [System.runWhen, Option.ite_none_right_eq_some] at hr
    obtain ⟨hpass, hr⟩ := hr
    obtain ⟨m, hm, hr⟩ := Option.bind_eq_some_iff.mp hr
    exact ih (h.next (hcheck s l hpass) hm) hr

theorem path_of_runWhen {ok : σ → ι → Prop} {check : σ → ι → Bool}
    (hcheck : ∀ s l, check s l = true → ok s l) {s t : σ} {ls : List ι}
    (hr : S.runWhen check s ls = some t) : Relation.ReflTransGen (S.Next ok) s t := by
  induction ls generalizing s with
  | nil =>
    obtain rfl : s = t := by simpa [System.runWhen] using hr
    exact .refl
  | cons l ls ih =>
    rw [System.runWhen, Option.ite_none_right_eq_some] at hr
    obtain ⟨hpass, hr⟩ := hr
    obtain ⟨m, hm, hr⟩ := Option.bind_eq_some_iff.mp hr
    exact .head ⟨l, hcheck s l hpass, hm⟩ (ih hr)

theorem Reachable.run {s t : σ} {ls : List ι} (h : S.Reachable always s)
    (hr : S.run s ls = some t) : S.Reachable always t :=
  h.runWhen (fun _ _ _ => trivial) hr

theorem Reachable.run_rel {R : σ → σ → Prop} (hrefl : ∀ s, R s s)
    (htrans : ∀ s t u, R s t → R t u → R s u)
    (hstep : ∀ s l t, S.Reachable always s → S.step s l = some t → R s t)
    {s t : σ} {ls : List ι} (h : S.Reachable always s) (hr : S.run s ls = some t) : R s t := by
  induction ls generalizing s with
  | nil =>
    obtain rfl : s = t := by simpa [System.run, System.runWhen] using hr
    exact hrefl s
  | cons l ls ih =>
    rw [System.run, System.runWhen, if_pos rfl] at hr
    obtain ⟨m, hm, hr⟩ := Option.bind_eq_some_iff.mp hr
    exact htrans _ _ _ (hstep s l m h hm) (ih (h.next trivial hm) hr)

theorem run_invariant {P : σ → Prop} {ok : ι → Prop}
    (hstep : ∀ s l t, P s → ok l → S.step s l = some t → P t) {s t : σ} {ls : List ι} (hs : P s)
    (hls : ∀ l ∈ ls, ok l) (hr : S.run s ls = some t) : P t := by
  induction ls generalizing s with
  | nil =>
    obtain rfl : s = t := by simpa [System.run, System.runWhen] using hr
    exact hs
  | cons l ls ih =>
    obtain ⟨m, hm, hr⟩ := Option.bind_eq_some_iff.mp hr
    exact ih (hstep s l m hs (hls l (List.mem_cons_self ..)) hm)
      (fun l' hl' => hls l' (List.mem_cons_of_mem l hl')) hr

theorem run_concat (s : σ) (ls : List ι) (l : ι) :
    S.run s (ls ++ [l]) = (S.run s ls).bind fun t => S.step t l := by
  induction ls generalizing s with
  | nil => exact Option.bind_fun_some (S.step s l)
  | cons l' ls ih =>
    change ((S.step s l').bind fun t => S.run t (ls ++ [l])) = ((S.step s l').bind fun t =>
      S.run t ls).bind fun t => S.step t l
    rw [Option.bind_assoc]
    simp only [ih]

/-- What a run has done is told by its labels, if each step adds what its label tells. -/
theorem run_history {R : σ → List ι → Prop} {s t : σ} {ls : List ι} (hstart : R s [])
    (hstep : ∀ t ls l t', R t ls → S.step t l = some t' → R t' (ls ++ [l]))
    (hr : S.run s ls = some t) : R t ls := by
  induction ls using List.reverseRecOn generalizing t with
  | nil =>
    obtain rfl : s = t := by simpa [System.run, System.runWhen] using hr
    exact hstart
  | append_singleton ls l ih =>
    rw [run_concat] at hr
    obtain ⟨m, hm, hl⟩ := Option.bind_eq_some_iff.mp hr
    exact hstep m ls l t (ih hm) hl

/-- Leaving out labels: a run is followed by the labels it keeps, if a kept label can be
followed and one that is left out changes nothing that is related. -/
theorem run_filter {R : σ → σ → Prop} {ok : ι → Prop} {keep : ι → Bool}
    (hkeep : ∀ s s' l t, R s s' → ok l → keep l → S.step s l = some t →
      ∃ t', S.step s' l = some t' ∧ R t t')
    (hskip : ∀ s s' l t, R s s' → ok l → keep l = false → S.step s l = some t → R t s')
    {s s' t : σ} {ls : List ι} (hR : R s s') (hls : ∀ l ∈ ls, ok l) (hr : S.run s ls = some t) :
    ∃ t', S.run s' (ls.filter keep) = some t' ∧ R t t' := by
  induction ls generalizing s s' with
  | nil =>
    obtain rfl : s = t := by simpa [System.run, System.runWhen] using hr
    exact ⟨s', rfl, hR⟩
  | cons l ls ih =>
    obtain ⟨m, hm, hr⟩ := Option.bind_eq_some_iff.mp hr
    have hl := hls l (List.mem_cons_self ..)
    have hrest := fun l' hl' => hls l' (List.mem_cons_of_mem l hl')
    cases hk : keep l with
    | false =>
      rw [List.filter_cons_of_neg (by simp [hk])]
      exact ih (hskip s s' l m hR hl hk hm) hrest hr
    | true =>
      obtain ⟨m', hm', hR'⟩ := hkeep s s' l m hR hl hk hm
      obtain ⟨t', ht', hRt⟩ := ih hR' hrest hr
      refine ⟨t', ?_, hRt⟩
      rw [List.filter_cons_of_pos hk]
      exact Option.bind_eq_some_iff.mpr ⟨m', hm', ht'⟩

section Observed

variable {ε : Type w} (S) (view : σ → ι → σ → List ε)

/-- The system with a record of what its steps show. -/
def observed : System (σ × List ε) ι where
  init s := S.init s.1 ∧ s.2 = []
  step s l := (S.step s.1 l).map fun t => (t, s.2 ++ view s.1 l t)

variable {S view}

theorem observed_step {s t : σ × List ε} {l : ι} (h : (S.observed view).step s l = some t) :
    S.step s.1 l = some t.1 ∧ t.2 = s.2 ++ view s.1 l t.1 := by
  obtain ⟨t₁, ht₁, rfl⟩ := Option.map_eq_some_iff.mp h
  exact ⟨ht₁, rfl⟩

end Observed

end System

end NotiService.Foundation
