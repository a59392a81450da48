import NotiService.Foundation.Program

/-! Programs that share a state with others. Between two requests the others may take any
steps of the relation `rely`; a program `Meets` its contract if each of its own requests is a
step of `guar` and its result satisfies `post` from the moment it is there. -/

namespace NotiService.Foundation.Program
open Relation

section Rely

variable {Op : Type → Type} {α β ι σ π : Type} (exec : ι → {β : Type} → Op β → σ → Option (β × σ))
  (rely guar : σ → σ → Prop)

def Meets (post : α → σ → Prop) : Program Op α → σ → Prop
  | .done value, w => ∀ w', ReflTransGen rely w w' → post value w'
  | .call op rest, w => ∀ w', ReflTransGen rely w w' → ∀ i answer w'',
      exec i op w' = some (answer, w'') → guar w' w'' ∧ (rest answer).Meets post w''

variable {exec rely guar} {post post' : α → σ → Prop} {p : Program Op α} {w w' : σ}

theorem Meets.others (h : p.Meets exec rely guar post w) (hrely : ReflTransGen rely w w') :
    p.Meets exec rely guar post w' := by
  cases p with
  | done value => exact fun v hv => h v (hrely.trans hv)
  | call op rest => exact fun v hv => h v (hrely.trans hv)

theorem Meets.step {i : ι} {p' : Program Op α} (h : p.Meets exec rely guar post w)
    (hs : step (exec i) p w = some (p', w')) :
    guar w w' ∧ p'.Meets exec rely guar post w' := by
  cases p with
  | done value => cases hs
  | call op rest =>
    obtain ⟨answer, hexec, rfl⟩ := (step_call_eq_some _ _ _ _ _ _).mp hs
    exact h w .refl i answer w' hexec

theorem Meets.result {value : α} (h : p.Meets exec rely guar post w)
    (hp : p.result = some value) : post value w := by
  cases p with
  | done v =>
    obtain rfl := Option.some.inj hp
    exact h w .refl
  | call op rest => cases hp

theorem Meets.mono (h : p.Meets exec rely guar post w)
    (hpost : ∀ value v, post value v → post' value v) : p.Meets exec rely guar post' w := by
  induction p generalizing w with
  | done value => exact fun v hv => hpost value v (h v hv)
  | call op rest ih =>
    intro v hv i answer u hexec
    obtain ⟨hguar, hrest⟩ := h v hv i answer u hexec
    exact ⟨hguar, ih answer hrest⟩

theorem Meets.bind {post : β → σ → Prop} {next : α → Program Op β}
    (h : p.Meets exec rely guar (fun value v => (next value).Meets exec rely guar post v) w) :
    (p.bind next).Meets exec rely guar post w := by
  induction p generalizing w with
  | done value => exact h w .refl
  | call op rest ih =>
    intro v hv i answer u hexec
    obtain ⟨hguar, hrest⟩ := h v hv i answer u hexec
    exact ⟨hguar, ih answer hrest⟩

theorem Meets.map {post : β → σ → Prop} {f : α → β}
    (h : p.Meets exec rely guar (fun value v => post (f value) v) w)
    (hrely : ∀ value v v', post value v → rely v v' → post value v') :
    (p.map f).Meets exec rely guar post w := by
  refine Meets.bind (h.mono fun value v hv v' hrel => ?_)
  induction hrel with
  | refl => exact hv
  | tail _ hlast ih => exact hrely _ _ _ ih hlast

theorem Meets.keeps {inv : σ → Prop} (h : p.Meets exec rely guar post w)
    (hrely : ∀ v v', inv v → rely v v' → inv v') (hguar : ∀ v v', inv v → guar v v' → inv v')
    (hw : inv w) : p.Meets exec rely guar (fun value v => post value v ∧ inv v) w := by
  have others : ∀ {v v'}, ReflTransGen rely v v' → inv v → inv v' := by
    intro v v' hrel hv
    induction hrel with
    | refl => exact hv
    | tail _ hlast ih => exact hrely _ _ ih hlast
  induction p generalizing w with
  | done value => exact fun v hv => ⟨h v hv, others hv hw⟩
  | call op rest ih =>
    intro v hv i answer u hexec
    obtain ⟨hstep, hrest⟩ := h v hv i answer u hexec
    exact ⟨hstep, ih answer hrest (hguar v u (others hv hw) hstep)⟩

/-- A program by its points: each step from a point is one of `guar` and leads to a point. -/
theorem meets_points (prog : π → Program Op α) (here : σ → π → Prop)
    (hrely : ∀ w w' pc, here w pc → rely w w' → here w' pc)
    (hstep : ∀ i w w' pc p, here w pc → step (exec i) (prog pc) w = some (p, w') →
      guar w w' ∧ ∃ pc', p = prog pc' ∧ here w' pc')
    (hdone : ∀ w pc value, here w pc → prog pc = .done value → post value w)
    {pc : π} (h : here w pc) : (prog pc).Meets exec rely guar post w := by
  have others : ∀ {v v' : σ} {pc}, ReflTransGen rely v v' → here v pc → here v' pc := by
    intro v v' pc hrel hv
    induction hrel with
    | refl => exact hv
    | tail _ hlast ih => exact hrely _ _ _ ih hlast
  generalize hp : prog pc = p
  induction p generalizing pc w with
  | done value => exact fun v hv => hdone v pc value (others hv h) hp
  | call op rest ih =>
    intro v hv i answer u hexec
    have hs : step (exec i) (prog pc) v = some (rest answer, u) := by
      rw [hp]
      exact (step_call_eq_some _ _ _ _ _ _).mpr ⟨answer, hexec, rfl⟩
    obtain ⟨hguar, pc', hrest, hpc'⟩ := hstep i v u pc _ (others hv h) hs
    exact ⟨hguar, ih answer hpc' hrest.symm⟩

end Rely

end NotiService.Foundation.Program
