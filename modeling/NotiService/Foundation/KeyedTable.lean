import Mathlib.Data.List.Nodup

/-! A database table with a primary key: rows in no meaningful order, at most one
of each key. An update rewrites the rows of a predicate and keeps their keys, so
the table stays one by construction. -/

namespace NotiService.Foundation

variable {ρ κ : Type} [DecidableEq κ]

structure KeyedTable {ρ κ : Type} (key : ρ → κ) where
  rows : List ρ
  nodup : (rows.map key).Nodup

namespace KeyedTable

variable {key : ρ → κ} (t : KeyedTable key)

def empty : KeyedTable key := ⟨[], List.nodup_nil⟩

def get (k : κ) : Option ρ := t.rows.find? fun r => key r = k

def updateWhere (p : ρ → Bool) (f : ρ → ρ) (hf : ∀ r, key (f r) = key r) :
    KeyedTable key where
  rows := t.rows.map fun r => if p r then f r else r
  nodup := by
    have keys : (t.rows.map fun r => if p r then f r else r).map key = t.rows.map key := by
      rw [List.map_map]
      refine List.map_congr_left fun r _ => ?_
      by_cases h : p r <;> simp [h, hf]
    rw [keys]
    exact t.nodup

theorem get_eq_some_iff {k : κ} {r : ρ} : t.get k = some r ↔ r ∈ t.rows ∧ key r = k := by
  constructor
  · intro h
    exact ⟨List.mem_of_find?_eq_some h, by simpa using List.find?_some h⟩
  · rintro ⟨hr, rfl⟩
    cases hfind : t.get (key r) with
    | none =>
      have := List.find?_eq_none.mp hfind r hr
      simp at this
    | some r' =>
      have hr' := List.mem_of_find?_eq_some hfind
      have hk : key r' = key r := by simpa using List.find?_some hfind
      rw [List.inj_on_of_nodup_map t.nodup hr' hr hk]

theorem mem_iff_get {r : ρ} : r ∈ t.rows ↔ t.get (key r) = some r := by
  rw [get_eq_some_iff]
  simp

theorem get_eq_none_iff {k : κ} : t.get k = none ↔ ∀ r ∈ t.rows, key r ≠ k := by
  simp [get]

theorem key_of_get {k : κ} {r : ρ} (h : t.get k = some r) : key r = k :=
  (t.get_eq_some_iff.mp h).2

theorem get_updateWhere (p : ρ → Bool) (f : ρ → ρ) (hf : ∀ r, key (f r) = key r) (k : κ) :
    (t.updateWhere p f hf).get k = (t.get k).map fun r => if p r then f r else r := by
  have hkey : ∀ r, key (if p r then f r else r) = key r := by
    intro r
    by_cases h : p r <;> simp [h, hf]
  simp only [get, updateWhere, List.find?_map, Function.comp_def, hkey]

theorem map_key_filterMap_get {ks : List κ} (h : ∀ k ∈ ks, ∃ r, t.get k = some r) :
    (ks.filterMap t.get).map key = ks := by
  induction ks with
  | nil => rfl
  | cons k ks ih =>
    obtain ⟨r, hr⟩ := h k (List.mem_cons_self ..)
    rw [List.filterMap_cons_some hr, List.map_cons, t.key_of_get hr,
      ih fun k' hk' => h k' (List.mem_cons_of_mem k hk')]

def insert (r : ρ) (h : t.get (key r) = none) : KeyedTable key where
  rows := t.rows ++ [r]
  nodup := by
    have fresh := t.get_eq_none_iff.mp h
    simp only [List.map_append, List.map_cons, List.map_nil]
    refine List.nodup_append.mpr ⟨t.nodup, List.nodup_singleton _, ?_⟩
    rintro a ha b hb rfl
    obtain ⟨s, hs, hsk⟩ := List.mem_map.mp ha
    exact fresh s hs (hsk.trans (by simpa using hb))

theorem get_insert (r : ρ) (h : t.get (key r) = none) (k : κ) :
    (t.insert r h).get k = if k = key r then some r else t.get k := by
  by_cases hk : k = key r
  · rw [if_pos hk, get_eq_some_iff]
    exact ⟨by simp [insert], hk.symm⟩
  · have hne : ¬ key r = k := fun e => hk e.symm
    simp [get, insert, List.find?_append, hk, hne]

end KeyedTable

end NotiService.Foundation
