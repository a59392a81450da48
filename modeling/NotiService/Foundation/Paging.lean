import Mathlib.Data.List.Nodup
import Mathlib.Data.List.Sort
import Mathlib.Order.Defs.LinearOrder

/-! Pages of a list that is sorted anew for every page, by a key that may tie. A row of a
group of equal keys can stand on either side of a page's end, and be shown twice or never,
exactly if the group reaches over that end. -/

namespace NotiService.Foundation.Paging

variable {ρ κ : Type} [LinearOrder κ] (key : ρ → κ)

/-- The rows in descending order of their keys, equal keys in any order. -/
def Ordering (rows s : List ρ) : Prop := s.Perm rows ∧ s.Pairwise fun x y => key y ≤ key x

/-- Some rows of equal key stand before position `m`, and some from there on. -/
def Straddles (rows : List ρ) (m : Nat) : Prop :=
  ∃ c, rows.countP (c < key ·) < m ∧ m < rows.countP (c ≤ key ·)

def page (size : Nat) (s : List ρ) (k : Nat) : List ρ := (s.drop (k * size)).take size

def shown (size : Nat) (orders : Nat → List ρ) (n : Nat) : List ρ :=
  (List.range n).flatMap fun k => page size (orders k) k

variable {key} {rows s s' : List ρ} {size m n k : Nat} {orders : Nat → List ρ}

theorem page_eq_nil (hsize : 0 < size) : page size s k = [] ↔ s.length ≤ k * size := by
  rw [page, List.take_eq_nil_iff, List.drop_eq_nil_iff]
  exact or_iff_right hsize.ne'

theorem take_append_page : s.take (k * size) ++ page size s k = s.take ((k + 1) * size) := by
  rw [page, Nat.succ_mul, List.take_add]

theorem shown_succ : shown size orders (n + 1) =
    shown size orders n ++ page size (orders n) n := by
  simp [shown, List.range_succ]

theorem mem_page {x : ρ} (hx : s[m]? = some x) (hlow : k * size ≤ m)
    (hhigh : m < (k + 1) * size) : x ∈ page size s k := by
  rw [Nat.succ_mul] at hhigh
  refine List.mem_of_getElem? (i := m - k * size) ?_
  rw [page, List.getElem?_take_of_lt (by omega), List.getElem?_drop,
    Nat.add_sub_cancel' hlow, hx]

theorem lt_countP {p : ρ → Bool} (hp : ∀ x y, key x ≤ key y → p x → p y) {i : Nat} {x : ρ}
    (hs : s.Pairwise fun x y => key y ≤ key x) (hi : s[i]? = some x) :
    i < s.countP p ↔ p x := by
  induction s generalizing i with
  | nil => cases hi
  | cons y s ih =>
    obtain ⟨hy, hs⟩ := List.pairwise_cons.mp hs
    by_cases hpy : p y
    · rw [List.countP_cons_of_pos hpy]
      cases i with
      | zero =>
        obtain rfl : y = x := Option.some.inj hi
        simp [hpy]
      | succ i => rw [Nat.succ_lt_succ_iff, ih hs hi]
    · have hnone : ∀ z ∈ y :: s, ¬ p z := by
        intro z hz hpz
        rcases List.mem_cons.mp hz with rfl | hz
        · exact hpy hpz
        · exact hpy (hp z y (hy z hz) hpz)
      rw [List.countP_eq_zero.mpr hnone]
      exact iff_of_false (Nat.not_lt_zero i) (hnone x (List.mem_of_getElem? hi))

theorem filter_eq_take (hs : s.Pairwise fun x y => key y ≤ key x) (c : κ) :
    s.filter (c ≤ key ·) = s.take (s.countP (c ≤ key ·)) := by
  induction s with
  | nil => rfl
  | cons x s ih =>
    obtain ⟨hx, hs⟩ := List.pairwise_cons.mp hs
    by_cases hc : c ≤ key x
    · rw [List.filter_cons_of_pos (by simpa using hc), List.countP_cons_of_pos (by simpa using hc),
        List.take_succ_cons, ih hs]
    · have hnone : ∀ y ∈ x :: s, ¬ c ≤ key y := by
        intro y hy hcy
        rcases List.mem_cons.mp hy with rfl | hy
        · exact hc hcy
        · exact hc (hcy.trans (hx y hy))
      rw [List.filter_eq_nil_iff.mpr (by simpa using hnone),
        List.countP_eq_zero.mpr (by simpa using hnone), List.take_zero]

theorem le_countP_iff (h : Ordering key rows s) (c : κ) {i : Nat} {x : ρ} (hi : s[i]? = some x) :
    i < rows.countP (c ≤ key ·) ↔ c ≤ key x := by
  rw [← h.1.countP_eq, lt_countP (fun _ _ hle hp => by simpa using le_trans (by simpa using hp) hle)
    h.2 hi, decide_eq_true_iff]

theorem lt_countP_iff (h : Ordering key rows s) (c : κ) {i : Nat} {x : ρ} (hi : s[i]? = some x) :
    i < rows.countP (c < key ·) ↔ c < key x := by
  rw [← h.1.countP_eq, lt_countP
    (fun _ _ hle hp => by simpa using lt_of_lt_of_le (by simpa using hp) hle) h.2 hi,
    decide_eq_true_iff]

theorem take_eq_filter (h : Ordering key rows s) (hm : ¬ Straddles key rows m) (hpos : 0 < m)
    (hlt : m < rows.length) : ∃ c, ∀ s', Ordering key rows s' →
      s'.take m = s'.filter (c ≤ key ·) := by
  have hlen := h.1.length_eq
  obtain ⟨x, hx⟩ : ∃ x, s[m - 1]? = some x := ⟨_, List.getElem?_eq_getElem (by omega)⟩
  have hfrom := (le_countP_iff h (key x) hx).mpr le_rfl
  have habove := mt (lt_countP_iff h (key x) hx).mp (lt_irrefl _)
  have heq : rows.countP (key x ≤ key ·) = m := by
    by_contra hne
    exact hm ⟨key x, by omega, by omega⟩
  refine ⟨key x, fun s' hs' => ?_⟩
  rw [filter_eq_take hs'.2, hs'.1.countP_eq, heq]

theorem take_perm_take (h : Ordering key rows s) (h' : Ordering key rows s')
    (hm : ¬ Straddles key rows m) : (s.take m).Perm (s'.take m) := by
  have hlen := h.1.length_eq
  have hlen' := h'.1.length_eq
  rcases Nat.eq_zero_or_pos m with rfl | hpos
  · rw [List.take_zero, List.take_zero]
  · by_cases hlt : m < rows.length
    · obtain ⟨c, hc⟩ := take_eq_filter h hm hpos hlt
      rw [hc s h, hc s' h']
      exact (h.1.trans h'.1.symm).filter _
    · rw [List.take_of_length_le (by omega), List.take_of_length_le (by omega)]
      exact h.1.trans h'.1.symm

theorem shown_perm_take (h : ∀ k, Ordering key rows (orders k))
    (hpages : ∀ k, ¬ Straddles key rows (k * size)) (n : Nat) (hs : Ordering key rows s) :
    (shown size orders n).Perm (s.take (n * size)) := by
  induction n generalizing s with
  | zero => simp [shown]
  | succ n ih =>
    rw [shown_succ]
    have hlast := (ih (h n)).append_right (page size (orders n) n)
    rw [take_append_page] at hlast
    exact hlast.trans (take_perm_take (h n) hs (hpages (n + 1)))

theorem exists_ordering (key : ρ → κ) (rows : List ρ) : ∃ s, Ordering key rows s := by
  let r : ρ → ρ → Prop := fun x y => key y ≤ key x
  have htotal : Std.Total r := ⟨fun x y => le_total (key y) (key x)⟩
  have htrans : IsTrans ρ r := ⟨fun _ _ _ hxy hyz => hyz.trans hxy⟩
  exact ⟨rows.insertionSort r, List.perm_insertionSort r rows, List.pairwise_insertionSort r rows⟩

theorem exists_swap (hm : Straddles key rows m) : ∃ p x y q, p.length + 1 = m ∧
    Ordering key rows (p ++ x :: y :: q) ∧ Ordering key rows (p ++ y :: x :: q) := by
  obtain ⟨c, habove, hfrom⟩ := hm
  obtain ⟨s, h⟩ := exists_ordering key rows
  have hlen : rows.countP (c ≤ key ·) ≤ s.length := h.1.countP_eq _ ▸ List.countP_le_length
  have hx : s[m - 1]? = some (s.get ⟨m - 1, by omega⟩) := List.getElem?_eq_getElem _
  have hy : s[m]? = some (s.get ⟨m, by omega⟩) := List.getElem?_eq_getElem _
  have hxy : key (s.get ⟨m - 1, by omega⟩) ≤ key (s.get ⟨m, by omega⟩) :=
    le_trans (not_lt.mp (mt (lt_countP_iff h c hx).mpr (by omega)))
      ((le_countP_iff h c hy).mp hfrom)
  have hs : s = s.take (m - 1) ++ s.get ⟨m - 1, by omega⟩ :: s.get ⟨m, by omega⟩ ::
      s.drop (m + 1) := by
    conv_lhs => rw [← List.take_append_drop (m - 1) s, List.drop_eq_getElem_cons (by omega)]
    rw [Nat.sub_add_cancel (by omega), List.drop_eq_getElem_cons (by omega)]
    rfl
  generalize s.get ⟨m - 1, by omega⟩ = x at *
  generalize s.get ⟨m, by omega⟩ = y at *
  refine ⟨s.take (m - 1), x, y, s.drop (m + 1), ?_, hs ▸ h, ?_, ?_⟩
  · rw [List.length_take]
    omega
  · exact ((List.Perm.swap x y _).append_left _).trans (hs ▸ h.1)
  · have hsorted := h.2
    rw [hs, List.pairwise_append, List.pairwise_cons, List.pairwise_cons] at hsorted
    rw [List.pairwise_append, List.pairwise_cons, List.pairwise_cons]
    obtain ⟨hp, ⟨hx', hy', hq⟩, hpq⟩ := hsorted
    refine ⟨hp, ⟨List.forall_mem_cons.mpr ⟨hxy, hy'⟩,
      fun z hz => hx' z (List.mem_cons_of_mem _ hz), hq⟩, fun w hw z hz => hpq w hw z ?_⟩
    exact (List.Perm.swap x y _).mem_iff.mp hz

theorem not_straddles_of_nodup (h : (rows.map key).Nodup) (m : Nat) :
    ¬ Straddles key rows m := by
  rintro ⟨c, habove, hfrom⟩
  have hgroup : (rows.map key).count c ≤ 1 := List.nodup_iff_count_le_one.mp h c
  have hsplit : rows.countP (c ≤ key ·) = rows.countP (c < key ·) + (rows.map key).count c := by
    clear h habove hfrom hgroup
    induction rows with
    | nil => rfl
    | cons x rows ih =>
      rw [List.countP_cons, List.countP_cons, List.map_cons, List.count_cons, ih]
      rcases lt_trichotomy c (key x) with hlt | heq | hgt
      · simp [hlt, hlt.le, hlt.ne']
        omega
      · simp [heq]
        omega
      · simp [hgt.not_ge, hgt.not_gt, hgt.ne]
  omega

/-- Whatever the sortings, the pages before the first empty one show every row once, exactly
if no group reaches over the end of a page. -/
theorem shown_perm_iff (hnodup : rows.Nodup) (hsize : 0 < size) :
    (∀ orders : Nat → List ρ, (∀ k, Ordering key rows (orders k)) →
      ∃ n, page size (orders n) n = [] ∧ (∀ k < n, page size (orders k) k ≠ []) ∧
        (shown size orders n).Perm rows) ↔
    ∀ k, ¬ Straddles key rows (k * size) := by
  constructor
  · intro hall k hk
    obtain ⟨p, x, y, q, hlen, hxy, hyx⟩ := exists_swap hk
    let orders : Nat → List ρ := fun j => if j < k then p ++ x :: y :: q else p ++ y :: x :: q
    have horders : ∀ j, Ordering key rows (orders j) := by
      intro j
      by_cases hj : j < k
      · simpa [orders, hj] using hxy
      · simpa [orders, hj] using hyx
    obtain ⟨n, hempty, -, hperm⟩ := hall orders horders
    have hunique := hperm.nodup_iff.mpr hnodup
    have hrows : p.length + 2 ≤ rows.length := by
      rw [← hxy.1.length_eq]
      simp
    have hkpos : 0 < k := Nat.pos_of_ne_zero fun h => by simp [h] at hlen
    have hkn : k < n := by
      rw [page_eq_nil hsize, (horders n).1.length_eq] at hempty
      have hpages : k * size < n * size := by omega
      exact Nat.lt_of_mul_lt_mul_right hpages
    -- `x` ends the page before and starts the page after
    have hbefore : x ∈ page size (orders (k - 1)) (k - 1) := by
      refine mem_page (m := p.length) ?_ ?_ ?_
      · simp [orders, Nat.sub_lt hkpos Nat.one_pos]
      · rw [Nat.sub_mul, Nat.one_mul]
        omega
      · rw [Nat.sub_add_cancel hkpos]
        omega
    have hafter : x ∈ page size (orders k) k := by
      refine mem_page (m := p.length + 1) ?_ hlen.ge ?_
      · simp [orders]
      · rw [Nat.succ_mul]
        omega
    have hapart := List.pairwise_iff_getElem.mp (List.nodup_flatMap.mp hunique).2 (k - 1) k
      (by simp; omega) (by simpa using hkn) (by omega)
    simp only [List.getElem_range] at hapart
    exact hapart hbefore hafter
  · intro hpages orders horders
    have hends : ∃ n, rows.length ≤ n * size := ⟨rows.length, Nat.le_mul_of_pos_right _ hsize⟩
    have hnil : ∀ k, page size (orders k) k = [] ↔ rows.length ≤ k * size := fun k => by
      rw [page_eq_nil hsize, (horders k).1.length_eq]
    have hlast := horders (Nat.find hends)
    refine ⟨Nat.find hends, (hnil _).mpr (Nat.find_spec hends),
      fun k hk => mt (hnil k).mp (Nat.find_min hends hk), ?_⟩
    have hperm := shown_perm_take horders hpages (Nat.find hends) hlast
    rw [List.take_of_length_le (hlast.1.length_eq.le.trans (Nat.find_spec hends))] at hperm
    exact hperm.trans hlast.1

end NotiService.Foundation.Paging
