import Mathlib.Data.BitVec

/-! Blocks of addresses that share their first bits, and the masks that test for them. -/

namespace NotiService.Foundation

/-- The addresses that share the first `len` bits of `base`. -/
structure Cidr (w : Nat) where
  base : BitVec w
  len : Nat

namespace Cidr

variable {w : Nat}

def Contains (c : Cidr w) (a : BitVec w) : Prop := a >>> (w - c.len) = c.base >>> (w - c.len)

instance (c : Cidr w) (a : BitVec w) : Decidable (c.Contains a) :=
  inferInstanceAs (Decidable (_ = _))

theorem contains_iff_toNat (c : Cidr w) (a : BitVec w) : c.Contains a ↔
    a.toNat / 2 ^ (w - c.len) = c.base.toNat / 2 ^ (w - c.len) := by
  rw [Contains, ← BitVec.toNat_inj, BitVec.toNat_ushiftRight, BitVec.toNat_ushiftRight,
    Nat.shiftRight_eq_div_pow, Nat.shiftRight_eq_div_pow]

def mask (w k : Nat) : BitVec w := BitVec.allOnes w <<< k

theorem and_mask (x : BitVec w) (k : Nat) : x &&& mask w k = (x >>> k) <<< k := by
  ext i hi
  by_cases hk : i < k
  · simp [mask, hk]
  · simp [mask, hk, Nat.add_sub_cancel' (Nat.le_of_not_lt hk), BitVec.getLsbD_eq_getElem hi]

theorem shiftRight_and_mask (x : BitVec w) (k : Nat) : (x &&& mask w k) >>> k = x >>> k := by
  ext i hi
  simp only [mask, BitVec.getElem_ushiftRight, BitVec.getLsbD_and, BitVec.getLsbD_shiftLeft,
    BitVec.getLsbD_allOnes]
  by_cases hik : k + i < w
  · simp [hik, hi]
  · simp [BitVec.getLsbD_of_ge x (k + i) (by omega)]

theorem and_mask_eq_iff {x p : BitVec w} {k : Nat} (hp : p &&& mask w k = p) :
    x &&& mask w k = p ↔ x.toNat / 2 ^ k = p.toNat / 2 ^ k := by
  have hshift : x.toNat / 2 ^ k = p.toNat / 2 ^ k ↔ x >>> k = p >>> k := by
    rw [← BitVec.toNat_inj, BitVec.toNat_ushiftRight, BitVec.toNat_ushiftRight,
      Nat.shiftRight_eq_div_pow, Nat.shiftRight_eq_div_pow]
  rw [hshift]
  constructor
  · intro h
    rw [← shiftRight_and_mask x k, h]
  · intro h
    rw [and_mask, h, ← and_mask, hp]

end Cidr

end NotiService.Foundation
