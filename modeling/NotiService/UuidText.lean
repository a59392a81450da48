import NotiService.Domain
import Mathlib.Data.List.Basic

/-! The canonical text of a uuid, read back. -/

namespace NotiService
namespace Uuid

def digitValue (c : Char) : Nat := if c.isDigit then c.toNat - 48 else c.toNat - 87

def ofDigits (ds : List Nat) : Nat := ds.foldl (fun n d => n * 16 + d) 0

def read (s : String) : Uuid :=
  ⟨BitVec.ofNat 128 (ofDigits ((s.toList.filter (· ≠ '-')).map digitValue))⟩

theorem digitValue_hexDigit : ∀ n < 16, digitValue (hexDigit n) = n := by decide

theorem hexDigit_ne_dash : ∀ n < 16, hexDigit n ≠ '-' := by decide

theorem ofDigits_range (n len : Nat) :
    ofDigits ((List.range len).map fun i => n / 16 ^ (len - 1 - i) % 16) = n % 16 ^ len := by
  induction len generalizing n with
  | zero => simp [ofDigits, Nat.mod_one]
  | succ len ih =>
    have hinit : (List.range len).map (fun i => n / 16 ^ (len + 1 - 1 - i) % 16) =
        (List.range len).map fun i => n / 16 / 16 ^ (len - 1 - i) % 16 := by
      refine List.map_congr_left fun i hi => ?_
      have hlt := List.mem_range.mp hi
      rw [Nat.div_div_eq_div_mul, ← Nat.pow_succ', show len + 1 - 1 - i = len - 1 - i + 1 by omega]
    have hfold := ih (n / 16)
    unfold ofDigits at hfold ⊢
    rw [List.range_succ, List.map_append, hinit, List.foldl_append, hfold, List.map_singleton,
      List.foldl_cons, List.foldl_nil]
    have hlast : n / 16 ^ (len + 1 - 1 - len) = n := by simp
    rw [hlast, Nat.pow_succ', Nat.mod_mul]
    omega

theorem digits_toString (u : Uuid) : u.toString.toList.filter (· ≠ '-') =
    (List.range 32).map fun i => hexDigit (u.bits.toNat / 16 ^ (31 - i) % 16) := by
  have hkeep : ∀ start len, (u.hex start len).toList.filter (· ≠ '-') =
      (List.range len).map fun i => hexDigit (u.bits.toNat / 16 ^ (31 - (start + i)) % 16) := by
    intro start len
    rw [hex, String.toList_ofList, List.filter_eq_self]
    intro c hc
    obtain ⟨i, -, rfl⟩ := List.mem_map.mp hc
    exact decide_eq_true (hexDigit_ne_dash _ (Nat.mod_lt _ (by decide)))
  have hdash : "-".toList.filter (· ≠ '-') = [] := by decide
  simp only [toString, String.toList_append, List.filter_append, hkeep, hdash, List.append_nil]
  rfl

theorem read_toString (u : Uuid) : read u.toString = u := by
  have hdigits : (u.toString.toList.filter (· ≠ '-')).map digitValue =
      (List.range 32).map fun i => u.bits.toNat / 16 ^ (32 - 1 - i) % 16 := by
    rw [digits_toString, List.map_map]
    exact List.map_congr_left fun i _ => digitValue_hexDigit _ (Nat.mod_lt _ (by decide))
  have hlt : u.bits.toNat < 16 ^ 32 := u.bits.isLt
  rw [read, hdigits, ofDigits_range, Nat.mod_eq_of_lt hlt, BitVec.ofNat_toNat, BitVec.setWidth_eq]

theorem toString_injective : Function.Injective toString :=
  Function.LeftInverse.injective read_toString

theorem length_toString (u : Uuid) : u.toString.toList.length = 36 := by
  simp [toString, hex]

end Uuid
end NotiService
