import IoController.Bits
import Mathlib.Data.Nat.Digits.Defs

/-!
# Bits

The bytes of a word, bytes under a mask, and a set of flags, flag by flag, where every flag stands
for a bit of its own.

* `Bytes.ofDigits_littleEndian`: a word is told from its bytes.
* `xor_and`, `and_eq_of_xor`: bytes that are compared under a mask.
* `Flags.subset_trans`, `Flags.inter_subset_left`, `Flags.sdiff_subset`: parts of a set.
* `Placed`: each flag has a place of its own in the byte.
* `Flags.has_union`, `Flags.has_inter`, `Flags.has_sdiff`, `Flags.has_put`: the operations on sets
  act on every flag by itself.
* `Flags.has_ofList`: a set that is made from a list has the flags of the list.
-/

namespace IoController

/-! ### Bytes -/

namespace Bytes

/-- The bytes of `w` are its digits, lowest first. -/
theorem ofDigits_littleEndian (w : UInt32) :
    Nat.ofDigits 256 ((littleEndian w).map (·.toNat)) = w.toNat := by
  have hword := w.toNat_lt
  have hbyte (k : UInt32) : (w >>> k).toUInt8.toNat = w.toNat / 2 ^ (k.toNat % 32) % 256 := by
    rw [UInt32.toNat_toUInt8, UInt32.toNat_shiftRight, Nat.shiftRight_eq_div_pow]
  simp only [littleEndian, List.map_cons, List.map_nil, Nat.ofDigits_cons, Nat.ofDigits_nil, hbyte,
    UInt32.toNat_toUInt8, UInt32.reduceToNat, Nat.reduceMod, Nat.reducePow]
  omega

theorem littleEndian_inj {w w' : UInt32} (h : littleEndian w = littleEndian w') : w = w' := by
  refine UInt32.toNat_inj.1 ?_
  rw [← ofDigits_littleEndian w, h, ofDigits_littleEndian]

end Bytes

theorem xor_and (a b m : UInt8) : (a ^^^ b) &&& m = (a &&& m) ^^^ (b &&& m) := by
  refine UInt8.toNat_inj.1 ?_
  simp only [UInt8.toNat_and, UInt8.toNat_xor, Nat.and_xor_distrib_right]

theorem or_and (a b m : UInt8) : (a ||| b) &&& m = (a &&& m) ||| (b &&& m) := by
  refine UInt8.toNat_inj.1 ?_
  simp only [UInt8.toNat_and, UInt8.toNat_or, Nat.and_or_distrib_right]

theorem and_or_self (a b : UInt8) : a &&& (a ||| b) = a := by
  refine UInt8.toNat_inj.1 (Nat.eq_of_testBit_eq fun i => ?_)
  rw [UInt8.toNat_and, UInt8.toNat_or, Nat.testBit_and, Nat.testBit_or]
  cases a.toNat.testBit i <;> rfl

/-- Bytes `a` and `b` that agree under the mask `m` agree under a part `n` of it. -/
theorem and_eq_of_xor {a b m n : UInt8} (h : (a ^^^ b) &&& m = 0) (hn : m &&& n = n) :
    a &&& n = b &&& n := by
  rw [← UInt8.xor_eq_zero_iff, ← xor_and, ← hn, ← UInt8.and_assoc, h, UInt8.zero_and]

namespace Flags

variable {κ : Type} {s t u : Flags κ}

theorem subset_refl (s : Flags κ) : s ⊆ s := UInt8.and_self

theorem subset_trans (h : s ⊆ t) (h' : t ⊆ u) : s ⊆ u := by
  calc s.bits &&& u.bits = s.bits &&& t.bits &&& u.bits := by rw [h]
    _ = s.bits &&& (t.bits &&& u.bits) := UInt8.and_assoc _ _ _
    _ = s.bits := by rw [h', h]

theorem empty_subset (s : Flags κ) : ∅ ⊆ s := UInt8.zero_and

theorem inter_subset_left (s t : Flags κ) : s ∩ t ⊆ s := by
  calc s.bits &&& t.bits &&& s.bits = s.bits &&& (s.bits &&& t.bits) := UInt8.and_comm _ _
    _ = s.bits &&& t.bits := by rw [← UInt8.and_assoc, UInt8.and_self]

/-- What is left of `s` is what both `s` and the rest of the byte have. -/
theorem sdiff_subset (s t : Flags κ) : s \ t ⊆ s := inter_subset_left s ⟨~~~t.bits⟩

/-- A set `u` that meets a part `s` meets the whole `t`. -/
theorem meets_of_subset (h : s ⊆ t) (hs : s.meets u = true) : t.meets u = true := by
  refine bne_iff_ne.2 fun hnone => bne_iff_ne.1 hs ?_
  rw [← show s.bits &&& t.bits = s.bits from h, UInt8.and_assoc, hnone, UInt8.and_zero]

end Flags

/-- Flags that stand for one bit each, and no two for the same. -/
class Placed (κ : Type) [Flag κ] where
  /-- The place of the flag's bit. -/
  place : κ → Nat
  place_lt (k : κ) : place k < 8
  mask_eq (k : κ) : Flag.mask k = 1 <<< (place k).toUInt8
  place_injective : Function.Injective place

namespace Flags

variable {κ : Type} [Flag κ] [Placed κ]

/-- The flag `k` is in `s` if the bit in its `place` is set. -/
theorem has_eq (s : Flags κ) (k : κ) : s.has k = s.bits.toBitVec.getLsbD (Placed.place k) := by
  obtain ⟨bits⟩ := s
  have hall : ∀ (i : Fin 8) (b : Fin 256),
      (UInt8.ofFin b &&& 1 <<< i.val.toUInt8 == 1 <<< i.val.toUInt8) =
        (UInt8.ofFin b).toBitVec.getLsbD i := by
    decide +kernel
  rw [has, Placed.mask_eq]
  exact hall ⟨Placed.place k, Placed.place_lt k⟩ bits.toFin

@[simp] theorem has_empty (k : κ) : (∅ : Flags κ).has k = false := by
  rw [has_eq, bits_empty]
  exact BitVec.getLsbD_zero

@[simp] theorem has_union (s t : Flags κ) (k : κ) : (s ∪ t).has k = (s.has k || t.has k) := by
  simp only [has_eq, bits_union, UInt8.toBitVec_or, BitVec.getLsbD_or]

@[simp] theorem has_inter (s t : Flags κ) (k : κ) : (s ∩ t).has k = (s.has k && t.has k) := by
  simp only [has_eq, bits_inter, UInt8.toBitVec_and, BitVec.getLsbD_and]

@[simp] theorem has_sdiff (s t : Flags κ) (k : κ) : (s \ t).has k = (s.has k && !t.has k) := by
  simp [has_eq, Placed.place_lt k]

/-- What is put into a set `s` or taken out of it is there or not, and the rest is as it was. -/
theorem has_put (s t : Flags κ) (on : Bool) (k : κ) :
    (s.put t on).has k = if t.has k then on else s.has k := by
  cases on <;> cases h : t.has k <;> simp [put, h]

variable [DecidableEq κ]

/-- The one flag of `single j` is `j`. -/
theorem has_single (j k : κ) : (single j : Flags κ).has k = (j == k) := by
  have hall : ∀ i i' : Fin 8,
      (1 <<< i.val.toUInt8 : UInt8).toBitVec.getLsbD i' = (i.val == i'.val) := by
    decide +kernel
  have hplaces := hall ⟨Placed.place j, Placed.place_lt j⟩ ⟨Placed.place k, Placed.place_lt k⟩
  rw [has_eq, single, Placed.mask_eq, hplaces]
  rw [Bool.eq_iff_iff, beq_iff_eq, beq_iff_eq, Placed.place_injective.eq_iff]

/-- The flags of `ofList ks` are those in the list. -/
theorem has_ofList (ks : List κ) (k : κ) : (ofList ks : Flags κ).has k = ks.contains k := by
  have hfold (s : Flags κ) : (ks.foldl (fun s j => s ∪ single j) s).has k =
      (s.has k || ks.contains k) := by
    induction ks generalizing s with
    | nil => exact (Bool.or_false _).symm
    | cons j ks ih =>
      rw [List.foldl_cons, ih, has_union, has_single, List.contains_cons, Bool.beq_comm (a := k),
        Bool.or_assoc]
  rw [ofList, hfold, has_empty, Bool.false_or]

end Flags

end IoController
