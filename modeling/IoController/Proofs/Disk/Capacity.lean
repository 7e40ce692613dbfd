import IoController.Disk.Register
import Mathlib.Data.Nat.Digits.Lemmas
import Mathlib.Data.Nat.Bitwise

/-!
# Disk — Capacity

The register that describes a card is a number of 128 bits, and its fields are ranges of those
bits that do not keep to the bytes.

* `Register.field_add`, `Register.field_byte`: a field is put together from neighbouring ones, and
  inside a byte it is read off that byte.
* `Csd.exact`: whatever the register, all that is computed from it in 64 bits is the exact number.
* `Csd.capacity_described`: the capacity read off a register is the one that its fields describe,
  and the one read off the register of a card is the card's own in whole units.
-/

namespace IoController.Disk

/-! ### Fields of a register -/

namespace Register

/-- The number that the register `r` is, its first byte the highest. -/
def value (r : Register) : Nat :=
  Nat.ofDigits 256 (r.toList.reverse.map UInt8.toNat)

/-- The value of byte number `j`. -/
def byte (r : Register) (j : Nat) : Nat := (r[j]?.getD 0).toNat

theorem byte_lt (r : Register) (j : Nat) : r.byte j < 256 := UInt8.toNat_lt _

/-- The field of `width` bits from bit `low` up. -/
def field (r : Register) (low width : Nat) : Nat :=
  r.value / 2 ^ low % 2 ^ width

/-- A field is a lower part of it, of `a` bits, and the rest above. -/
theorem field_add (r : Register) (low a b : Nat) :
    r.field low (a + b) = 2 ^ a * r.field (low + a) b + r.field low a := by
  simp only [field, pow_add, ← Nat.div_div_eq_div_mul, Nat.mod_mul]
  omega

/-- Shifted down, the lowest byte of a register is byte number `j`. -/
theorem value_div (r : Register) {j : Nat} (hj : j < 16) :
    ∃ above, r.value / 256 ^ (15 - j) = r.byte j + 256 * above := by
  have hdigits : ∀ d ∈ r.toList.reverse.map UInt8.toNat, d < 256 := by
    simp only [List.mem_map, forall_exists_index, and_imp]
    rintro _ byte - rfl
    exact byte.toNat_lt
  have hlength : 15 - j < (r.toList.reverse.map UInt8.toNat).length := by
    simp only [List.length_map, List.length_reverse, Vector.length_toList]
    omega
  have hindex : 15 - (15 - j) = j := by omega
  refine ⟨Nat.ofDigits 256 ((r.toList.reverse.map UInt8.toNat).drop (15 - j + 1)), ?_⟩
  rw [value, Nat.ofDigits_div_pow_eq_ofDigits_drop _ (by decide) _ hdigits,
    List.drop_eq_getElem_cons hlength, Nat.ofDigits_cons]
  simp [byte, hindex, hj]

/-- A field that lies inside byte number `j` is a field of that byte. -/
theorem field_byte (r : Register) (j low width : Nat) (hj : j < 16) (h : low + width ≤ 8) :
    r.field (8 * (15 - j) + low) width = r.byte j / 2 ^ low % 2 ^ width := by
  obtain ⟨above, habove⟩ := r.value_div hj
  have hbyte : 256 = 2 ^ low * (2 ^ width * 2 ^ (8 - (low + width))) := by
    rw [← pow_add, ← pow_add, show low + (width + (8 - (low + width))) = 8 by omega]
    rfl
  have hpow : 2 ^ (8 * (15 - j)) = 256 ^ (15 - j) := pow_mul 2 8 _
  rw [field, pow_add, ← Nat.div_div_eq_div_mul, hpow, habove, hbyte, mul_assoc,
    Nat.add_mul_div_left _ _ (by positivity), mul_assoc, Nat.add_mul_mod_self_left]

end Register

namespace Csd

/-! ### The fields of the card's register -/

/-- The version of the structure of the register `r`. -/
def structureField (r : Register) : Nat := r.field 126 2

/-- The size field of a register `r` of version 2. -/
def highCapacitySizeField (r : Register) : Nat := r.field 48 22

/-- The size field of a register `r` of version 1. -/
def standardSizeField (r : Register) : Nat := r.field 62 12

/-- The size multiplier of a register `r` of version 1. -/
def multiplierField (r : Register) : Nat := r.field 47 3

/-- The exponent of the length of a block of the card of `r`. -/
def blockLengthField (r : Register) : Nat := r.field 80 4

/-- The number of blocks that the register `r` of version 1 describes. -/
def blocks (r : Register) : Nat := (standardSizeField r + 1) * 2 ^ (multiplierField r + 2)

/-- The capacity in bytes that the register `r` describes: half mebibytes in version 2, and blocks
of a length that the register gives in any other. -/
def described (r : Register) : Nat :=
  if structureField r = 1 then (highCapacitySizeField r + 1) * (512 * 1024)
  else blocks r * 2 ^ blockLengthField r

variable (r : Register)

theorem structureField_eq : structureField r = r.byte 0 / 64 := by
  have hbyte := r.byte_lt 0
  rw [structureField, r.field_byte 0 6 2 (by decide) (by decide)]
  omega

theorem highCapacitySizeField_eq :
    highCapacitySizeField r = r.byte 7 % 64 * 2 ^ 16 + (r.byte 8 * 2 ^ 8 + r.byte 9) := by
  have hhigh := r.field_byte 7 0 6 (by decide) (by decide)
  have hmiddle := r.field_byte 8 0 8 (by decide) (by decide)
  have hlow := r.field_byte 9 0 8 (by decide) (by decide)
  have hbyte₈ := r.byte_lt 8
  have hbyte₉ := r.byte_lt 9
  rw [highCapacitySizeField, r.field_add 48 8 14, r.field_add 56 8 6]
  simp only [Nat.reduceMul, Nat.reduceAdd, Nat.reduceSub, Nat.pow_zero, Nat.div_one]
    at hhigh hmiddle hlow ⊢
  omega

theorem standardSizeField_eq :
    standardSizeField r = r.byte 6 % 4 * 2 ^ 10 + (r.byte 7 * 2 ^ 2 + r.byte 8 / 64) := by
  have hhigh := r.field_byte 6 0 2 (by decide) (by decide)
  have hmiddle := r.field_byte 7 0 8 (by decide) (by decide)
  have hlow := r.field_byte 8 6 2 (by decide) (by decide)
  have hbyte₇ := r.byte_lt 7
  have hbyte₈ := r.byte_lt 8
  rw [standardSizeField, r.field_add 62 2 10, r.field_add 64 8 2]
  simp only [Nat.reduceMul, Nat.reduceAdd, Nat.reduceSub, Nat.pow_zero, Nat.div_one]
    at hhigh hmiddle hlow ⊢
  omega

theorem multiplierField_eq : multiplierField r = r.byte 9 % 4 * 2 + r.byte 10 / 128 := by
  have hhigh := r.field_byte 9 0 2 (by decide) (by decide)
  have hlow := r.field_byte 10 7 1 (by decide) (by decide)
  have hbyte := r.byte_lt 10
  rw [multiplierField, r.field_add 47 1 2]
  simp only [Nat.reduceMul, Nat.reduceAdd, Nat.reduceSub, Nat.pow_zero, Nat.div_one]
    at hhigh hlow ⊢
  omega

theorem blockLengthField_eq : blockLengthField r = r.byte 5 % 16 := by
  rw [blockLengthField, r.field_byte 5 0 4 (by decide) (by decide)]
  simp

theorem highCapacitySizeField_lt : highCapacitySizeField r < 2 ^ 22 := Nat.mod_lt _ (by decide)

theorem multiplierField_lt : multiplierField r < 2 ^ 3 := Nat.mod_lt _ (by decide)

theorem blockLengthField_lt : blockLengthField r < 2 ^ 4 := Nat.mod_lt _ (by decide)

/-- The most blocks that a register of version 1 describes. -/
theorem blocks_le : blocks r ≤ 2 ^ 12 * 2 ^ 9 := by
  have hsize : standardSizeField r < 2 ^ 12 := Nat.mod_lt _ (by decide)
  have hmultiplier := multiplierField_lt r
  exact Nat.mul_le_mul hsize (Nat.pow_le_pow_right (by decide) (by omega))

/-- The most bytes that a register of version 1 describes. -/
theorem bytes_le : blocks r * 2 ^ blockLengthField r ≤ 2 ^ 12 * 2 ^ 9 * 2 ^ 15 := by
  have hlength := blockLengthField_lt r
  exact Nat.mul_le_mul (blocks_le r) (Nat.pow_le_pow_right (by decide) (by omega))

/-- A register describes at most two tebibytes. -/
theorem described_le : described r / 512 ≤ 2 ^ 32 := by
  have hhigh := highCapacitySizeField_lt r
  have hbytes := bytes_le r
  unfold described
  split <;> omega

/-! ### The computation in 64 bits -/

/-- All that is computed from the register `r` in 64 bits is what it is over the numbers, so that
nothing is lost on the way. -/
structure Exact (r : Register) : Prop where
  highCapacitySize : (Csd.highCapacitySize r).toNat = highCapacitySizeField r
  highCapacitySectors : (Csd.highCapacitySectors r).toNat = (highCapacitySizeField r + 1) * 1024
  standardSize : (Csd.standardSize r).toNat = standardSizeField r
  multiplier : (Csd.multiplier r).toNat = multiplierField r
  blocks : ((Csd.standardSize r + 1) * ((1 : UInt64) <<< (Csd.multiplier r + 2).toUInt64)).toNat =
    Csd.blocks r
  blockLength : (Csd.blockLength r).toNat = 2 ^ blockLengthField r
  standardBytes : (Csd.standardBytes r).toNat = Csd.blocks r * 2 ^ blockLengthField r

/-- What is shifted clear of the lower bits `b`, and keeps its own, is put together by addition. -/
theorem toNat_shiftLeft_or {a b k : UInt64} (hk : k.toNat < 64) (hb : b.toNat < 2 ^ k.toNat)
    (ha : a.toNat * 2 ^ k.toNat < 2 ^ 64) :
    (a <<< k ||| b).toNat = a.toNat * 2 ^ k.toNat + b.toNat := by
  rw [UInt64.toNat_or, UInt64.toNat_shiftLeft, Nat.mod_eq_of_lt hk, Nat.mod_eq_of_lt
    (Nat.shiftLeft_eq .. ▸ ha), ← Nat.shiftLeft_add_eq_or_of_lt hb, Nat.shiftLeft_eq]

/-- The size that is computed is the `highCapacitySizeField`. -/
theorem highCapacitySize_toNat : (highCapacitySize r).toNat = highCapacitySizeField r := by
  have hbyte₈ := r[8].toNat_lt
  have hbyte₉ := r[9].toNat_lt
  have hmask : (r[7].toUInt64 &&& 0x3f).toNat = r[7].toNat % 64 :=
    Nat.and_two_pow_sub_one_eq_mod _ 6
  have hlow : (r[8].toUInt64 <<< 8 ||| r[9].toUInt64).toNat = r[8].toNat * 2 ^ 8 + r[9].toNat :=
    toNat_shiftLeft_or (by decide) hbyte₉ (by simp; omega)
  rw [highCapacitySizeField_eq, highCapacitySize, UInt64.or_assoc, toNat_shiftLeft_or (by decide),
    hmask, hlow]
  · rfl
  · simp [hlow]; omega
  · simp [hmask]; omega

/-- The size that is computed is the `standardSizeField`. -/
theorem standardSize_toNat : (standardSize r).toNat = standardSizeField r := by
  have hbyte₇ := r[7].toNat_lt
  have hbyte₈ := r[8].toNat_lt
  have hmask : (r[6].toUInt64 &&& 0x03).toNat = r[6].toNat % 4 :=
    Nat.and_two_pow_sub_one_eq_mod _ 2
  have hshift : (r[8].toUInt64 >>> 6).toNat = r[8].toNat / 64 := Nat.shiftRight_eq_div_pow _ 6
  have hlow : (r[7].toUInt64 <<< 2 ||| r[8].toUInt64 >>> 6).toNat =
      r[7].toNat * 2 ^ 2 + r[8].toNat / 64 := by
    rw [toNat_shiftLeft_or (by decide), hshift]
    · rfl
    · simp [hshift]; omega
    · simp; omega
  rw [standardSizeField_eq, standardSize, UInt64.or_assoc, toNat_shiftLeft_or (by decide),
    hmask, hlow]
  · rfl
  · simp [hlow]; omega
  · simp [hmask]; omega

/-- The multiplier that is computed is the `multiplierField`. -/
theorem multiplier_toNat : (multiplier r).toNat = multiplierField r := by
  have hbyte := r[10].toNat_lt
  have hmask : (r[9] &&& 0x03).toNat = r[9].toNat % 4 := Nat.and_two_pow_sub_one_eq_mod _ 2
  have hshift : (r[10] >>> 7).toNat = r[10].toNat / 128 := Nat.shiftRight_eq_div_pow _ 7
  have hlow : r[10].toNat / 128 < 2 ^ 1 := by omega
  have hhigh : (r[9].toNat % 4) <<< 1 % 2 ^ 8 = (r[9].toNat % 4) <<< 1 := by
    rw [Nat.shiftLeft_eq]; omega
  rw [multiplierField_eq, multiplier, UInt8.toNat_or, UInt8.toNat_shiftLeft, hmask, hshift]
  simp only [UInt8.reduceToNat, Nat.reduceMod, hhigh]
  rw [← Nat.shiftLeft_add_eq_or_of_lt hlow, Nat.shiftLeft_eq, pow_one]
  rfl

/-- A power of two with an exponent `k` that fits is a shifted one. -/
theorem toNat_one_shiftLeft {k : UInt64} (hk : k.toNat < 64) :
    ((1 : UInt64) <<< k).toNat = 2 ^ k.toNat := by
  rw [UInt64.toNat_shiftLeft, Nat.mod_eq_of_lt hk, UInt64.toNat_one, Nat.one_shiftLeft,
    Nat.mod_eq_of_lt (Nat.pow_lt_pow_right (by decide) hk)]

/-- The blocks that are computed are all of the `blocks`. -/
theorem blocks_toNat :
    ((standardSize r + 1) * ((1 : UInt64) <<< (multiplier r + 2).toUInt64)).toNat = blocks r := by
  have hle := blocks_le r
  have hsize : standardSizeField r < 2 ^ 12 := Nat.mod_lt _ (by decide)
  have hmultiplier := multiplierField_lt r
  have hexponent : (multiplier r + 2).toUInt64.toNat = multiplierField r + 2 := by
    rw [UInt8.toNat_toUInt64, UInt8.toNat_add, multiplier_toNat]
    exact Nat.mod_eq_of_lt (by simp only [UInt8.reduceToNat]; omega)
  have hsucc : (standardSize r + 1).toNat = standardSizeField r + 1 := by
    rw [UInt64.toNat_add, standardSize_toNat]
    exact Nat.mod_eq_of_lt (by simp only [UInt64.toNat_one]; omega)
  rw [UInt64.toNat_mul, hsucc, toNat_one_shiftLeft (by omega), hexponent]
  exact Nat.mod_eq_of_lt (Nat.lt_of_le_of_lt hle (by decide))

/-- The length that is computed is the power of two of the `blockLengthField`. -/
theorem blockLength_toNat : (blockLength r).toNat = 2 ^ blockLengthField r := by
  have hlt := blockLengthField_lt r
  have hmask : (r[5] &&& 0x0f).toUInt64.toNat = blockLengthField r := by
    rw [blockLengthField_eq]
    exact Nat.and_two_pow_sub_one_eq_mod _ 4
  rw [blockLength, toNat_one_shiftLeft (by omega), hmask]

/-- Every register is read `Exact`ly. -/
theorem exact : Exact r where
  highCapacitySize := highCapacitySize_toNat r
  highCapacitySectors := by
    have hlt := highCapacitySizeField_lt r
    rw [highCapacitySectors, UInt64.toNat_mul, UInt64.toNat_add, highCapacitySize_toNat,
      UInt64.toNat_one, UInt32.toNat_toUInt64]
    simp only [highCapacityUnit, UInt32.reduceToNat]
    omega
  standardSize := standardSize_toNat r
  multiplier := multiplier_toNat r
  blocks := blocks_toNat r
  blockLength := blockLength_toNat r
  standardBytes := by
    rw [standardBytes, UInt64.toNat_mul, blocks_toNat, blockLength_toNat]
    exact Nat.mod_eq_of_lt (Nat.lt_of_le_of_lt (bytes_le r) (by decide))

/-- The capacity read off a register is the `described` one in whole sectors. -/
theorem wideSectors_toNat : (wideSectors r).toNat = described r / 512 := by
  have hversion : structureField r = 1 ↔ r[0] >>> 6 = 1 := by
    have hshift : (r[0] >>> 6).toNat = r.byte 0 / 64 := Nat.shiftRight_eq_div_pow _ 6
    rw [structureField_eq, ← hshift, ← UInt8.toNat_inj]
    rfl
  unfold wideSectors described
  simp only [hversion]
  split
  · rw [(exact r).highCapacitySectors]
    omega
  · rw [standardSectors, UInt64.toNat_div, (exact r).standardBytes]
    rfl

/-- In 32 bits it is that as well, but for the one that does not fit. -/
theorem sectors_toNat :
    (sectors r).toNat = if described r / 512 = 2 ^ 32 then 2 ^ 32 - 1 else described r / 512 := by
  have hle := described_le r
  have hwide := wideSectors_toNat r
  have hfits : wideSectors r ≤ 0xffffffff ↔ described r / 512 ≤ 0xffffffff := by
    rw [UInt64.le_iff_toNat_le, hwide]
    rfl
  unfold sectors
  split_ifs with h hmost hmost
  · rw [hfits] at h; omega
  · rw [UInt64.toNat_toUInt32, hwide]; omega
  · rfl
  · rw [hfits] at h; omega

/-! ### The register of a card -/

/-- How many sectors the capacity of a card is counted in, one of `highCapacity` or not. -/
def unit (highCapacity : Bool) : Nat := if highCapacity then 1024 else 512

/-- The most sectors that a standard card's register describes. -/
def standardLimit : Nat := 4096 * 512

/-- So many sectors `s` in whole units, as far as the register of the card goes. -/
def wholeUnits (s : UInt32) (highCapacity : Bool) : Nat :=
  max (unit highCapacity)
    (if highCapacity then s.toNat / unit highCapacity * unit highCapacity
    else min standardLimit (s.toNat / unit highCapacity * unit highCapacity))

/-- The `sizeField` is one less than the number of whole units in `sectors`. -/
theorem sizeField_toNat {sectors unit : UInt32} :
    (sizeField sectors unit).toNat = sectors.toNat / unit.toNat - 1 := by
  have hdiv : (sectors / unit).toNat = sectors.toNat / unit.toNat := UInt32.toNat_div _ _
  unfold sizeField
  split
  case isTrue h => rw [← hdiv, h]; rfl
  case isFalse h =>
    have hne : (sectors / unit).toNat ≠ 0 := fun h0 => h (UInt32.toNat_inj.1 h0)
    have hpos : (1 : UInt32) ≤ sectors / unit :=
      UInt32.le_iff_toNat_le.2 (Nat.one_le_iff_ne_zero.2 hne)
    rw [UInt32.toNat_sub_of_le _ _ hpos, hdiv]
    rfl

/-- The byte of the word `w` that begins at bit `k`. -/
theorem toNat_byte (w k : UInt32) :
    (w >>> k).toUInt8.toNat = w.toNat / 2 ^ (k.toNat % 32) % 2 ^ 8 := by
  rw [UInt32.toNat_toUInt8, UInt32.toNat_shiftRight, Nat.shiftRight_eq_div_pow]

/-- The lowest `k` bits of the word `w`, when there are no more of them than fit in a byte. -/
theorem toNat_low {w mask : UInt32} {k : Nat} (hmask : mask.toNat = 2 ^ k - 1) (hk : k ≤ 8) :
    (w &&& mask).toUInt8.toNat = w.toNat % 2 ^ k := by
  rw [UInt32.toNat_toUInt8, UInt32.toNat_and, hmask, Nat.and_two_pow_sub_one_eq_mod]
  exact Nat.mod_eq_of_lt ((Nat.mod_lt _ (by positivity)).trans_le
    (Nat.pow_le_pow_right (by decide) hk))

theorem toNat_shiftRight (w k : UInt32) : (w >>> k).toNat = w.toNat / 2 ^ (k.toNat % 32) := by
  rw [UInt32.toNat_shiftRight, Nat.shiftRight_eq_div_pow]

/-- The size field of a high capacity card with `s` sectors. -/
theorem highCapacitySize_of_card (s : UInt32) :
    (sizeField s highCapacityUnit).toNat = s.toNat / 1024 - 1 :=
  sizeField_toNat

/-- The register of a high capacity card with `s` sectors holds its size field. -/
theorem highCapacitySizeField_csd (s : UInt32) :
    highCapacitySizeField (csd s true) = s.toNat / 1024 - 1 := by
  have hlt := s.toNat_lt
  have hsize := highCapacitySize_of_card s
  have hhigh : (csd s true).byte 7 = (s.toNat / 1024 - 1) / 2 ^ 16 % 2 ^ 6 :=
    hsize ▸ (toNat_low rfl (by decide)).trans (congrArg (· % 2 ^ 6) (toNat_shiftRight _ 16))
  have hmiddle : (csd s true).byte 8 = (s.toNat / 1024 - 1) / 2 ^ 8 % 2 ^ 8 :=
    hsize ▸ toNat_byte _ 8
  have hlow : (csd s true).byte 9 = (s.toNat / 1024 - 1) % 2 ^ 8 :=
    hsize ▸ UInt32.toNat_toUInt8 _
  rw [highCapacitySizeField_eq, hhigh, hmiddle, hlow]
  omega

/-- The size field of a standard card with `s` sectors, which stops at the greatest of 12 bits. -/
theorem standardSize_of_card (s : UInt32) :
    (min standardMaxSize (sizeField s standardUnit)).toNat = min 0xfff (s.toNat / 512 - 1) := by
  have hsize : (sizeField s standardUnit).toNat = s.toNat / 512 - 1 := sizeField_toNat
  have hmax : standardMaxSize.toNat = 0xfff := rfl
  have hle : standardMaxSize ≤ sizeField s standardUnit ↔ 0xfff ≤ s.toNat / 512 - 1 := by
    rw [UInt32.le_iff_toNat_le, hsize, hmax]
  change (ite _ _ _ : UInt32).toNat = _
  split_ifs with h
  · rw [hmax, min_eq_left (hle.1 h)]
  · rw [hsize, min_eq_right (Nat.le_of_not_le fun hmost => h (hle.2 hmost))]

/-- The register of a standard card with `s` sectors holds its size field. -/
theorem standardSizeField_csd (s : UInt32) :
    standardSizeField (csd s false) = min 0xfff (s.toNat / 512 - 1) := by
  have hsize := standardSize_of_card s
  set size := min standardMaxSize (sizeField s standardUnit)
  have hfield {w : UInt32} : (w &&& 0x03).toUInt8.toNat = w.toNat % 4 :=
    toNat_low (k := 2) rfl (by decide)
  have hhigh : (csd s false).byte 6 % 4 = size.toNat / 2 ^ 10 % 4 := by
    have hbyte : (csd s false).byte 6 = 0x80 ||| ((size >>> 10) &&& 0x03).toUInt8.toNat := rfl
    have hshift : (size >>> 10).toNat = size.toNat / 2 ^ 10 := toNat_shiftRight _ _
    rw [hbyte, hfield, hshift, Nat.or_mod_two_pow (n := 2)]
    simp
  have hmiddle : (csd s false).byte 7 = size.toNat / 2 ^ 2 % 2 ^ 8 := toNat_byte _ 2
  have hlow : (csd s false).byte 8 / 64 = size.toNat % 4 := by
    have hbyte : (csd s false).byte 8 = 0x2d ||| ((size &&& 0x03).toUInt8 <<< 6).toNat := rfl
    have hshift : ((size &&& 0x03).toUInt8 <<< 6).toNat = 2 ^ 6 * (size.toNat % 4) := by
      have hexponent : (6 : UInt8).toNat % 8 = 6 := rfl
      rw [UInt8.toNat_shiftLeft, hfield, Nat.shiftLeft_eq, hexponent]
      omega
    rw [hbyte, hshift, Nat.or_comm, ← Nat.two_pow_add_eq_or_of_lt (by decide)]
    omega
  rw [standardSizeField_eq, hhigh, hmiddle, hlow, hsize]
  omega

/-- What the register of a card of `s` sectors describes. -/
theorem described_csd (s : UInt32) (highCapacity : Bool) :
    described (csd s highCapacity) / 512 =
      if highCapacity then (s.toNat / 1024 - 1 + 1) * 1024
      else (min 0xfff (s.toNat / 512 - 1) + 1) * 512 := by
  cases highCapacity with
  | true =>
    have hbyte : (csd s true).byte 0 = 0x40 := rfl
    have hversion : structureField (csd s true) = 1 := by rw [structureField_eq, hbyte]
    rw [described, if_pos hversion, highCapacitySizeField_csd, if_pos rfl]
    omega
  | false =>
    have hbyte₀ : (csd s false).byte 0 = 0x00 := rfl
    have hbyte₅ : (csd s false).byte 5 = 0x59 := rfl
    have hbyte₉ : (csd s false).byte 9 = 0xb7 := rfl
    have hbyte₁₀ : (csd s false).byte 10 = 0xff := rfl
    have hversion : structureField (csd s false) = 0 := by rw [structureField_eq, hbyte₀]
    have hmultiplier : multiplierField (csd s false) = 7 := by
      rw [multiplierField_eq, hbyte₉, hbyte₁₀]
    have hlength : blockLengthField (csd s false) = 9 := by rw [blockLengthField_eq, hbyte₅]
    rw [described, if_neg (by omega), blocks, hmultiplier, hlength, standardSizeField_csd]
    simp only [Bool.false_eq_true, if_false]
    omega

/-- The register of a card depends on its size field only (`csd`). -/
theorem csd_congr {s s' : UInt32} {highCapacity : Bool}
    (hhigh : highCapacity = true → s.toNat / 1024 - 1 = s'.toNat / 1024 - 1)
    (hstandard : highCapacity = false →
      min 0xfff (s.toNat / 512 - 1) = min 0xfff (s'.toNat / 512 - 1)) :
    csd s highCapacity = csd s' highCapacity := by
  cases highCapacity with
  | true =>
    have hsize : sizeField s highCapacityUnit = sizeField s' highCapacityUnit := by
      refine UInt32.toNat_inj.1 ?_
      rw [highCapacitySize_of_card, highCapacitySize_of_card, hhigh rfl]
    exact congrArg highCapacityRegister hsize
  | false =>
    have hsize : min standardMaxSize (sizeField s standardUnit) =
        min standardMaxSize (sizeField s' standardUnit) := by
      refine UInt32.toNat_inj.1 ?_
      rw [standardSize_of_card, standardSize_of_card, hstandard rfl]
    exact congrArg standardRegister hsize

/-- The size that is read off the register of a card with `s` sectors is one unit for each that the
size field counts. -/
theorem sectors_csd_toNat (s : UInt32) (highCapacity : Bool) :
    (sectors (csd s highCapacity)).toNat =
      if highCapacity then (s.toNat / 1024 - 1 + 1) * 1024
      else (min 0xfff (s.toNat / 512 - 1) + 1) * 512 := by
  have hlt := s.toNat_lt
  rw [sectors_toNat, described_csd, if_neg]
  split <;> omega

/-- The size that is read off a card's register is the card's own in `wholeUnits`. -/
theorem sectors_csd (s : UInt32) (highCapacity : Bool) :
    (sectors (csd s highCapacity)).toNat = wholeUnits s highCapacity := by
  rw [sectors_csd_toNat]
  cases highCapacity <;> simp [wholeUnits, unit, standardLimit] <;> omega

/-- A card of a `unit` or more is not said to be larger than it is, nor smaller by a whole unit. -/
theorem wholeUnits_le {s : UInt32} {highCapacity : Bool} (hunit : unit highCapacity ≤ s.toNat) :
    wholeUnits s highCapacity ≤ s.toNat ∧
      (s.toNat < wholeUnits s highCapacity + unit highCapacity ∨
        highCapacity = false ∧ wholeUnits s highCapacity = standardLimit) := by
  cases highCapacity <;> simp [wholeUnits, unit, standardLimit] at hunit ⊢ <;> omega

/-- A card of the size that `sectors` reads off a register has that register. -/
theorem csd_sectors_csd (s : UInt32) (highCapacity : Bool) :
    csd (sectors (csd s highCapacity)) highCapacity = csd s highCapacity := by
  have hread := sectors_csd_toNat s highCapacity
  refine csd_congr (fun h => ?_) fun h => ?_
  all_goals
    rw [hread, h]
    simp

/-- **Capacity of a card.**  The size that is read off a card's register, by `sectors`, is the
card's own in `wholeUnits`: one unit at least and, for a standard card, the `standardLimit` at most.
A card of a `unit` or more is thus never said to be larger than it is, nor smaller by a whole unit,
unless it is beyond the limit.  And a card of the size that is read has the same register.  Any
sixteen bytes `r` are read `Exact`ly: no result on the way is too large for 64 bits, and the size is
the `described` capacity in whole sectors, but for the one that does not fit in 32 bits. -/
theorem capacity_described :
    (∀ (s : UInt32) (highCapacity : Bool),
      (sectors (csd s highCapacity)).toNat = wholeUnits s highCapacity ∧
      (unit highCapacity ≤ s.toNat →
        sectors (csd s highCapacity) ≤ s ∧
        (s.toNat < (sectors (csd s highCapacity)).toNat + unit highCapacity ∨
          highCapacity = false ∧ (sectors (csd s highCapacity)).toNat = standardLimit)) ∧
      csd (sectors (csd s highCapacity)) highCapacity = csd s highCapacity) ∧
    ∀ r : Register, Exact r ∧ (wideSectors r).toNat = described r / 512 ∧
      (sectors r).toNat =
        if described r / 512 = 2 ^ 32 then 2 ^ 32 - 1 else described r / 512 := by
  refine ⟨fun s highCapacity => ⟨sectors_csd s highCapacity, fun hunit => ?_,
    csd_sectors_csd s highCapacity⟩, fun r => ⟨exact r, wideSectors_toNat r, sectors_toNat r⟩⟩
  rw [UInt32.le_iff_toNat_le, sectors_csd]
  exact wholeUnits_le hunit

/-- A standard card of four gibibytes is described as far as its register (`csd`) goes. -/
theorem capacity_described_beyondLimit :
    unit false ≤ (0x800000 : UInt32).toNat ∧ sectors (csd 0x800000 false) ≤ 0x800000 ∧
      (sectors (csd 0x800000 false)).toNat = 4096 * 512 := by
  obtain ⟨hread, hle, -⟩ := capacity_described.1 0x800000 false
  have hunit : unit false ≤ (0x800000 : UInt32).toNat := by decide
  have hwhole : wholeUnits 0x800000 false = 4096 * 512 := by decide
  exact ⟨hunit, (hle hunit).1, hread.trans hwhole⟩

end Csd

end IoController.Disk
