/-!
# Bits

Words as bytes in either order, bytes as signed numbers, and sets of named flags that travel as one
byte.  A set keeps every bit it is given, also those no flag is named for, because the byte is
passed on as it came.
-/

namespace IoController

/-! ### Bytes -/

/-- Bytes in the order in which they are sent. -/
abbrev Bytes := List UInt8

namespace Bytes

/-- The four bytes of `w`, lowest first. -/
def littleEndian (w : UInt32) : Bytes :=
  [w.toUInt8, (w >>> 8).toUInt8, (w >>> 16).toUInt8, (w >>> 24).toUInt8]

/-- The word whose bytes are `bs`, lowest first. -/
def ofLittleEndian (bs : Bytes) : UInt32 :=
  bs.foldr (fun b w => b.toUInt32 ||| (w <<< 8)) 0

/-- The word whose bytes are `bs`, highest first. -/
def ofBigEndian (bs : Bytes) : UInt32 :=
  bs.foldl (fun w b => (w <<< 8) ||| b.toUInt32) 0

/-- The low byte of `n` in two's complement. -/
def low (n : Int) : UInt8 := UInt8.ofInt n

end Bytes

/-! ### Flags -/

/-- The names `κ` of a set's flags, each with the bits `mask` that it stands for. -/
class Flag (κ : Type) where
  mask : κ → UInt8

/-- A set of the flags named by `κ`, held as a byte. -/
structure Flags (κ : Type) where
  bits : UInt8
  deriving DecidableEq

namespace Flags

variable {κ : Type}

instance : EmptyCollection (Flags κ) := ⟨⟨0⟩⟩

instance : Inhabited (Flags κ) := ⟨∅⟩

instance : Union (Flags κ) := ⟨fun s t => ⟨s.bits ||| t.bits⟩⟩

instance : Inter (Flags κ) := ⟨fun s t => ⟨s.bits &&& t.bits⟩⟩

instance : SDiff (Flags κ) := ⟨fun s t => ⟨s.bits &&& ~~~t.bits⟩⟩

/-- Every flag of `s` is in `t`. -/
instance : HasSubset (Flags κ) := ⟨fun s t => s.bits &&& t.bits = s.bits⟩

@[simp] theorem bits_empty : (∅ : Flags κ).bits = 0 := rfl

@[simp] theorem bits_union (s t : Flags κ) : (s ∪ t).bits = s.bits ||| t.bits := rfl

@[simp] theorem bits_inter (s t : Flags κ) : (s ∩ t).bits = s.bits &&& t.bits := rfl

@[simp] theorem bits_sdiff (s t : Flags κ) : (s \ t).bits = s.bits &&& ~~~t.bits := rfl

/-- Whether no bit of `s` is set. -/
def isEmpty (s : Flags κ) : Bool := s.bits == 0

/-- Whether `s` and `t` have a bit in common. -/
def meets (s t : Flags κ) : Bool := s.bits &&& t.bits != 0

/-- Adds the flags of `t` to `s`, or takes them away. -/
def put (s t : Flags κ) (on : Bool) : Flags κ := if on then s ∪ t else s \ t

variable [Flag κ]

/-- The set of the one flag `k`. -/
def single (k : κ) : Flags κ := ⟨Flag.mask k⟩

/-- The set of the flags in `ks`. -/
def ofList (ks : List κ) : Flags κ := ks.foldl (fun s k => s ∪ single k) ∅

/-- Whether all bits of `k` are in `s`. -/
def has (s : Flags κ) (k : κ) : Bool := s.bits &&& Flag.mask k == Flag.mask k

end Flags

end IoController
