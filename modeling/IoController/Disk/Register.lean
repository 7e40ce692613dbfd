import IoController.Disk.Basic

/-!
# Disk — Register

The identification registers of the SD card, as the core is told them.  They are made up from
what is known of the card: its size, and whether it is addressed by sectors.
-/

namespace IoController.Disk

/-- A register of an SD card. -/
abbrev Register := Vector UInt8 16

/-- The register that identifies the card: a product name, revision 1.0, made in January 2000. -/
def cid : Register :=
  #v[0, 0, 0, 0x55, 0x53, 0x52, 0x49, 0x4f, 0x10, 0, 0, 0, 0, 0, 0x01, 0x01]

namespace Csd

/-- A high capacity card counts its capacity in units of this many sectors. -/
def highCapacityUnit : UInt32 := 1024

/-- A standard card, as described here, counts its capacity in units of this many sectors. -/
def standardUnit : UInt32 := 512

/-- The greatest size that a standard card's register can hold. -/
def standardMaxSize : UInt32 := 0xfff

/-- The size field for so many `sectors`: one less than the number of whole units, and never below
zero. -/
def sizeField (sectors unit : UInt32) : UInt32 :=
  if sectors / unit = 0 then 0 else sectors / unit - 1

/-- The register of version 2 with a `size` of 22 bits. -/
def highCapacityRegister (size : UInt32) : Register :=
  #v[0x40, 0x0e, 0x00, 0x32, 0x5b, 0x59, 0x00,
    ((size >>> 16) &&& 0x3f).toUInt8, (size >>> 8).toUInt8, size.toUInt8,
    0x7f, 0x80, 0x0a, 0x40, 0x00, 0x01]

/-- The register of version 1 with a `size` of 12 bits. -/
def standardRegister (size : UInt32) : Register :=
  #v[0x00, 0x26, 0x00, 0x32, 0x5f, 0x59,
    (0x80 : UInt8) ||| ((size >>> 10) &&& 0x03).toUInt8, (size >>> 2).toUInt8,
    (0x2d : UInt8) ||| ((size &&& 0x03).toUInt8 <<< 6),
    0xb7, 0xff, 0x80, 0x0a, 0x40, 0x00, 0x01]

end Csd

/-- The register that describes a card of so many `sectors`, in version 2 exactly if it is of
`highCapacity`. -/
def csd (sectors : UInt32) (highCapacity : Bool) : Register :=
  if highCapacity then
    Csd.highCapacityRegister (Csd.sizeField sectors Csd.highCapacityUnit)
  else
    Csd.standardRegister (min Csd.standardMaxSize (Csd.sizeField sectors Csd.standardUnit))

namespace Csd

/-- The size field of version 2 in the register `r`, which lies in three bytes. -/
def highCapacitySize (r : Register) : UInt64 :=
  (r[7].toUInt64 &&& 0x3f) <<< 16 ||| r[8].toUInt64 <<< 8 ||| r[9].toUInt64

/-- The capacity in sectors that the register `r` of version 2 describes. -/
def highCapacitySectors (r : Register) : UInt64 :=
  (highCapacitySize r + 1) * highCapacityUnit.toUInt64

/-- The size field of version 1 in the register `r`, which begins and ends inside a byte. -/
def standardSize (r : Register) : UInt64 :=
  (r[6].toUInt64 &&& 0x03) <<< 10 ||| r[7].toUInt64 <<< 2 ||| r[8].toUInt64 >>> 6

/-- The size multiplier of version 1 in the register `r`, an exponent. -/
def multiplier (r : Register) : UInt8 :=
  (r[9] &&& 0x03) <<< 1 ||| r[10] >>> 7

/-- The length in bytes of a block by a register `r` of version 1. -/
def blockLength (r : Register) : UInt64 :=
  (1 : UInt64) <<< (r[5] &&& 0x0f).toUInt64

/-- The capacity in bytes that the register `r` of version 1 describes. -/
def standardBytes (r : Register) : UInt64 :=
  (standardSize r + 1) * ((1 : UInt64) <<< (multiplier r + 2).toUInt64) * blockLength r

/-- The capacity in sectors that the register `r` of version 1 describes. -/
def standardSectors (r : Register) : UInt64 :=
  standardBytes r / 512

/-- The capacity in sectors that the register `r` describes, before it is made to fit 32 bits. -/
def wideSectors (r : Register) : UInt64 :=
  if r[0] >>> 6 = 1 then highCapacitySectors r else standardSectors r

/-- The capacity in sectors that the register `r` describes, which stops at the greatest 32-bit
number. -/
def sectors (r : Register) : UInt32 :=
  if wideSectors r ≤ 0xffffffff then (wideSectors r).toUInt32 else 0xffffffff

end Csd

end IoController.Disk
