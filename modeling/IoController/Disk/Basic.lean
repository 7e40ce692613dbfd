import IoController.Bits

/-!
# Disk — Basic

Sectors, what can go wrong with them, the physical medium, and image files.  The medium's size
and an image's length are known beforehand; everything else is asked of the surroundings.
-/

namespace IoController.Disk

/-- How many bytes a sector has. -/
def sectorSize : Nat := 512

/-- The contents of one sector. -/
abbrev Sector := Vector UInt8 sectorSize

/-- The sector that begins with the bytes `bs` and has zeros after them. -/
def Sector.ofBytes (bs : Bytes) : Sector :=
  let contents := bs.toArray
  .ofFn fun i => contents.getD i 0

/-- Why a sector could not be read or written. -/
inductive Error where
  /-- The medium failed. -/
  | io
  | outOfBounds
  | invalidDrive
  | noMedium
  deriving DecidableEq

/-- The physical medium, an SD card. -/
structure Medium where
  /-- How many sectors it has; zero if that is not known. -/
  sectors : UInt32
  /-- Whether the card is addressed by sectors. -/
  highCapacity : Bool

/-- Whether the medium has the sector `lba`.  A medium of unknown size is taken to have it. -/
def Medium.contains (m : Medium) (lba : UInt32) : Bool := m.sectors == 0 || lba < m.sectors

/-- An open file.  Files are told apart by an `index` that the surroundings choose. -/
structure File where
  index : Nat
  deriving DecidableEq

/-- A `file` that can be mounted as a disk, with its `length` in bytes. -/
structure Image where
  file : File
  length : UInt64

namespace Image

/-- How many sectors the image `i` has, a last one that is not full included.  Counts that do not
fit 32 bits stop at the greatest number. -/
def sectorCount (i : Image) : UInt32 :=
  UInt32.ofNat (min 0xffffffff ((i.length.toNat + (sectorSize - 1)) / sectorSize))

/-- Whether the image has the sector `lba`. -/
def contains (i : Image) (lba : UInt32) : Bool := lba < i.sectorCount

end Image

end IoController.Disk
