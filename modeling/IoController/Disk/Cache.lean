import IoController.Disk.Source

/-!
# Disk — Cache

One cached sector in front of the medium and the mounted images.  Cores mostly read sectors in
order, so after a read the next sector is loaded ahead of being asked for.  The sector is known
by its drive and number.  A write goes to what backs the drive, and drops the cached sector.
-/

namespace IoController.Disk

/-- How many drives the virtual card has. -/
def driveCount : Nat := 2

/-- A cached sector: the drive, the sector's number `lba`, and what it holds. -/
structure Entry where
  drive : UInt8
  lba : UInt32
  data : Sector

/-- How well the cache does. -/
structure CacheStats where
  hits : UInt32 := 0
  /-- Reads that had to be loaded. -/
  misses : UInt32 := 0
  readAheads : UInt32 := 0
  deriving DecidableEq

/-- The medium, what backs each of the `drives`, and the cached sector. -/
structure Cache where
  medium : Medium
  drives : Vector Source driveCount := .replicate driveCount .medium
  entry : Option Entry := none
  stats : CacheStats := {}

namespace Cache

/-- A sector number that is never cached, because on a card it stands for no sector. -/
def reservedLba : UInt32 := 0xffffffff

/-- What backs `drive`, if the drive exists. -/
def source? (c : Cache) (drive : UInt8) : Option Source := c.drives[drive.toNat]?

/-- The drive and the number of the sector cached in `c`. -/
def cached (c : Cache) : Option (UInt8 × UInt32) := c.entry.map fun e => (e.drive, e.lba)

/-- The cache `c` with no sector in it. -/
def invalidate (c : Cache) : Cache := { c with entry := none }

/-- Puts `s` behind `drive`. -/
def back (c : Cache) (drive : UInt8) (s : Source) : Cache :=
  { c with drives := c.drives.setIfInBounds drive.toNat s }

/-- Whether what backs a drive, `s`, has the sector `lba`. -/
def covers (c : Cache) (s : Source) (lba : UInt32) : Bool :=
  match s with
  | .medium => c.medium.contains lba
  | .image i => i.contains lba

/-- Mounts `image` in place of what was behind `drive`.  An image that is not mounted is closed. -/
def mount (c : Cache) (drive : UInt8) (image : Image) : Action (Except Error Unit × Cache) := do
  match c.source? drive with
  | none =>
    image.close
    pure (.error .invalidDrive, c)
  | some old =>
    match ← image.buildIndex with
    | .error e =>
      image.close
      pure (.error e, c)
    | .ok () =>
      old.close
      pure (.ok (), (c.back drive (.image image)).invalidate)

/-- Takes the image out of `drive` and returns it.  The medium itself is behind the drive again. -/
def unmount (c : Cache) (drive : UInt8) : Except Error (Option Image × Cache) :=
  match c.source? drive with
  | none => .error .invalidDrive
  | some old =>
    let image := match old with
      | .medium => none
      | .image i => some i
    .ok (image, (c.back drive .medium).invalidate)

/-- Keeps a sector that was loaded.  The `reservedLba` is not kept, and neither is what was there
before. -/
def keep (c : Cache) (drive : UInt8) (lba : UInt32) (data : Sector) : Cache :=
  { c with entry := if lba = reservedLba then none else some ⟨drive, lba, data⟩ }

/-- Loads the sector `lba` from `s`.  If that fails nothing is cached any more. -/
def load (c : Cache) (s : Source) (drive : UInt8) (lba : UInt32) :
    Action (Except Error Sector × Cache) := do
  match ← s.read lba with
  | .error e => pure (.error e, c.invalidate)
  | .ok data => pure (.ok data, c.keep drive lba data)

/-- The cached sector, if it is the one asked for, sector `lba` of the `drive`. -/
def find? (c : Cache) (drive : UInt8) (lba : UInt32) : Option Sector :=
  match c.entry with
  | some e => if e.drive = drive ∧ e.lba = lba then some e.data else none
  | none => none

/-- The sector `lba` of `drive`, from the cache or loaded into it.  A sector that does not exist
leaves the cache alone. -/
def read (c : Cache) (drive : UInt8) (lba : UInt32) : Action (Except Error Sector × Cache) :=
  match c.source? drive with
  | none => pure (.error .invalidDrive, c)
  | some s =>
    if c.covers s lba then
      match c.find? drive lba with
      | some data => pure (.ok data, { c with stats.hits := c.stats.hits + 1 })
      | none => { c with stats.misses := c.stats.misses + 1 }.load s drive lba
    else pure (.error .outOfBounds, c)

/-- Loads the sector after `lba`, if there is one, and says whether it did. -/
def readAhead (c : Cache) (drive : UInt8) (lba : UInt32) : Action (Bool × Cache) := do
  match c.source? drive with
  | none => pure (false, c)
  | some s =>
    if lba = reservedLba then pure (false, c)
    else if c.covers s (lba + 1) then
      match ← c.load s drive (lba + 1) with
      | (.error _, c) => pure (false, c)
      | (.ok _, c) => pure (true, { c with stats.readAheads := c.stats.readAheads + 1 })
    else pure (false, c)

/-- Whether a write to the sector `lba` of `drive` leaves the cached one, `e`, as it is. -/
def survivesWrite (e : Entry) (drive : UInt8) (lba : UInt32) : Bool :=
  e.drive == drive && e.lba != lba

/-- Writes `data` to the sector `lba` of `drive`.  An image takes only the sectors that it has; the
medium itself decides. -/
def write (c : Cache) (drive : UInt8) (lba : UInt32) (data : Sector) :
    Action (Except Error Unit × Cache) := do
  let c := { c with entry := c.entry.filter (survivesWrite · drive lba) }
  match c.source? drive with
  | none => pure (.error .invalidDrive, c)
  | some (.image i) =>
    if i.contains lba then
      let result ← i.write lba data
      pure (result, c)
    else pure (.error .outOfBounds, c)
  | some .medium =>
    let result ← mediumRequest (.write lba data)
    pure (result, c)

end Cache

end IoController.Disk
