import IoController.Board.Hardware
import IoController.Disk.Source
import IoController.Text

/-!
# Board — Volume

The SD card as a medium, and the files of its FAT volume as disk images.
-/

namespace IoController.Board

/-! ### The medium -/

/-- Looks at the card.  Without one the medium has no `sectors`. -/
def findMedium : Procedure Disk.Medium := do
  let bytes ← ask .cardBytes
  let kind ← ask .cardKind
  let sectors := bytes.elim 0 fun n =>
    UInt32.ofNat (min 0xffffffff (n.toNat / Disk.sectorSize))
  pure { sectors, highCapacity := kind == some .sdhc }

/-- Reads and writes the sectors of the card.  Nothing is asked of an empty `medium`. -/
def serveMedium (medium : Disk.Medium) :
    (r : Disk.MediumRequest) → Procedure (Disk.MediumReply r)
  | .read lba =>
    if medium.sectors = 0 then pure (.error .noMedium)
    else do
      let block ← ask (.readBlock lba)
      pure (block.elim (.error .io) .ok)
  | .write lba data =>
    if medium.sectors = 0 then pure (.error .noMedium)
    else do
      let written ← ask (.writeBlock lba data)
      pure (if written then .ok () else .error .io)

/-! ### Files -/

/-- Opens the root directory of the first volume.  The result says whether there is one. -/
def openRoot : Procedure Bool := do
  if ← ask .openVolume then ask .openRoot else pure false

/-- The most UTF-8 bytes of a file's `volumeName?`, with its dot. -/
def maxVolumeName : Nat := 12

/-- The `name` of a file as the volume takes it: eight and three characters without the spaces after
them, and a dot between. -/
def volumeName? (name : String) : Option String :=
  match Text.cut? 8 name.toList with
  | none => none
  | some (base, ext) =>
    let dotted := Text.trimRight base ++ '.' :: Text.trimRight ext
    if Text.byteSize dotted ≤ maxVolumeName then some (String.ofList dotted) else none

/-- Opens the file `name`, if a volume is `mounted`.  A file whose length cannot be told counts as
empty. -/
def openImage (mounted : Bool) (name : String) : Procedure (Option Disk.Image) :=
  match if mounted then volumeName? name else none with
  | none => pure none
  | some dotted => do
    match ← ask (.openFile dotted) with
    | none => pure none
    | some file =>
      let length ← ask (.fileLength file)
      pure (some { file, length := (length.getD 0).toUInt64 })

/-- Moves to the sector `lba` of a file.  An offset beyond 32 bits is out of bounds. -/
def seekSector (file : Disk.File) (lba : UInt32) : Procedure (Except Disk.Error Unit) :=
  let offset := lba.toNat * Disk.sectorSize
  if 0xffffffff < offset then pure (.error .outOfBounds)
  else do
    let moved ← ask (.seekFile file (UInt32.ofNat offset))
    pure (if moved then .ok () else .error .outOfBounds)

/-- Opens, reads and writes the files of the volume.  No `index` is needed. -/
def serveFile (mounted : Bool) : (r : Disk.FileRequest) → Procedure (Disk.FileReply r)
  | .openFile name => openImage mounted name
  | .index _ => pure (.ok ())
  | .seek file lba => seekSector file lba
  | .read file => do
    let bytes ← ask (.readFileBlock file)
    pure (bytes.elim (.error .io) fun bs => .ok (.ofBytes bs))
  | .write file data => do
    let written ← ask (.writeFileBlock file data)
    pure (if written then .ok () else .error .io)
  | .close file => do
    let _ ← ask (.closeFile file)
    pure ()

/-- When a file was made, as the volume records it. -/
structure FileTime where
  yearsSince1970 : Nat
  /-- The month, counted from zero. -/
  month : Nat
  /-- The day, counted from zero. -/
  day : Nat
  hours : Nat
  minutes : Nat
  seconds : Nat

/-- The board has no clock that knows the date, so every file is of the first day of 2025. -/
def fileTime : FileTime := ⟨55, 0, 0, 0, 0, 0⟩

end IoController.Board
