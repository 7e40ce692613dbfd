import IoController.Device

/-!
# Disk — Source

Reading and writing sectors: those of an open file, and those of whatever backs a drive, the medium
or an image that is mounted.
-/

namespace IoController.Disk

namespace Image

/-- Prepares fast access to the sectors of the image `i`. -/
def buildIndex (i : Image) : Action (Except Error Unit) := fileRequest (.index i.file)

/-- Moves to the sector `lba` of the file. -/
def seek (i : Image) (lba : UInt32) : Action (Except Error Unit) :=
  fileRequest (.seek i.file lba)

/-- Reads the sector that the file of the image `i` is at, and moves on. -/
def readNext (i : Image) : Action (Except Error Sector) := fileRequest (.read i.file)

/-- Writes `data` to the sector that the file is at, and moves on. -/
def writeNext (i : Image) (data : Sector) : Action (Except Error Unit) :=
  fileRequest (.write i.file data)

/-- Closes the file of the image `i`. -/
def close (i : Image) : Action Unit := fileRequest (.close i.file)

/-- Reads the sector `lba`: `seek`, then `readNext`. -/
def read (i : Image) (lba : UInt32) : Action (Except Error Sector) := do
  match ← i.seek lba with
  | .error e => pure (.error e)
  | .ok () => i.readNext

/-- Writes `data` to the sector `lba`: `seek`, then `writeNext`. -/
def write (i : Image) (lba : UInt32) (data : Sector) : Action (Except Error Unit) := do
  match ← i.seek lba with
  | .error e => pure (.error e)
  | .ok () => i.writeNext data

end Image

/-- What backs a drive: the medium itself, or an `image` that was mounted. -/
inductive Source where
  | medium
  | image (image : Image)

namespace Source

/-- Whether an image was mounted. -/
def isMounted : Source → Bool
  | medium => false
  | image _ => true

/-- Reads the sector `lba` of the medium or of the image. -/
def read (s : Source) (lba : UInt32) : Action (Except Error Sector) :=
  match s with
  | medium => mediumRequest (.read lba)
  | image i => i.read lba

/-- Writes `data` to the sector `lba` of the medium or of the image. -/
def write (s : Source) (lba : UInt32) (data : Sector) : Action (Except Error Unit) :=
  match s with
  | medium => mediumRequest (.write lba data)
  | image i => i.write lba data

/-- Closes the image, if one is mounted. -/
def close : Source → Action Unit
  | medium => pure ()
  | image i => i.close

end Source

end IoController.Disk
