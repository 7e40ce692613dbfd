import IoController.Disk.Source
import IoController.Link.Command

/-!
# Link — Upload

Loading a whole file into the core over the data channel: the slot it is for, a directory entry
with its extension and size, a start marker, the contents sector by sector, and an end marker.
-/

namespace IoController.Link.Upload

/-- The extension of a directory entry: the first three characters of `ext` in capitals, padded with
spaces. -/
def extension (ext : String) : Bytes :=
  let capital := fun (b : UInt8) => if 0x61 ≤ b && b ≤ 0x7a then b - 0x20 else b
  ((ext.toUTF8.toList.map capital) ++ [0x20, 0x20, 0x20]).take 3

/-- The directory entry of a file.  It has no name, and nothing but the extension and the `size`. -/
def directoryEntry (ext : String) (size : UInt32) : Bytes :=
  List.replicate 8 0 ++ extension ext ++ List.replicate 17 0 ++ Bytes.littleEndian size

/-- Tells the core which slot, `index`, the file is for. -/
def sendIndex (index : UInt8) : Action Unit := frame .fpga [Opcode.fileIndex, index]

/-- Tells the core that the contents begin. -/
def start : Action Unit := frame .fpga [Opcode.fileTransfer, 0xff]

/-- Tells the core that the contents have ended. -/
def finish : Action Unit := frame .fpga [Opcode.fileTransfer, 0x00]

/-- Sends the part `bytes` of the contents. -/
def sendData (bytes : Bytes) : Action Unit := frame .fpga (Opcode.fileData :: bytes)

/-- Sends `full` whole sectors and then `rest` bytes of one more.  A sector that cannot be read is
the last thing tried. -/
def sendContents (image : Disk.Image) : (full rest : Nat) → Action (Except Disk.Error Unit)
  | 0, rest =>
    if rest = 0 then pure (.ok ())
    else do
      match ← image.readNext with
      | .error e => pure (.error e)
      | .ok sector => do
        sendData (sector.toList.take rest)
        pure (.ok ())
  | full + 1, rest => do
    match ← image.readNext with
    | .error e => pure (.error e)
    | .ok sector => do
      sendData sector.toList
      sendContents image full rest

/-- Loads a file into the slot `index` of the core.  A file that is too long is not begun. -/
def upload (image : Disk.Image) (index : UInt8) (ext : String) :
    Action (Except Disk.Error Unit) :=
  let size := image.length.toNat
  if 0xffffffff < size then pure (.error .outOfBounds)
  else do
    sendIndex index
    frame .fpga (Opcode.fileInfo :: directoryEntry ext (UInt32.ofNat size))
    start
    match ← image.seek 0 with
    | .error e => pure (.error e)
    | .ok () => do
      let result ← sendContents image (size / Disk.sectorSize) (size % Disk.sectorSize)
      finish
      pure result

end IoController.Link.Upload
