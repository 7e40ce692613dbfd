import IoController.Device
import IoController.Disk.Register
import IoController.Disk.Request

/-!
# Link — Command

The commands of the FPGA's channels.  A command is a frame: the channel is selected, bytes are
exchanged, and the channel is released.  Every frame is made by `framed`, so none is left open.
-/

namespace IoController.Link

/-! ### Command bytes -/

namespace Opcode

/-- The panel's buttons and switches. -/
def buttons : UInt8 := 0x01
/-- The state of joystick 0; that of joystick 1 is numbered after it. -/
def joystick0 : UInt8 := 0x02
/-- A mouse packet. -/
def mouse : UInt8 := 0x04
/-- A key. -/
def keyboard : UInt8 := 0x05
/-- A key for the OSD. -/
def osdKeyboard : UInt8 := 0x06

/-- The Atari ST core takes the bytes of its keyboard link where others take joystick 0. -/
def ikbd : UInt8 := joystick0

/-- The state of joystick 2; those of the others are numbered after it. -/
def joystick2 : UInt8 := 0x10
/-- The core's config string is read. -/
def configString : UInt8 := 0x14
/-- The first byte of the status word. -/
def setStatus : UInt8 := 0x15
/-- The core's SD card request is read. -/
def sdStatus : UInt8 := 0x16
/-- A sector that the core has asked for. -/
def sendSector : UInt8 := 0x17
/-- A sector is read that the core wants written. -/
def receiveSector : UInt8 := 0x18
/-- How the SD card identifies itself. -/
def cardConfig : UInt8 := 0x19
/-- A joystick's analog position. -/
def analogJoystick : UInt8 := 0x1a
/-- Another image is in a drive. -/
def diskChanged : UInt8 := 0x1c
/-- The size of an image. -/
def diskSize : UInt8 := 0x1d
/-- The status word. -/
def setStatusWord : UInt8 := 0x1e
/-- The LEDs that the core wants lit are read. -/
def ledStatus : UInt8 := 0x1f
/-- The wide state of joystick 0; those of the others are numbered after it. -/
def joystickExtended : UInt8 := 0x60

/-! Those of the data channel. -/

/-- A file's contents begin or end. -/
def fileTransfer : UInt8 := 0x53
/-- A part of a file's contents. -/
def fileData : UInt8 := 0x54
/-- The slot that a file is for. -/
def fileIndex : UInt8 := 0x55
/-- A file's directory entry. -/
def fileInfo : UInt8 := 0x56

end Opcode

/-! ### Frames -/

/-- Does `body` with `target` selected. -/
def framed {α : Type} (target : Target) (body : Action α) : Action α := do
  select target
  let a ← body
  deselect
  pure a

/-- Sends bytes and does not look at what comes back. -/
def send : Bytes → Action Unit
  | [] => pure ()
  | b :: bs => do
    let _ ← transfer b
    send bs

/-- Reads a byte. -/
def receive : Action UInt8 := transfer 0x00

/-- Reads `n` bytes. -/
def receiveBytes : (n : Nat) → Action (Vector UInt8 n)
  | 0 => pure #v[]
  | n + 1 => do
    let first ← receiveBytes n
    let last ← receive
    pure (first.push last)

/-- Sends `bytes` to `target`. -/
def frame (target : Target) (bytes : Bytes) : Action Unit := framed target (send bytes)

/-- Sends the command `opcode` with its `payload`. -/
def command (opcode : UInt8) (payload : Bytes) : Action Unit := frame .io (opcode :: payload)

/-- Sends the command `opcode` and reads what `reply` reads. -/
def query {α : Type} (opcode : UInt8) (reply : Action α) : Action α :=
  framed .io do
    let _ ← transfer opcode
    reply

/-! ### Commands -/

/-- Reads the core's identification byte. -/
def identify : Action UInt8 := framed .io (transfer 0xff)

/-- Reads the identification byte of a core that runs.  The first Minimig core needs one more
clock after it is released. -/
def pollIdentity : Action UInt8 := do
  let id ← identify
  let _ ← transfer 0xff
  pure id

/-- Reads what the core asks of its SD card.  Only the newer protocol names the drive. -/
def sdStatus : Action Disk.Request :=
  query Opcode.sdStatus do
    let status ← receive
    let drive ← if status &&& 0xf0 == 0x60 then (· &&& 0x01) <$> receive else pure 0
    let lba ← receiveBytes 4
    pure ⟨status, drive, Bytes.ofBigEndian lba.toList⟩

/-- Reads which LEDs the core wants lit. -/
def ledStatus : Action UInt8 := query Opcode.ledStatus receive

/-- Tells the core how the SD card identifies itself: both registers, and whether it has
`highCapacity`. -/
def sendCardConfig (cid csd : Disk.Register) (highCapacity : Bool) : Action Unit :=
  command Opcode.cardConfig
    (cid.toList ++ csd.toList ++ [if highCapacity then 0x01 else 0x00])

/-- Sends the `status` word.  Older cores read only the first byte, which has a command of its own.
-/
def sendStatus (status : UInt32) : Action Unit := do
  command Opcode.setStatus [status.toUInt8]
  command Opcode.setStatusWord (Bytes.littleEndian status)

/-- Sends the sector `data` that the core has asked for. -/
def sendSector (data : Disk.Sector) : Action Unit := command Opcode.sendSector data.toList

/-- Reads a sector that the core wants written. -/
def receiveSector : Action Disk.Sector :=
  query Opcode.receiveSector (receiveBytes Disk.sectorSize)

/-- Tells the core the `size` of the image in `drive`. -/
def announceDisk (drive : UInt8) (size : UInt32) : Action Unit := do
  command Opcode.diskSize (Bytes.littleEndian size ++ List.replicate 12 0)
  command Opcode.diskChanged [drive]

end IoController.Link
