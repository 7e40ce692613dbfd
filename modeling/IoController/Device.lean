import IoController.Disk.Basic
import IoController.Joystick.State
import IoController.Keyboard.Leds
import IoController.Panel.Buttons
import IoController.Program.Basic

/-!
# Device

The surroundings of the controller: the serial link to the FPGA, the medium, the files on it, and
the services around them (LEDs, OSD, error messages, joystick ports and the front panel).  An
`Action` is a program over them.
-/

namespace IoController

/-- The channels of the FPGA, each with a chip select. -/
inductive Link.Target where
  /-- Commands: input, status and storage. -/
  | io
  /-- Data: files that are loaded into the core. -/
  | fpga
  | osd
  deriving DecidableEq

/-- What the link does.  It works both ways at once: every `byte` sent clocks one back. -/
inductive Link.Request where
  | select (target : Link.Target)
  | deselect
  | transfer (byte : UInt8)

/-- What the link answers: the byte that came back. -/
abbrev Link.Reply : Link.Request → Type
  | .select _ | .deselect => Unit
  | .transfer _ => UInt8

/-- What is asked of the medium. -/
inductive Disk.MediumRequest where
  | read (lba : UInt32)
  | write (lba : UInt32) (data : Disk.Sector)

/-- What the medium answers. -/
abbrev Disk.MediumReply : Disk.MediumRequest → Type
  | .read _ => Except Disk.Error Disk.Sector
  | .write _ _ => Except Disk.Error Unit

/-- What is asked of the `file` system. -/
inductive Disk.FileRequest where
  /-- Opens a file of the root directory, named by eight and three characters without a dot. -/
  | openFile (name : String)
  /-- Prepares fast access to the file's sectors. -/
  | index (file : Disk.File)
  | seek (file : Disk.File) (lba : UInt32)
  /-- Reads the sector at the file's position and moves on.  What the file lacks is zero. -/
  | read (file : Disk.File)
  /-- Writes the sector at the file's position and moves on. -/
  | write (file : Disk.File) (data : Disk.Sector)
  | close (file : Disk.File)

/-- What the file system answers. -/
abbrev Disk.FileReply : Disk.FileRequest → Type
  | .openFile _ => Option Disk.Image
  | .index _ | .seek _ _ | .write _ _ => Except Disk.Error Unit
  | .read _ => Except Disk.Error Disk.Sector
  | .close _ => Unit

/-- What is asked of the services around the controller. -/
inductive Host.Request where
  | setLeds (locks : Keyboard.Locks) (on : Bool)
  /-- Hands a key to the OSD. -/
  | osdKey (code : UInt8)
  /-- Tells the OSD that it was opened or closed. -/
  | osdVisible (visible : Bool)
  | osdReset
  | showError (message : String)
  | diskActivity (active : Bool)
  | readDb9 (port : Nat)
  | readPanel

/-- What the services answer. -/
abbrev Host.Reply : Host.Request → Type
  | .readDb9 _ => Joystick.State
  | .readPanel => Panel.State
  | _ => Unit

/-- Everything the controller asks of its surroundings. -/
inductive Device.Request where
  | link (request : Link.Request)
  | medium (request : Disk.MediumRequest)
  | file (request : Disk.FileRequest)
  | host (request : Host.Request)

/-- What the surroundings answer. -/
abbrev Device.Reply : Device.Request → Type
  | .link r => Link.Reply r
  | .medium r => Disk.MediumReply r
  | .file r => Disk.FileReply r
  | .host r => Host.Reply r

/-- The surroundings of the controller. -/
def Device : Interface := ⟨Device.Request, Device.Reply⟩

/-- A program over the surroundings of the controller. -/
abbrev Action := Program Device

namespace Link

/-- Asks `r` of the link. -/
def request (r : Link.Request) : Action (Link.Reply r) := .request (I := Device) (.link r)

/-- Asserts the chip select of the channel `target`. -/
def select (target : Target) : Action Unit := request (.select target)

/-- Releases the chip select. -/
def deselect : Action Unit := request .deselect

/-- Sends `byte` and takes the byte that comes back. -/
def transfer (byte : UInt8) : Action UInt8 := request (.transfer byte)

end Link

/-- Asks `r` of the medium. -/
def Disk.mediumRequest (r : Disk.MediumRequest) : Action (Disk.MediumReply r) :=
  .request (I := Device) (.medium r)

/-- Asks `r` of the file system. -/
def Disk.fileRequest (r : Disk.FileRequest) : Action (Disk.FileReply r) :=
  .request (I := Device) (.file r)

/-- Asks `r` of the services. -/
def Host.request (r : Host.Request) : Action (Host.Reply r) := .request (I := Device) (.host r)

end IoController
