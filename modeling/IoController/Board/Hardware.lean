import IoController.Bridge.Frame
import IoController.Device
import IoController.Time

/-!
# Board — Hardware

What the controller's board offers: pins, serial buses, the SD card with its file system, a
watchdog, tasks and a clock.  Whatever can fail says so in its reply.
-/

namespace IoController.Board

/-- The tasks of the firmware. -/
inductive Task where
  /-- Polices the others. -/
  | watchdog
  | status
  | io
  /-- Receives what the USB devices report. -/
  | bridge
  deriving DecidableEq

/-- The tasks that the watchdog polices. -/
inductive Policed where
  | io | status | bridge
  deriving DecidableEq

namespace Policed

/-- The policed tasks in the order of their `number`. -/
def all : List Policed := [.io, .status, .bridge]

/-- The number by which the watchdog knows the task. -/
def number : Policed → Nat
  | .io => 0
  | .status => 1
  | .bridge => 2

/-- How often the task has to `feed` the watchdog. -/
def interval : Policed → Duration
  | .io => .seconds 2
  | .status => .seconds 1
  | .bridge => .seconds 1

end Policed

/-- What kind of SD card there is.  Only `sdhc` numbers sectors rather than bytes. -/
inductive CardKind where
  | sd1 | sd2 | sdhc
  deriving DecidableEq

/-- The serial buses: one to the FPGA and one to the SD card. -/
inductive Bus where
  | link | card
  deriving DecidableEq

/-- What is asked of the board. -/
inductive Request where
  | createOutput (pin : UInt8) (high : Bool)
  | createInput (pin : UInt8) (pullUp : Bool)
  | createAnalog (pin : UInt8)
  /-- Sets up a serial bus on its clock, output and input pins. -/
  | createBus (bus : Bus) (clock output input : UInt8) (frequency : Nat)
  | setFrequency (bus : Bus) (frequency : Nat)
  /-- Sets up the line to the USB host on its two pins. -/
  | createLine (output input : UInt8) (baud : Nat)
  | createWatchdog (tasks : Nat) (timeout check : Duration)
  | spawn (task : Task)
  /-- Starts the firmware over. -/
  | reset
  | now
  | setPin (pin : UInt8) (high : Bool)
  | readPin (pin : UInt8)
  /-- Samples an analog input in 12 bits. -/
  | readAnalog (pin : UInt8)
  /-- Exchanges a byte with the FPGA. -/
  | exchange (byte : UInt8)
  /-- Waits until the last byte to the FPGA has left. -/
  | flush
  | sendLine (bytes : Bytes)
  | police (task : Policed) (interval : Duration)
  /-- Shows the watchdog that a task lives. -/
  | feed (task : Policed)
  | watch
  /-- The size of the SD card in bytes. -/
  | cardBytes
  | cardKind
  | readBlock (lba : UInt32)
  | writeBlock (lba : UInt32) (data : Disk.Sector)
  /-- Opens the first FAT volume of the card. -/
  | openVolume
  | openRoot
  /-- Opens a file of the root directory for reading and writing. -/
  | openFile (name : String)
  | fileLength (file : Disk.File)
  /-- Moves to an offset from the start of a file. -/
  | seekFile (file : Disk.File) (offset : UInt32)
  /-- Reads at most a sector at a file's position, and moves on. -/
  | readFileBlock (file : Disk.File)
  /-- Writes a sector at a file's position, and moves on. -/
  | writeFileBlock (file : Disk.File) (data : Disk.Sector)
  | closeFile (file : Disk.File)

/-- What the board answers: `false` or `none` if it fails.  After a `reset` there is no answer. -/
abbrev Reply : Request → Type
  | .createOutput _ _ | .createInput _ _ | .createAnalog _ | .createBus _ _ _ _ _
  | .setFrequency _ _ | .createLine _ _ _ | .createWatchdog _ _ _ => Unit
  | .spawn _ => Bool
  | .reset => Empty
  | .now => Instant
  | .setPin _ _ => Unit
  | .readPin _ => Bool
  | .readAnalog _ => Option UInt16
  | .exchange _ => Option UInt8
  | .flush | .sendLine _ => Bool
  | .police _ _ | .feed _ | .watch => Unit
  | .cardBytes => Option UInt64
  | .cardKind => Option CardKind
  | .readBlock _ => Option Disk.Sector
  | .writeBlock _ _ | .openVolume | .openRoot => Bool
  | .openFile _ => Option Disk.File
  | .fileLength _ => Option UInt32
  | .readFileBlock _ => Option Bytes
  | .seekFile _ _ | .writeFileBlock _ _ | .closeFile _ => Bool

end Board

/-- The board that the controller runs on. -/
def Board : Interface := ⟨Board.Request, Board.Reply⟩

namespace Board

/-- A program of the firmware. -/
abbrev Procedure := Program Board

/-- Asks `r` of the board. -/
def ask (r : Request) : Procedure (Reply r) := .request (I := Board) r

/-- The time. -/
def clock : Procedure Instant := ask .now

/-- Starts the firmware over.  Nothing comes after that. -/
def restart {α : Type} : Procedure α := .ask (I := Board) .reset nofun

end Board

end IoController
