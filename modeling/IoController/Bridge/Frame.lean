import IoController.Bits
import IoController.Joystick.State
import IoController.Keyboard.Leds
import IoController.Keyboard.Report

/-!
# Bridge — Frame

The USB host is a processor of its own, which forwards what the devices report in frames: a sync
byte, a kind, a length, and as many bytes of payload.

| kind | payload |
|------|---------|
| 0x01 | keyboard: priority, modifiers, up to six keys |
| 0x02 | mouse: buttons, dx, dy |
| 0x03 | joystick: index, state |
| 0x04 | joystick count: count |
| 0x81 | to the bridge, keyboard LEDs: LEDs |
-/

namespace IoController

/-- What a USB device reports. -/
inductive UsbReport where
  /-- A keyboard's report.  Of several keyboards the one with the lower number goes first. -/
  | keyboard (priority : UInt8) (report : Keyboard.Report)
  | mouse (buttons : UInt8) (dx dy : Int8)
  /-- A joystick's state; joysticks are counted from zero. -/
  | joystick (index : UInt8) (state : Joystick.State)
  | joystickCount (count : UInt8)
  deriving DecidableEq

namespace Bridge

/-- The first byte of every frame. -/
def sync : UInt8 := 0xa5

/-- The most bytes of a frame's payload. -/
def maxPayload : Nat := 16

/-- The kinds of frames.  All but `leds` come from the USB host. -/
inductive Kind where
  | keyboard | mouse | joystick | joystickCount | leds
  deriving DecidableEq

namespace Kind

/-- The byte that stands for the kind in a frame. -/
def byte : Kind → UInt8
  | keyboard => 0x01
  | mouse => 0x02
  | joystick => 0x03
  | joystickCount => 0x04
  | leds => 0x81

/-- The kind that `b` stands for. -/
def ofByte? (b : UInt8) : Option Kind :=
  match b with
  | 0x01 => some keyboard
  | 0x02 => some mouse
  | 0x03 => some joystick
  | 0x04 => some joystickCount
  | 0x81 => some leds
  | _ => none

/-- A kind can be told by its `byte`. -/
theorem ofByte?_byte (k : Kind) : ofByte? k.byte = some k := by cases k <;> rfl

end Kind

/-- A frame, by its kind and its payload. -/
structure Frame where
  kind : UInt8
  payload : Bytes

namespace Frame

/-- The frame `f` as it stands on the line. -/
def bytes (f : Frame) : Bytes := sync :: f.kind :: UInt8.ofNat f.payload.length :: f.payload

/-- What a frame reports.  A `payload` may be longer than it needs to be; one that is too short
reports nothing, and so does a kind that is unknown or meant for the USB host. -/
def report? (f : Frame) : Option UsbReport :=
  match Kind.ofByte? f.kind, f.payload with
  | some .keyboard, priority :: modifiers :: keys =>
    some (.keyboard priority (.ofKeys ⟨modifiers⟩ keys))
  | some .mouse, buttons :: dx :: dy :: _ => some (.mouse buttons dx.toInt8 dy.toInt8)
  | some .joystick, index :: state :: _ => some (.joystick index ⟨state⟩)
  | some .joystickCount, count :: _ => some (.joystickCount count)
  | _, _ => none

/-- The frame that has the USB host set the keyboards' LEDs to `locks`. -/
def ofLeds (locks : Keyboard.Locks) : Frame := ⟨Kind.leds.byte, [locks.bits]⟩

end Frame

end Bridge

end IoController
