import IoController.Joystick.State
import IoController.Keyboard.KeyCode
import IoController.Keyboard.Leds

/-!
# Event

What the keyboard and the mouse come to: messages for the core, for the OSD, for the keyboard's
LEDs, and requests for a reset.
-/

namespace IoController

/-- What a reset key combination asks for. -/
inductive Reset where
  /-- The core's reset is held (`true`) or let go. -/
  | core (held : Bool)
  | firmware
  deriving DecidableEq

/-- Something that an input makes happen. -/
inductive Event where
  /-- A key of the core goes down or up. -/
  | key (code : Keyboard.KeyCode) (make : Bool)
  /-- A mouse movement with the state of its buttons: bit 0 left, bit 1 right. -/
  | mouse (buttons : UInt8) (dx dy : Int8)
  /-- The state of a joystick emulated on a physical port. -/
  | joystick (port : UInt8) (state : Joystick.State)
  /-- A key for the OSD, as an Amiga key code with bit 7 set when it goes up. -/
  | osdKey (code : UInt8)
  | osdVisible (visible : Bool)
  /-- The firmware wants keyboard LEDs on or off. -/
  | leds (locks : Keyboard.Locks) (on : Bool)
  /-- The reset combination was pressed or released. -/
  | reset (request : Reset)
  deriving DecidableEq

end IoController
