import IoController.Device
import IoController.Joystick.Ports

/-!
# Board — Pins

Which pin does what, and the stock of plain pins, each of which is handed out once.  The pins of
the serial buses, of the line to the USB host and of the analog inputs are not in the stock.
-/

namespace IoController.Board

/-- How many lines a joystick port has: up, down, left, right and fire. -/
def db9Lines : Nat := 5

/-- Which plain pin does what: the numbers of the status light's pin, of the chip selects and of the
joystick lines. -/
structure PinMap where
  statusLight : UInt8
  linkSelect : Link.Target → UInt8
  db9 : Vector (Vector UInt8 db9Lines) Joystick.portCount

/-- The pins of the first board. -/
def PinMap.standard : PinMap where
  statusLight := 25
  linkSelect
    | .io => 17
    | .fpga => 20
    | .osd => 21
  db9 := #v[#v[2, 3, 4, 5, 6], #v[7, 8, 9, 14, 15]]

/-- The plain pins that were not handed out yet, `free`. -/
structure PinStock where
  free : List UInt8

namespace PinStock

/-- How many pins the processor has. -/
def pinCount : Nat := 30

/-- A stock of the given `pins`.  Numbers from `pinCount` on are left out. -/
def ofPins (pins : List UInt8) : PinStock := ⟨pins.filter (·.toNat < pinCount)⟩

/-- The stock of the first board: every pin that `PinMap.standard` names. -/
def standard : PinStock := ofPins [2, 3, 4, 5, 6, 7, 8, 9, 14, 15, 17, 20, 21, 25]

/-- Hands out `pin`, unless it is not in the stock. -/
def take? (s : PinStock) (pin : UInt8) : Option PinStock :=
  if pin ∈ s.free then some ⟨s.free.filter (· != pin)⟩ else none

/-- The complaint about a `pin` that is not in the stock. -/
def unavailable (pin : UInt8) : String := "GPIO " ++ toString pin.toNat ++ " not available"

end PinStock

end IoController.Board
