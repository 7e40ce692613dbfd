import IoController.Bits
import IoController.Time

/-!
# Keyboard — Leds

Who decides what the keyboard's LEDs show.  A core can take charge of any of the three in its LED
status byte, and then says what it shows.  The others show the firmware's own state.
-/

namespace IoController.Keyboard

/-- The LEDs of a keyboard, in the order of their bits. -/
inductive Lock where
  | num | caps | scroll
  deriving DecidableEq

instance : Flag Lock where
  mask
    | .num => 0x01
    | .caps => 0x02
    | .scroll => 0x04

/-- The LEDs that are lit. -/
abbrev Locks := Flags Lock

namespace Lock

/-- The LEDs in the order in which their changes are reported. -/
def all : List Lock := [.caps, .num, .scroll]

/-- The bit of the core's status byte by which the core takes charge of the LED. -/
def controlBit : Lock → UInt8
  | .caps => 0x01
  | .num => 0x04
  | .scroll => 0x10

/-- The bit of the core's status byte that lights the LED. -/
def statusBit : Lock → UInt8
  | .caps => 0x02
  | .num => 0x08
  | .scroll => 0x20

/-- Whether the core's status `byte` has it in charge of the LED `k`. -/
def controlled (byte : UInt8) (k : Lock) : Bool := byte &&& k.controlBit != 0

/-- Whether the core's status `byte` has the LED `k` lit. -/
def lit (byte : UInt8) (k : Lock) : Bool := byte &&& k.statusBit != 0

end Lock

/-- How often the core is asked for its LED status. -/
def ledInterval : Duration := .milliseconds 100

/-- What the core and the firmware want the LEDs to show. -/
structure Leds where
  /-- The core's last valid status byte, or zero after an invalid one. -/
  core : UInt8 := 0
  firmware : Locks := ∅
  nextPoll : Deadline := none

namespace Leds

/-- Records what the firmware wants.  The LEDs that are to be changed on the keyboard are returned:
those of `locks` that the core is not in charge of. -/
def set (l : Leds) (locks : Locks) (on : Bool) : Locks × Leds :=
  (.ofList (Lock.all.filter fun k => locks.has k && !k.controlled l.core),
    { l with firmware := l.firmware.put locks on })

/-- Whether the core's status is to be read again, by `nextPoll`. -/
def due (l : Leds) (now : Instant) : Bool × Leds :=
  if l.nextPoll.reached now then (true, { l with nextPoll := some (now + ledInterval) })
  else (false, l)

/-- A status `byte` counts only if its top bits are 01; any other says that the core is in charge of
nothing. -/
def effective (byte : UInt8) : UInt8 := if byte &&& 0xc0 == 0x40 then byte else 0

/-- Whether a new status `byte` may change what the LED `k` shows. -/
def affected (l : Leds) (byte : UInt8) (k : Lock) : Bool :=
  (l.core ^^^ byte) &&& (k.controlBit ||| k.statusBit) != 0

/-- What the LED `k` is to show under the status `byte`: the core decides if it is in charge, and
else the firmware. -/
def shown (l : Leds) (byte : UInt8) (k : Lock) : Bool :=
  if k.controlled byte then k.lit byte else l.firmware.has k

/-- Takes in the core's status `byte`.  The changes to make on the keyboard are returned. -/
def update (l : Leds) (byte : UInt8) : List (Lock × Bool) × Leds :=
  let byte := effective byte
  ((Lock.all.filter (l.affected byte)).map fun k => (k, l.shown byte k), { l with core := byte })

end Leds

end IoController.Keyboard
