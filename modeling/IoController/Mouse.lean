import IoController.Bits
import IoController.Core.Profile
import IoController.Time

/-!
# Mouse

A USB mouse reports far more often than a core wants to hear of it.  Movement is added up in an
`Accumulator`, and sent at regular intervals in the packets that the core takes.  The Archimedes
core takes the buttons as keys (`ButtonKeys`).
-/

namespace IoController.Mouse

/-! ### Movement -/

/-- How often a packet may be sent. -/
def packetInterval : Duration := .milliseconds 20

/-- The number `n` kept within 16 bits. -/
def saturate (n : Int) : Int := max (-32768) (min 32767 n)

/-- The number `n` kept within a signed byte. -/
def clamp (n : Int) : Int := max (-128) (min 127 n)

/-- The movement and the buttons that were not sent yet. -/
structure Accumulator where
  protocol : MouseProtocol
  x : Int := 0
  y : Int := 0
  /-- The buttons that were down in any report since the last packet, if there was a report. -/
  frameButtons : Option UInt8 := none
  latestButtons : UInt8 := 0
  pending : Bool := false
  next : Deadline := none

namespace Accumulator

/-- Takes in a report of `buttons` and movement.  Only the left (bit 0) and the right (bit 1) button
count. -/
def add (m : Accumulator) (buttons : UInt8) (dx dy : Int8) : Accumulator :=
  let buttons := buttons &&& 0x03
  { m with
    x := saturate (m.x + dx.toInt)
    y := saturate (if m.protocol = .ps2 then m.y - dy.toInt else m.y + dy.toInt)
    frameButtons := some ((m.frameButtons.getD 0) ||| buttons)
    latestButtons := buttons
    pending := true }

/-- The `sign` and `overflow` bits of the PS/2 axis `n`.  Beyond nine bits it overflows. -/
def ps2Flags (n : Int) (sign overflow : UInt8) : UInt8 :=
  (if n < 0 then sign else 0) ||| (if n < -255 ∨ 255 < n then overflow else 0)

/-- The byte of the PS/2 axis `n`.  An axis that overflows stands at an end. -/
def ps2Byte (n : Int) : UInt8 :=
  if n < -255 then 0x80 else if 255 < n then 0xff else Bytes.low n

/-- The PS/2 packet of the whole movement of `m`: the flags, then both axes. -/
def ps2Packet (m : Accumulator) (buttons : UInt8) : Bytes :=
  [0x08 ||| buttons ||| ps2Flags m.x 0x10 0x40 ||| ps2Flags m.y 0x20 0x80,
    ps2Byte m.x, ps2Byte m.y]

/-- The header of an Atari packet that shows the `buttons`: the left button in bit 1 and the right
one in bit 0. -/
def ikbdHeader (buttons : UInt8) : UInt8 :=
  (0xf8 : UInt8) ||| ((buttons &&& 0x01) <<< 1) ||| ((buttons &&& 0x02) >>> 1)

/-- The packet of as much movement as it has room for, in the format of the `protocol`. -/
def packet (m : Accumulator) (buttons : UInt8) : Bytes :=
  let x := Bytes.low (clamp m.x)
  let y := Bytes.low (clamp m.y)
  match m.protocol with
  | .minimig => [x, y, buttons]
  | .ps2 => m.ps2Packet buttons
  | .ikbd => [ikbdHeader buttons, x, y]
  | .archie => [x, y]

/-- The movement that a packet leaves of `n` for the next. -/
def carry (m : Accumulator) (n : Int) : Int := if m.protocol = .ps2 then 0 else n - clamp n

/-- A packet, if it is time for one (`next`) and there is anything to send (`pending`). -/
def poll (m : Accumulator) (now : Instant) : Option Bytes × Accumulator :=
  if m.next.reached now then
    let m := { m with next := some (now + packetInterval) }
    if m.pending then
      let x := m.carry m.x
      let y := m.carry m.y
      (some (m.packet (m.frameButtons.getD m.latestButtons)),
        { m with x, y, frameButtons := none, pending := x != 0 || y != 0 })
    else (none, m)
  else (none, m)

end Accumulator

/-! ### Buttons as keys -/

/-- The buttons of the mouse in the last report, for a core that takes them as keys. -/
structure ButtonKeys where
  last : UInt8 := 0

namespace ButtonKeys

/-- The left, middle and right button of a USB mouse, each with its key number. -/
def keys : List (UInt8 × UInt8) := [(0x01, 0x70), (0x04, 0x71), (0x02, 0x72)]

/-- The keys that go down (`true`) or up with a report of `buttons`. -/
def update (b : ButtonKeys) (buttons : UInt8) : List (UInt8 × Bool) × ButtonKeys :=
  ((keys.filter fun (bit, _) => (b.last ^^^ buttons) &&& bit != 0).map
      fun (bit, key) => (key, buttons &&& bit != 0),
    ⟨buttons⟩)

end ButtonKeys

end IoController.Mouse
