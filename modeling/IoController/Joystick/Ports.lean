import IoController.Joystick.State

/-!
# Joystick — Ports

Which slot of the core each controller has, and what is reported of the physical ports.  The two
physical DB9 ports are numbered 0 (the mouse port) and 1 (the joystick port).  USB joysticks take
the first slots when there are any, and the physical ports move up.  The ports are sampled in
rounds, and one is reported when its state has changed, or in every port's case once after a resend
was asked for.
-/

namespace IoController.Joystick

/-! ### Slots -/

/-- How many joysticks a core can have. -/
def slotCount : UInt8 := 6

/-- The slot of the physical port `port`, or of a joystick emulated on it.
* Without USB joysticks it is the port's own number.
* Otherwise port 0 keeps slot 0 if `preferDb9` is set, or else has the slot after the USB
  joysticks.
* Port 1 has slot 0 beside a single USB joystick, which takes slot 1, or else the slot numbered
  like the count of USB joysticks. -/
def portSlot (port usbCount : UInt8) (preferDb9 : Bool) : UInt8 :=
  if usbCount = 0 then port
  else if port = 0 then
    if preferDb9 then 0 else if usbCount = 255 then 255 else usbCount + 1
  else if usbCount = 1 then 0
  else usbCount

/-- The slot of the USB joystick `index`.  The first takes the place of the physical joystick port,
the second of the mouse port, and the others follow. -/
def usbSlot (index : UInt8) : UInt8 :=
  match index with
  | 0 => 1
  | 1 => 0
  | n => n

/-! ### Physical ports -/

/-- How many physical joystick ports there are. -/
def portCount : Nat := 2

/-- The `last` sample of each port, and whether the next round reports all of them. -/
structure Db9 where
  last : Vector State portCount := .replicate portCount ∅
  resendPending : Bool := false

namespace Db9

/-- Records a sample of `port`.  The `state` is returned if it is to be reported; ports that do not
exist are never reported. -/
def sample (d : Db9) (port : Nat) (state : State) : Option State × Db9 :=
  if h : port < portCount then
    let report := d.last[port] ≠ state ∨ d.resendPending
    (if report then some state else none, { d with last := d.last.set port state })
  else (none, d)

/-- Has the next round report every port (`resendPending`). -/
def resend (d : Db9) : Db9 := { d with resendPending := true }

/-- Ends a round of samples, and with it what `resend` asked for. -/
def sampled (d : Db9) : Db9 := { d with resendPending := false }

end Db9

end IoController.Joystick
