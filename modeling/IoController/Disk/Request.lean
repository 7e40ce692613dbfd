import IoController.Bits

/-!
# Disk — Request

What a core asks of its SD card.
-/

namespace IoController.Disk

/-- What the low half of the `status` byte can ask for or say. -/
inductive RequestFlag where
  | read
  | write
  /-- The core addresses the card by sectors. -/
  | highCapacity
  /-- The card's registers are to be sent again. -/
  | config
  deriving DecidableEq

instance : Flag RequestFlag where
  mask
    | .read => 0x01
    | .write => 0x02
    | .highCapacity => 0x04
    | .config => 0x08

/-- Which access to a sector is asked for. -/
inductive Access where
  | read | write | none
  deriving DecidableEq

/-- A request as the core sent it: the `status` byte, the drive and the sector. -/
structure Request where
  status : UInt8
  drive : UInt8
  lba : UInt32
  deriving DecidableEq

namespace Request

/-- Whether this is a request at all.  The high half of the `status` is 5 in the older protocol and
6 in the newer one; a core that knows neither answers something else. -/
def isValid (r : Request) : Bool := r.status &&& 0xf0 == 0x50 || r.status &&& 0xf0 == 0x60

/-- The flags of the `status` byte. -/
def flags (r : Request) : Flags RequestFlag := ⟨r.status &&& 0x0f⟩

/-- Whether an access is pending, of whichever kind, a `read` or a `write`. -/
def isAccess (r : Request) : Bool := r.flags.has .read || r.flags.has .write

/-- The access asked for; a request for both at once is for `none`. -/
def access (r : Request) : Access :=
  match r.flags.has .read, r.flags.has .write with
  | true, false => .read
  | false, true => .write
  | _, _ => .none

end Request

end IoController.Disk
