import IoController.Device

/-!
# Board — SpiBus

The link to the FPGA over a serial bus, with a chip select per channel that is low while the
channel is selected.  What fails on the way is passed over: a byte that could not be exchanged
counts as 0xff.
-/

namespace IoController

/-- What the link needs of the hardware. -/
inductive SpiBus.Request where
  | setSelect (target : Link.Target) (high : Bool)
  | exchange (byte : UInt8)
  /-- Waits until the last byte has left. -/
  | flush

/-- What the hardware answers: whether it worked, and the byte that came back. -/
abbrev SpiBus.Reply : SpiBus.Request → Type
  | .setSelect _ _ | .flush => Bool
  | .exchange _ => Option UInt8

/-- A serial bus with three chip selects. -/
def SpiBus : Interface := ⟨SpiBus.Request, SpiBus.Reply⟩

namespace SpiBus

/-- Asks `r` of the bus. -/
def ask (r : SpiBus.Request) : Program SpiBus (SpiBus.Reply r) :=
  .request (I := SpiBus) r

/-- Carries out what is asked of the link.  To `deselect` is to raise every chip select once the
last byte has left. -/
def serveLink : (r : Link.Request) → Program SpiBus (Link.Reply r)
  | .select target => do
    let _ ← ask (.setSelect target false)
    pure ()
  | .deselect => do
    let _ ← ask .flush
    let _ ← ask (.setSelect .io true)
    let _ ← ask (.setSelect .fpga true)
    let _ ← ask (.setSelect .osd true)
    pure ()
  | .transfer byte => do
    let reply ← ask (.exchange byte)
    pure (reply.getD 0xff)

end SpiBus

end IoController
