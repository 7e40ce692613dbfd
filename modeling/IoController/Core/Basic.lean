/-!
# Core — Basic

The hardware cores that can be loaded into the FPGA.  A running core answers with an
identification byte.
-/

namespace IoController

/-- The core in the FPGA. -/
inductive Core where
  /-- A core whose identification byte is not recognised; nothing is sent to it. -/
  | unknown
  /-- A core without a user interface. -/
  | dumb
  /-- The first Minimig (Amiga) core. -/
  | minimig1
  /-- A PACE core, which takes joysticks only. -/
  | pace
  | atariSt
  /-- The family of 8-bit cores, which may carry a config string and use an emulated SD card. -/
  | generic8Bit
  | minimig2
  | archimedes
  deriving DecidableEq

namespace Core

/-- The core with the identification byte `id`, if there is one. -/
def known? (id : UInt8) : Option Core :=
  match id with
  | 0xa0 => some dumb
  | 0xa1 => some minimig1
  | 0xa2 => some pace
  | 0xa3 => some atariSt
  | 0xa4 => some generic8Bit
  | 0xa5 => some minimig2
  | 0xa6 => some archimedes
  | _ => none

/-- The core with the identification byte `id`; all bytes that are not `known?` are the `unknown`
core. -/
def ofId (id : UInt8) : Core := (known? id).getD unknown

/-- A core's identification byte.  The `unknown` core has one of its own, which no core answers. -/
def id : Core → UInt8
  | unknown => 0x55
  | dumb => 0xa0
  | minimig1 => 0xa1
  | pace => 0xa2
  | atariSt => 0xa3
  | generic8Bit => 0xa4
  | minimig2 => 0xa5
  | archimedes => 0xa6

/-- Whether `id` has the form of an identification, recognised or not: a core that is up answers
one. -/
def isIdentification (id : UInt8) : Bool := id &&& 0xf0 == 0xa0

/-- Whether input and storage traffic is sent to this core. -/
def hasUserInterface : Core → Bool
  | unknown | dumb => false
  | _ => true

/-- Whether the core is one of the two Minimigs. -/
def isMinimig : Core → Bool
  | minimig1 | minimig2 => true
  | _ => false

end Core

end IoController
