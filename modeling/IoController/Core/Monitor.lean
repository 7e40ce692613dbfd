import IoController.Core.Name
import IoController.Core.Profile
import IoController.Disk.VirtualCard
import IoController.Link.ConfigString
import IoController.Link.Upload

/-!
# Core — Monitor

Which core is in the FPGA.  It is identified once, and from then on its identification byte is
read again and again.  If another byte keeps coming back a new core is being loaded: nothing is
to be sent until it is up, and then the firmware starts over.
-/

namespace IoController.Core

/-- What a check of the core finds.  On `restart` another core has come up. -/
inductive Check where
  | active
  /-- Another byte came back, for the given number of times in a row. -/
  | mismatch (count : Nat)
  | reloading
  | restart
  deriving DecidableEq

/-- What is known of the core. -/
structure Monitor where
  core : Core := .unknown
  /-- The core's name, empty if it has none. -/
  name : String := ""
  hasConfigString : Bool := false
  /-- The status word of an 8-bit core, as it was sent last. -/
  status : UInt32 := 0
  /-- How many checks in a row have found another core. -/
  mismatches : Nat := 0
  reloading : Bool := false

namespace Monitor

/-- How many mismatches in a row mean that a new core is being loaded. -/
def mismatchLimit : Nat := 255

/-- The bit of the `status` word that holds the core in reset. -/
def resetBit : UInt32 := 0x01

/-- The greatest length of a file with a saved `status` word. -/
def maxStatusFile : UInt64 := 4

/-- What the core of `m` takes, if anything. -/
def profile? (m : Monitor) : Option Profile := m.core.profile?

/-- The name of the core's file with the extension `ext`. -/
def fileName? (m : Monitor) (ext : String) : Option String := Core.fileName? m.name ext

/-! ### Identification -/

/-- Replaces the bits of the status word that are in `mask`, and sends it. -/
def setStatus (m : Monitor) (status mask : UInt32) : Action Monitor := do
  let m := { m with status := (m.status &&& ~~~mask) ||| (status &&& mask) }
  Link.sendStatus m.status
  pure m

/-- Takes over a saved status word, all of it: the first four bytes of `file`, lowest first. -/
def loadStatus (m : Monitor) (file : Disk.Image) : Action Monitor := do
  match ← file.read 0 with
  | .error _ => pure m
  | .ok sector => m.setStatus (Bytes.ofLittleEndian (sector.toList.take 4)) 0xffffffff

/-- Does `body` with the file `name`; if there is none the result is `absent`. -/
def withFile {α : Type} (name : String) (absent : α) (body : Disk.Image → Action α) :
    Action α := do
  match ← Disk.fileRequest (.openFile name) with
  | none => pure absent
  | some file => body file

/-- Takes over the status word of the core's CFG file, if it is no longer than `maxStatusFile`. -/
def loadConfigFile (m : Monitor) (name : String) : Action Monitor :=
  withFile name m fun file => do
    let m ← if file.length ≤ maxStatusFile then m.loadStatus file else pure m
    file.close
    pure m

/-- Uploads the core's ROM file `name`, under index 0. -/
def loadRom (name : String) : Action Unit :=
  withFile name () fun file => do
    let _ ← Link.Upload.upload file 0 "ROM"
    file.close

/-- Mounts the core's VHD file `name` as the first drive. -/
def mountDisk (card : Disk.VirtualCard) (name : String) : Action Disk.VirtualCard :=
  withFile name card fun file => do
    let (_, card) ← card.mount 0 file
    pure card

/-- Loads the files that belong to the core.  The name of its CFG file is cut in front of the
extension for that of its ROM file, and that again for its VHD file, by `withExtension`.  Failures
are passed over. -/
def loadFiles (m : Monitor) (card : Disk.VirtualCard) : Action (Monitor × Disk.VirtualCard) :=
  match config? : m.fileName? "CFG" with
  | none => pure (m, card)
  | some config => do
    let m ← m.loadConfigFile config
    let rom := withExtension config "ROM" (cuts_of_fileName? (.head _) config?)
    loadRom rom
    have rom? := fileName?_withExtension (.head _) (.tail _ (.head _)) config?
    let disk := withExtension rom "VHD" (cuts_of_fileName? (.tail _ (.head _)) rom?)
    let card ← mountDisk card disk
    pure (m, card)

/-- Readies an 8-bit core: it is told about the SD card and asked its name, and its files are loaded
while `resetBit` is set. -/
def ready8Bit (m : Monitor) (card : Disk.VirtualCard) : Action (Monitor × Disk.VirtualCard) := do
  card.identify
  let item ← Link.ConfigString.item? 0
  let m := { m with hasConfigString := item.isSome, name := item.elim "" nameOf }
  let m ← m.setStatus resetBit resetBit
  let (m, card) ← m.loadFiles card
  let m ← m.setStatus 0 resetBit
  pure (m, card)

/-- Identifies the core and readies it, with its disks in `card`. -/
def detect (m : Monitor) (card : Disk.VirtualCard) : Action (Monitor × Disk.VirtualCard) := do
  let id ← Link.identify
  let m := { m with
    core := .ofId id, name := "", hasConfigString := false, mismatches := 0, reloading := false }
  if m.core = .generic8Bit then m.ready8Bit card else pure (m, card)

/-! ### Checks -/

/-- Compares the identification byte `id` with the core.  While one is being loaded, any
identification means a restart. -/
def check (m : Monitor) (id : UInt8) : Check × Monitor :=
  if m.reloading then (if isIdentification id then .restart else .reloading, m)
  else if ofId id = m.core then (.active, { m with mismatches := 0 })
  else
    let mismatches := m.mismatches + 1
    if mismatchLimit ≤ mismatches then (.reloading, { m with mismatches, reloading := true })
    else (.mismatch mismatches, { m with mismatches })

/-- Reads the identification byte and compares it with the core, by `check`. -/
def poll (m : Monitor) : Action (Check × Monitor) := do
  let id ← Link.pollIdentity
  pure (m.check id)

end Monitor

end IoController.Core
