import IoController.Disk.Cache
import IoController.Link.Command

/-!
# Disk — VirtualCard

The SD card that the core believes to have.  The core is asked over and over whether it wants a
sector.  A read is answered from the cache, and the next sector loaded ahead; the data of a write
is fetched and written through.
-/

namespace IoController.Disk

/-- Shown once per mounted disk if a core that does not know high capacity cards uses one. -/
def capacityWarning : String :=
  " This core does not support\n SDHC cards. Using them may\n lead to data corruption.\n\n" ++
    " Please use an SD card <2GB!"

/-- What came of looking for a request.  A request for no sector is a `config`. -/
inductive Outcome where
  | idle
  /-- No sector was asked for. -/
  | config
  | read (drive : UInt8) (lba : UInt32)
  | write (drive : UInt8) (lba : UInt32)
  /-- The request could not be served. -/
  | failed (error : Error)
  deriving DecidableEq

/-- The emulated card: its drives, and whether the user was `warned`. -/
structure VirtualCard where
  cache : Cache
  warned : Bool := false

namespace VirtualCard

/-- Tells the core how the card identifies itself, by its `cid` and its `csd`. -/
def identify (v : VirtualCard) : Action Unit :=
  let medium := v.cache.medium
  Link.sendCardConfig cid (csd medium.sectors medium.highCapacity) medium.highCapacity

/-- Mounts `image` and tells the core its size, the low 32 bits of it. -/
def mount (v : VirtualCard) (drive : UInt8) (image : Image) :
    Action (Except Error Unit × VirtualCard) := do
  match ← v.cache.mount drive image with
  | (.error err, cache) => pure (.error err, { v with cache })
  | (.ok (), cache) =>
    Link.announceDisk drive image.length.toUInt32
    pure (.ok (), { cache, warned := false })

/-- Takes the image out of `drive` and tells the core, as a size of zero. -/
def unmount (v : VirtualCard) (drive : UInt8) :
    Action (Except Error (Option Image) × VirtualCard) := do
  match v.cache.unmount drive with
  | .error err => pure (.error err, v)
  | .ok (image, cache) =>
    Link.announceDisk drive 0
    pure (.ok image, { cache, warned := false })

/-- Whether `r` is an access by a core that cannot address this card, and the user was not yet
warned. -/
def mistrusts (v : VirtualCard) (r : Request) : Bool :=
  v.cache.medium.highCapacity && r.isAccess && !r.flags.has .highCapacity && !v.warned

/-- Shows the `capacityWarning` if it is due. -/
def warn (v : VirtualCard) (r : Request) : Action VirtualCard :=
  if v.mistrusts r then do
    Host.request (.showError capacityWarning)
    pure { v with warned := true }
  else pure v

/-- Does `body` with the disk light on. -/
def withLight {α : Type} (body : Action α) : Action α := do
  Host.request (.diskActivity true)
  let a ← body
  Host.request (.diskActivity false)
  pure a

/-- Serves a write to the sector `lba` of the `drive`.  The data is fetched even if it cannot be
written, because the core waits for that. -/
def serveWrite (c : Cache) (drive : UInt8) (lba : UInt32) : Action (Outcome × Cache) := do
  let data ← Link.receiveSector
  match ← withLight (c.write drive lba data) with
  | (.ok (), c) => pure (.write drive lba, c)
  | (.error err, c) => pure (.failed err, c)

/-- Serves a read of the sector `lba` of the `drive`.  The data goes to the core before the sector
after it is read ahead. -/
def serveRead (c : Cache) (drive : UInt8) (lba : UInt32) : Action (Outcome × Cache) :=
  withLight do
    match ← c.read drive lba with
    | (.error err, c) => pure (.failed err, c)
    | (.ok data, c) =>
      Link.sendSector data
      let (_, c) ← c.readAhead drive lba
      pure (.read drive lba, c)

/-- Serves the access that `r` asks for. -/
def serve (c : Cache) (r : Request) : Action (Outcome × Cache) :=
  match r.access with
  | .write => serveWrite c r.drive r.lba
  | .read => serveRead c r.drive r.lba
  | .none => pure (.config, c)

/-- Looks for a request and serves it (`serve`).  Whatever comes of it, the card is identified and
the warning shown first if they are due. -/
def poll (v : VirtualCard) : Action (Outcome × VirtualCard) := do
  let r ← Link.sdStatus
  if r.isValid then
    if r.flags.has .config then v.identify
    let v ← v.warn r
    let (outcome, cache) ← serve v.cache r
    pure (outcome, { v with cache })
  else pure (.idle, v)

end VirtualCard

end IoController.Disk
