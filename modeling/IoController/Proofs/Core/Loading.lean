import IoController.Core.Monitor
import IoController.Proofs.Device.Vocabulary
import IoController.Proofs.Link.ConfigString

/-!
# Core — Loading

What loading a core's files, and detecting a core, has to say to it.

* `Core.loadFiles_of_none`, `Core.loadFiles_of_some`: a core has all of its files' names or none,
  and they are the ones that `Core.fileName?` gives, although two of them are made by a cut.
* `Core.IsLoading`: a condition on deeds that all of loading satisfies, if it admits what is asked
  of the files, what goes over the data channel, and the announcement of a disk.
* `Core.IsDetecting`: the same of a whole detection, if the condition admits its commands as well.
* `Core.uses_detect`: the commands of a detection.
-/

namespace IoController.Core

open Device (Deed Only Uses)

/-! ### Names -/

/-- By `loadFiles` nothing is loaded for a core whose files have no names. -/
theorem loadFiles_of_none {m : Monitor} (h : m.fileName? "CFG" = none) (card : Disk.VirtualCard) :
    m.loadFiles card = pure (m, card) := by
  unfold Monitor.loadFiles
  split
  · rfl
  · next config hconfig => cases hconfig.symm.trans h

/-- The names that `withExtension` makes of the first are those that `fileName?` gives. -/
theorem loadFiles_of_some {m : Monitor} {config : String} (h : m.fileName? "CFG" = some config)
    (card : Disk.VirtualCard) :
    ∃ rom disk, m.fileName? "ROM" = some rom ∧ m.fileName? "VHD" = some disk ∧
      m.loadFiles card = (do
        let m ← m.loadConfigFile config
        Monitor.loadRom rom
        let card ← Monitor.mountDisk card disk
        pure (m, card)) := by
  have hrom := fileName?_withExtension (.head _) (.tail _ (.head _) : "ROM" ∈ extensions) h
  have hdisk := fileName?_withExtension (.tail _ (.head _))
    (.tail _ (.tail _ (.head _)) : "VHD" ∈ extensions) hrom
  refine ⟨_, _, hrom, hdisk, ?_⟩
  unfold Monitor.loadFiles
  split
  · next hnone => cases hnone.symm.trans h
  · next config' hconfig =>
    obtain rfl : config' = config := Option.some.inj (hconfig.symm.trans h)
    rfl

/-! ### Files -/

/-- The condition `P` admits what loading a file is made of. -/
structure IsLoading (P : Deed → Prop) : Prop where
  file (request : Disk.FileRequest) (reply : Disk.FileReply request) : P (.file request reply)
  data (bytes : List (UInt8 × UInt8)) : P (.frame .fpga bytes)
  size (bytes : List (UInt8 × UInt8)) (payload : Bytes) :
    bytes.map (·.1) = Link.Opcode.diskSize :: payload → P (.frame .io bytes)
  changed (bytes : List (UInt8 × UInt8)) (payload : Bytes) :
    bytes.map (·.1) = Link.Opcode.diskChanged :: payload → P (.frame .io bytes)

namespace IsLoading

variable {P : Deed → Prop}

theorem request (h : IsLoading P) (r : Disk.FileRequest) : Only P (Disk.fileRequest r) :=
  Only.file fun reply => h.file r reply

theorem frame (h : IsLoading P) (sent : Bytes) : Only P (Link.frame .fpga sent) :=
  Only.frame fun bytes _ => h.data bytes

theorem announceDisk (h : IsLoading P) (drive : UInt8) (size : UInt32) :
    Only P (Link.announceDisk drive size) :=
  (Only.command fun bytes => h.size bytes _).bind fun _ =>
    Only.command fun bytes => h.changed bytes _

/-- To do something, `body`, with a file is loading if that is. -/
theorem withFile {α : Type} (h : IsLoading P) {name : String} {absent : α}
    {body : Disk.Image → Action α} (hbody : ∀ file, Only P (body file)) :
    Only P (Monitor.withFile name absent body) := by
  refine (h.request _).bind fun file? => ?_
  cases file? with
  | none => exact .done _
  | some file => exact hbody file

theorem sendContents (h : IsLoading P) (image : Disk.Image) (full rest : Nat) :
    Only P (Link.Upload.sendContents image full rest) := by
  induction full with
  | zero =>
    unfold Link.Upload.sendContents
    split
    · exact .done _
    · refine (h.request _).bind fun reply => ?_
      cases reply with
      | error e => exact .done _
      | ok sector => exact (h.frame _).bind fun _ => .done _
  | succ full ih =>
    refine (h.request _).bind fun reply => ?_
    cases reply with
    | error e => exact .done _
    | ok sector => exact (h.frame _).bind fun _ => ih

theorem upload (h : IsLoading P) (image : Disk.Image) (index : UInt8) (ext : String) :
    Only P (Link.Upload.upload image index ext) := by
  unfold Link.Upload.upload
  dsimp only
  split
  · exact .done _
  · refine (h.frame _).bind fun _ => (h.frame _).bind fun _ => (h.frame _).bind fun _ =>
      (h.request _).bind fun sought => ?_
    cases sought with
    | error e => exact .done _
    | ok u =>
      exact (h.sendContents image _ _).bind fun result => (h.frame _).bind fun _ => .done _

theorem loadRom (h : IsLoading P) (name : String) : Only P (Monitor.loadRom name) :=
  h.withFile fun file => (h.upload file 0 "ROM").bind fun _ => h.request _

theorem close (h : IsLoading P) (s : Disk.Source) : Only P s.close := by
  cases s with
  | medium => exact .done _
  | image i => exact h.request _

/-- To put an `image` behind a `drive` is loading. -/
theorem cacheMount (h : IsLoading P) (c : Disk.Cache) (drive : UInt8) (image : Disk.Image) :
    Only P (c.mount drive image) := by
  unfold Disk.Cache.mount
  split
  · exact (h.request _).bind fun _ => .done _
  · refine (h.request _).bind fun indexed => ?_
    cases indexed with
    | error e => exact (h.request _).bind fun _ => .done _
    | ok u => exact (h.close _).bind fun _ => .done _

theorem mountDisk (h : IsLoading P) (card : Disk.VirtualCard) (name : String) :
    Only P (Monitor.mountDisk card name) := by
  refine h.withFile fun file => Only.bind ?_ fun _ => .done _
  refine (h.cacheMount card.cache 0 file).bind fun p => ?_
  obtain ⟨reply, cache⟩ := p
  cases reply with
  | error e => exact .done _
  | ok u => exact (h.announceDisk _ _).bind fun _ => .done _

/-- To read a sector of an `image` is loading. -/
theorem imageRead (h : IsLoading P) (image : Disk.Image) (lba : UInt32) :
    Only P (image.read lba) := by
  refine (h.request _).bind fun sought => ?_
  cases sought with
  | error e => exact .done _
  | ok u => exact h.request _

end IsLoading

/-! ### Detection -/

/-- The commands of a detection: the core is asked what it is, told about the card, asked its
name, told its status, and told of a disk. -/
def detectionVocabulary : List UInt8 := [0xff, 0x19, 0x14, 0x15, 0x1e, 0x1d, 0x1c]

/-- The condition `P` admits what a detection is made of. -/
structure IsDetecting (P : Deed → Prop) : Prop where
  file (request : Disk.FileRequest) (reply : Disk.FileReply request) : P (.file request reply)
  data (bytes : List (UInt8 × UInt8)) : P (.frame .fpga bytes)
  command {opcode : UInt8} (known : opcode ∈ detectionVocabulary) {payload : Bytes}
    {bytes : List (UInt8 × UInt8)} (sent : bytes.map (·.1) = opcode :: payload) :
    P (.frame .io bytes)

namespace IsDetecting

variable {P : Deed → Prop}

theorem loading (h : IsDetecting P) : IsLoading P where
  file := h.file
  data := h.data
  size _ _ sent := h.command (by decide) sent
  changed _ _ sent := h.command (by decide) sent

/-- A command of the `detectionVocabulary` belongs to a detection. -/
theorem send (h : IsDetecting P) {opcode : UInt8} (known : opcode ∈ detectionVocabulary)
    (payload : Bytes) : Only P (Link.command opcode payload) :=
  Only.command fun _ sent => h.command known sent

/-- To ask a core what it is belongs to a detection. -/
theorem identify (h : IsDetecting P) : Only P Link.identify := by
  refine Only.framed (Device.clocks_transfer 0xff) fun bytes back hbytes => ?_
  rw [hbytes]
  exact h.command (by decide : (0xff : UInt8) ∈ detectionVocabulary) rfl

/-- To change the `status` word belongs to a detection. -/
theorem setStatus (h : IsDetecting P) (m : Monitor) (status mask : UInt32) :
    Only P (m.setStatus status mask) :=
  ((h.send (by decide) _).bind fun _ => h.send (by decide) _).bind fun _ => .done _

theorem loadConfigFile (h : IsDetecting P) (m : Monitor) (name : String) :
    Only P (m.loadConfigFile name) := by
  refine h.loading.withFile fun file => ?_
  have hstatus : Only P (m.loadStatus file) := by
    refine (h.loading.imageRead file 0).bind fun reply => ?_
    cases reply with
    | error e => exact .done _
    | ok sector => exact h.setStatus m _ _
  split
  · exact hstatus.bind fun _ => (h.loading.request _).bind fun _ => .done _
  · exact (Only.done _).bind fun _ => (h.loading.request _).bind fun _ => .done _

theorem loadFiles (h : IsDetecting P) (m : Monitor) (card : Disk.VirtualCard) :
    Only P (m.loadFiles card) := by
  cases hconfig : m.fileName? "CFG" with
  | none =>
    rw [loadFiles_of_none hconfig]
    exact .done _
  | some config =>
    obtain ⟨rom, disk, -, -, heq⟩ := loadFiles_of_some hconfig card
    rw [heq]
    exact (h.loadConfigFile m config).bind fun _ => (h.loading.loadRom rom).bind fun _ =>
      (h.loading.mountDisk card disk).bind fun _ => .done _

theorem ready8Bit (h : IsDetecting P) (m : Monitor) (card : Disk.VirtualCard) :
    Only P (m.ready8Bit card) := by
  have hitem : Only P (Link.ConfigString.item? 0) := by
    refine Link.ConfigString.does_firstItem.mono fun ds item hquery d hd => ?_
    obtain ⟨back, bytes, rfl, -⟩ := hquery
    rw [List.mem_singleton.1 hd]
    exact h.command (by decide : (0x14 : UInt8) ∈ detectionVocabulary) rfl
  exact (h.send (by decide) _).bind fun _ => hitem.bind fun _ =>
    (h.setStatus _ _ _).bind fun _ => (h.loadFiles _ card).bind fun _ =>
      (h.setStatus _ _ _).bind fun _ => .done _

theorem detect (h : IsDetecting P) (m : Monitor) (card : Disk.VirtualCard) :
    Only P (m.detect card) := by
  refine h.identify.bind fun id => ?_
  dsimp only
  split
  · exact h.ready8Bit _ card
  · exact .done _

end IsDetecting

/-- The commands of the `detectionVocabulary` and the traffic of files are admitted. -/
theorem isDetecting_uses : IsDetecting (·.isWithin detectionVocabulary = true) where
  file _ _ := rfl
  data _ := rfl
  command known _ _ sent := Device.isWithin_frame known sent

theorem isLoading_uses : IsLoading (·.isWithin detectionVocabulary = true) :=
  isDetecting_uses.loading

/-- Whatever core is found, whatever config string it sends, whichever files there are and whatever
fails, its detection keeps to the `detectionVocabulary`, and leaves no frame open. -/
theorem uses_detect (m : Monitor) (card : Disk.VirtualCard) :
    Uses detectionVocabulary (m.detect card) := isDetecting_uses.detect m card

end IoController.Core
