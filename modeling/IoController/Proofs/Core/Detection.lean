import IoController.Proofs.Core.Loading
import IoController.Proofs.Disk.Announcements
import IoController.Proofs.Program.Ensures

/-!
# Core — Detection

The detection of an 8-bit core from beginning to end, step by step in order.

* `Tells`: the status word is sent.
* `LoadsConfig`, `LoadsRom`, `MountsDisk`: what a file comes to, whether or not it is there and
  whatever fails.  `LoadsNamed`: the three in order, whatever becomes of each.
* `Readies`: what readying a core comes to.
* `detection_completes`: every detection ends, and it is made of these steps.
-/

namespace IoController

open Device (Deed Does traces)

/-! ### Drives -/

/-- The first drive is backed by the `file` that was mounted there. -/
theorem Disk.Cache.source?_mounted (c : Disk.Cache) (file : Disk.Image) :
    (c.back 0 (.image file)).invalidate.source? 0 = some (.image file) :=
  Vector.getElem?_setIfInBounds_self_of_lt (by decide)

namespace Core

/-! ### Masks, bit by bit -/

theorem clear_or_self (w mask : UInt32) : (w &&& ~~~mask) ||| mask = w ||| mask := by
  rw [← UInt32.toBitVec_inj]
  ext i hi
  simp only [UInt32.toBitVec_or, UInt32.toBitVec_and, UInt32.toBitVec_not, BitVec.getElem_or,
    BitVec.getElem_and, BitVec.getElem_not]
  grind

theorem or_and_self (w mask : UInt32) : (w ||| mask) &&& mask = mask := by
  rw [← UInt32.toBitVec_inj]
  ext i hi
  simp only [UInt32.toBitVec_or, UInt32.toBitVec_and, BitVec.getElem_or, BitVec.getElem_and]
  grind

theorem or_clear_self (w mask : UInt32) : (w ||| mask) &&& ~~~mask = w &&& ~~~mask := by
  rw [← UInt32.toBitVec_inj]
  ext i hi
  simp only [UInt32.toBitVec_or, UInt32.toBitVec_and, UInt32.toBitVec_not, BitVec.getElem_or,
    BitVec.getElem_and, BitVec.getElem_not]
  grind

/-- To change `resetBit` to 1 is to set it. -/
theorem set_resetBit (w : UInt32) :
    (w &&& ~~~Monitor.resetBit) ||| (Monitor.resetBit &&& Monitor.resetBit) =
      w ||| Monitor.resetBit := by
  rw [UInt32.and_self, clear_or_self]

/-- To change `resetBit` to 0 is to clear it. -/
theorem clear_resetBit (w : UInt32) :
    (w &&& ~~~Monitor.resetBit) ||| (0 &&& Monitor.resetBit) = w &&& ~~~Monitor.resetBit := by
  rw [UInt32.zero_and, UInt32.or_zero]

/-- A `saved` status word is taken over as it is. -/
theorem takeOver_eq (old saved : UInt32) :
    (old &&& ~~~(0xffffffff : UInt32)) ||| (saved &&& 0xffffffff) = saved := by
  apply UInt32.toBitVec_inj.1
  change (old.toBitVec &&& 0#32) ||| (saved.toBitVec &&& BitVec.allOnes 32) = saved.toBitVec
  rw [BitVec.and_zero, BitVec.and_allOnes, BitVec.zero_or]

/-- The status word at the end is the `saved` one, or the one from before, without `resetBit`. -/
theorem release_eq (old : UInt32) (saved : Option UInt32) :
    saved.getD (old ||| Monitor.resetBit) &&& ~~~Monitor.resetBit =
      saved.getD old &&& ~~~Monitor.resetBit := by
  cases saved with
  | some w => rfl
  | none => exact or_clear_self old Monitor.resetBit

/-! ### The status word -/

/-- The status word `w` is sent. -/
def Tells (w : UInt32) (ds : List Deed) : Prop :=
  ∃ bytes bytes', ds = [.frame .io bytes, .frame .io bytes'] ∧
    bytes.map (·.1) = [0x15, w.toUInt8] ∧ bytes'.map (·.1) = 0x1e :: Bytes.littleEndian w

/-- To set bits of the `status` word is to tell it, changed as it is. -/
theorem does_setStatus (m : Monitor) (status mask : UInt32) :
    Does (m.setStatus status mask) fun ds m' =>
      m' = { m with status := (m.status &&& ~~~mask) ||| (status &&& mask) } ∧
        Tells m'.status ds := by
  refine .bind (.bind ((Device.does_command _ _).mono fun ds _ hfirst => ?_))
  obtain ⟨bytes, rfl, hsent⟩ := hfirst
  refine (Device.does_command _ _).mono fun ds' _ hsecond => .done ⟨rfl, ?_⟩
  obtain ⟨bytes', rfl, hsent'⟩ := hsecond
  exact ⟨bytes, bytes', rfl, hsent, hsent'⟩

/-! ### The CFG file -/

/-- What loading the CFG file `name` asks and says, and the status word that was saved in it. -/
inductive LoadsConfig (name : String) : List Deed → Option UInt32 → Prop where
  | absent : LoadsConfig name [.file (.openFile name) none] none
  | long {file : Disk.Image} (long : ¬ file.length ≤ Monitor.maxStatusFile) :
      LoadsConfig name [.file (.openFile name) (some file), .file (.close file.file) ()] none
  | unread {file : Disk.Image} {ds : List Deed} {e : Disk.Error}
      (read : Disk.Cache.Loads 0 (.image file) ds (.error e))
      (short : file.length ≤ Monitor.maxStatusFile) :
      LoadsConfig name
        (.file (.openFile name) (some file) :: (ds ++ [.file (.close file.file) ()])) none
  | read {file : Disk.Image} {ds told : List Deed} {sector : Disk.Sector}
      (read : Disk.Cache.Loads 0 (.image file) ds (.ok sector))
      (tells : Tells (Bytes.ofLittleEndian (sector.toList.take 4)) told)
      (short : file.length ≤ Monitor.maxStatusFile) :
      LoadsConfig name
        (.file (.openFile name) (some file) :: (ds ++ (told ++ [.file (.close file.file) ()])))
        (some (Bytes.ofLittleEndian (sector.toList.take 4)))

/-- A `status` word is taken over from a file's first sector, if that can be read. -/
theorem does_loadStatus (m : Monitor) (file : Disk.Image) :
    Does (m.loadStatus file) fun ds m' =>
      (∃ e, Disk.Cache.Loads 0 (.image file) ds (.error e) ∧ m' = m) ∨
      ∃ sector read told, ds = read ++ told ∧ Disk.Cache.Loads 0 (.image file) read (.ok sector) ∧
        Tells (Bytes.ofLittleEndian (sector.toList.take 4)) told ∧
          m' = { m with status := Bytes.ofLittleEndian (sector.toList.take 4) } := by
  refine .bind ((Disk.Cache.does_sourceRead (.image file) 0).mono fun ds reply hread => ?_)
  cases reply with
  | error e =>
    refine .done (.inl ⟨e, ?_, rfl⟩)
    rwa [List.append_nil]
  | ok sector =>
    refine (does_setStatus m _ 0xffffffff).mono fun told m' htold => .inr ?_
    rw [takeOver_eq] at htold
    obtain ⟨rfl, htells⟩ := htold
    exact ⟨sector, ds, told, rfl, hread, htells, rfl⟩

/-- The CFG file is loaded as `LoadsConfig` says. -/
theorem does_loadConfigFile (m : Monitor) (name : String) :
    Does (m.loadConfigFile name) fun ds m' =>
      ∃ saved, LoadsConfig name ds saved ∧ m' = { m with status := saved.getD m.status } := by
  refine .bind ((Device.does_file _).mono fun ds file? hopen => ?_)
  rw [hopen]
  cases file? with
  | none => exact .done ⟨none, .absent, rfl⟩
  | some file =>
    dsimp only
    by_cases hshort : file.length ≤ Monitor.maxStatusFile
    · rw [if_pos hshort]
      refine .bind ((does_loadStatus m file).mono fun ds m' hload => ?_)
      refine .bind ((Device.does_file _).mono fun closing _ hclose => .done ?_)
      rw [hclose, List.append_nil]
      obtain ⟨e, hread, rfl⟩ | ⟨sector, read, told, rfl, hread, htells, rfl⟩ := hload
      · exact ⟨none, .unread hread hshort, rfl⟩
      · refine ⟨some _, ?_, rfl⟩
        rw [List.append_assoc]
        exact .read hread htells hshort
    · rw [if_neg hshort]
      refine .bind (.done ?_)
      refine .bind ((Device.does_file _).mono fun closing _ hclose => .done ?_)
      rw [hclose]
      exact ⟨none, .long hshort, rfl⟩

/-! ### The ROM file -/

/-- What loading the ROM file `name` comes to: a run of the upload, whether or not it succeeds. -/
inductive LoadsRom (name : String) : List Deed → Prop where
  | absent : LoadsRom name [.file (.openFile name) none]
  | uploaded {file : Disk.Image} {ds : List Deed} {result : Except Disk.Error Unit}
      (upload : (Link.Upload.upload file 0 "ROM").Run (traces ds) result) :
      LoadsRom name
        (.file (.openFile name) (some file) :: (ds ++ [.file (.close file.file) ()]))

theorem does_upload (file : Disk.Image) :
    Does (Link.Upload.upload file 0 "ROM") fun ds result =>
      (Link.Upload.upload file 0 "ROM").Run (traces ds) result :=
  (isLoading_uses.upload file 0 "ROM").run.mono fun _ _ hrun => hrun.1

/-- The ROM file is loaded as `LoadsRom` says. -/
theorem does_loadRom (name : String) :
    Does (Monitor.loadRom name) fun ds _ => LoadsRom name ds := by
  refine .bind ((Device.does_file _).mono fun ds file? hopen => ?_)
  rw [hopen]
  cases file? with
  | none => exact .done .absent
  | some file =>
    refine .bind ((does_upload file).mono fun ds result hupload => ?_)
    refine (Device.does_file _).mono fun closing _ hclose => ?_
    rw [hclose]
    exact .uploaded hupload

/-! ### The VHD file -/

/-- What mounting the VHD file `name` comes to, and the card after it. -/
inductive MountsDisk (name : String) (card : Disk.VirtualCard) :
    List Deed → Disk.VirtualCard → Prop where
  | absent : MountsDisk name card [.file (.openFile name) none] card
  | unindexed {file : Disk.Image} {e : Disk.Error} :
      MountsDisk name card
        [.file (.openFile name) (some file), .file (.index file.file) (.error e),
          .file (.close file.file) ()] card
  /-- The image replaces what was in the first drive, and the core is told its size. -/
  | mounted {file : Disk.Image} {old : Disk.Source} {size changed : List (UInt8 × UInt8)}
      (backing : card.cache.source? 0 = some old)
      (announced : size.map (·.1) =
        0x1d :: (Bytes.littleEndian file.length.toUInt32 ++ List.replicate 12 0))
      (signalled : changed.map (·.1) = [0x1c, 0x00])
      (slot : (card.cache.back 0 (.image file)).invalidate.source? 0 = some (.image file)) :
      MountsDisk name card
        (.file (.openFile name) (some file) :: .file (.index file.file) (.ok ()) ::
          (old.closing ++ [.frame .io size, .frame .io changed]))
        { cache := (card.cache.back 0 (.image file)).invalidate, warned := false }

/-- The VHD file is mounted as `MountsDisk` says. -/
theorem does_mountDisk (card : Disk.VirtualCard) (name : String) :
    Does (Monitor.mountDisk card name) fun ds card' => MountsDisk name card ds card' := by
  refine .bind ((Device.does_file _).mono fun ds file? hopen => ?_)
  rw [hopen]
  cases file? with
  | none => exact .done .absent
  | some file =>
    refine .bind ((card.does_mount 0 file).mono fun ds p hmounts => .done ?_)
    rw [List.append_nil]
    cases hmounts with
    | failed tried =>
      cases tried with
      | nowhere source => exact absurd (Disk.Cache.source?_eq_none_iff.1 source) (by decide)
      | unindexed source => exact .unindexed
    | mounted tried announced signalled =>
      cases tried with
      | mounted source =>
        exact .mounted source announced signalled (card.cache.source?_mounted file)

/-! ### All files -/

/-- What loading the files of a core named `name` comes to: the status word that was saved in its
CFG file, if one was read, and the card after it.  A core whose name does not make file names has no
files. -/
inductive LoadsNamed (name : String) (card : Disk.VirtualCard) :
    List Deed → Option UInt32 → Disk.VirtualCard → Prop where
  | unnamed (config : fileName? name "CFG" = none) : LoadsNamed name card [] none card
  | named {config rom disk : String} {ds ds' ds'' : List Deed} {saved : Option UInt32}
      {card' : Disk.VirtualCard} (hconfig : fileName? name "CFG" = some config)
      (hrom : fileName? name "ROM" = some rom) (hdisk : fileName? name "VHD" = some disk)
      (loadsConfig : LoadsConfig config ds saved) (loadsRom : LoadsRom rom ds')
      (mountsDisk : MountsDisk disk card ds'' card') :
      LoadsNamed name card (ds ++ (ds' ++ ds'')) saved card'

/-- The files of a core are loaded as `LoadsNamed` says. -/
theorem does_loadFiles (m : Monitor) (card : Disk.VirtualCard) :
    Does (m.loadFiles card) fun ds p => ∃ saved, LoadsNamed m.name card ds saved p.2 ∧
      p.1 = { m with status := saved.getD m.status } := by
  cases hconfig : m.fileName? "CFG" with
  | none =>
    rw [loadFiles_of_none hconfig]
    exact .done ⟨none, .unnamed hconfig, rfl⟩
  | some config =>
    obtain ⟨rom, disk, hrom, hdisk, heq⟩ := loadFiles_of_some hconfig card
    rw [heq]
    refine .bind ((does_loadConfigFile m config).mono fun ds m' hload => ?_)
    obtain ⟨saved, hsaved, rfl⟩ := hload
    refine .bind ((does_loadRom rom).mono fun ds' _ hupload => ?_)
    refine .bind ((does_mountDisk card disk).mono fun ds'' card' hmount => .done ⟨saved, ?_, rfl⟩)
    rw [List.append_nil]
    exact .named hconfig hrom hdisk hsaved hupload hmount

/-! ### Detection -/

/-- The core is told how the `card` identifies itself. -/
def TellsCard (card : Disk.VirtualCard) (d : Deed) : Prop :=
  let medium := card.cache.medium
  ∃ bytes, d = .frame .io bytes ∧ bytes.map (·.1) =
    0x19 :: (Disk.cid.toList ++ (Disk.csd medium.sectors medium.highCapacity).toList ++
      [if medium.highCapacity then 0x01 else 0x00])

/-- The core is asked for the first item of its config string, and it is `item`.  The frame ends by
itself, after at most 131 bytes, and not because of the reader's limit. -/
def AsksItem (item : Option String) (d : Deed) : Prop :=
  (∃ back bytes, d = .frame .io ((0x14, back) :: bytes) ∧ bytes.length ≤ 130 ∧
    ∀ b ∈ bytes, b.1 = 0x00) ∧
  ∀ limit, 130 ≤ limit → (Link.ConfigString.itemWithin? limit 0).Run (traces [d]) item

/-- What readying an 8-bit core comes to, step by step: it is told about the card (`TellsCard`) and
asked its name (`AsksItem`); it is put into reset; its files are loaded; and the status word that
they left is sent without the reset bit. -/
inductive Readies (old : UInt32) (card : Disk.VirtualCard) :
    List Deed → Monitor → Disk.VirtualCard → Prop where
  | steps {config asking : Deed} {item : Option String} {asserting loading releasing : List Deed}
      {saved : Option UInt32} {m' : Monitor} {card' : Disk.VirtualCard}
      (tells : TellsCard card config) (asks : AsksItem item asking)
      (asserts : Tells (old ||| Monitor.resetBit) asserting) (name : m'.name = item.elim "" nameOf)
      (loads : LoadsNamed m'.name card loading saved card') (releases : Tells m'.status releasing)
      (status : m'.status = saved.getD old &&& ~~~Monitor.resetBit) :
      Readies old card (config :: asking :: (asserting ++ (loading ++ releasing))) m' card'

/-- The core is told about the `card` in one frame. -/
theorem does_tellCard (card : Disk.VirtualCard) :
    Does card.identify fun ds _ => ∃ d, ds = [d] ∧ TellsCard card d := by
  refine (Device.does_command _ _).mono fun ds _ hframe => ?_
  obtain ⟨bytes, rfl, hsent⟩ := hframe
  exact ⟨_, rfl, bytes, rfl, hsent⟩

theorem does_askItem : Does (Link.ConfigString.item? 0) fun ds item =>
    ∃ d, ds = [d] ∧ AsksItem item d := by
  refine Link.ConfigString.does_firstItem.run.mono fun ds item hframe => ?_
  obtain ⟨hrun, back, bytes, rfl, hlength, hsent⟩ := hframe
  refine ⟨_, rfl, ⟨back, bytes, rfl, hlength, hsent⟩, fun limit hlimit => ?_⟩
  rwa [Link.ConfigString.itemWithin?_eq hlimit]

/-- An 8-bit core is readied as `Readies` says. -/
theorem does_ready8Bit (m : Monitor) (card : Disk.VirtualCard) :
    Does (m.ready8Bit card) fun ds p => Readies m.status card ds p.1 p.2 ∧ p.1.core = m.core := by
  refine .bind ((does_tellCard card).mono fun ds _ hconfig => ?_)
  obtain ⟨config, rfl, htells⟩ := hconfig
  refine .bind (does_askItem.mono fun ds item hasking => ?_)
  obtain ⟨asking, rfl, hasks⟩ := hasking
  refine .bind ((does_setStatus _ Monitor.resetBit Monitor.resetBit).mono fun up m₁ hup => ?_)
  refine .bind ((does_loadFiles m₁ card).mono fun loading p hloading => ?_)
  obtain ⟨saved, hloads, hp⟩ := hloading
  refine .bind ((does_setStatus p.1 0 Monitor.resetBit).mono fun down m₂ hdown => .done ?_)
  obtain ⟨rfl, hasserts⟩ := hup
  obtain ⟨rfl, hreleases⟩ := hdown
  rw [hp] at hreleases ⊢
  simp only [set_resetBit, clear_resetBit, release_eq] at hasserts hreleases ⊢
  rw [List.append_nil, List.singleton_append, List.singleton_append]
  exact ⟨.steps htells hasks hasserts rfl hloads hreleases rfl, trivial⟩

/-- A core is asked what it is, and an 8-bit core is readied as `Readies` says. -/
theorem does_detection (m : Monitor) (card : Disk.VirtualCard) :
    Does (m.detect card) fun ds p => ∃ id ds', ds = .frame .io [(0xff, id)] :: ds' ∧
      p.1.core = ofId id ∧ (p.1.core = .generic8Bit → Readies m.status card ds' p.1 p.2) := by
  refine .bind ((Device.does_framed .io (Device.clocks_transfer 0xff)).mono fun ds id hid => ?_)
  obtain ⟨bytes, rfl, rfl⟩ := hid
  by_cases hcore : ofId id = .generic8Bit
  · rw [if_pos hcore]
    refine (does_ready8Bit _ card).mono fun ds' p hready => ⟨id, ds', rfl, hready.2, fun _ => ?_⟩
    exact hready.1
  · rw [if_neg hcore]
    exact .done ⟨id, [], rfl, rfl, fun hcore' => absurd hcore' hcore⟩

/-- **Detection runs to completion.**  Whatever the surroundings answer, by any relation `step` that
always has an answer, the detection of a core comes to an end.  A core that answers as an 8-bit core
is told about the card (`TellsCard`), asked its name (`AsksItem`), and put into reset with a status
word of 1.  If the name makes file names, the CFG, ROM and VHD files are loaded in that order, each
whatever became of those before it (`LoadsNamed`).  Last comes the status word that was `saved` in
the CFG file, or 0, without the reset bit, and it is remembered. -/
theorem detection_completes (card : Disk.VirtualCard) :
    (∀ {σ : Type} (step : σ → Exchange Device → σ → Prop),
      (∀ s r, ∃ x s', step s ⟨r, x⟩ s') → ∀ s, ∃ t p s',
        (({} : Monitor).detect card).Run t p ∧ Trace.Along step t s s') ∧
    ∀ t m' card', (({} : Monitor).detect card).Run t (m', card') → ∃ id ds,
      t = traces (.frame .io [(0xff, id)] :: ds) ∧
      (id = 0xa4 → m'.core = .generic8Bit ∧
        ∃ config asking item asserting loading releasing saved,
          ds = config :: asking :: (asserting ++ (loading ++ releasing)) ∧
          TellsCard card config ∧ AsksItem item asking ∧ Tells 1 asserting ∧
          m'.name = item.elim "" nameOf ∧ LoadsNamed m'.name card loading saved card' ∧
          Tells m'.status releasing ∧ m'.status = saved.getD 0 &&& ~~~Monitor.resetBit) := by
  refine ⟨fun step hstep s => Program.exists_along hstep _ s, fun t m' card' hrun => ?_⟩
  obtain ⟨-, rfl, id, ds, rfl, hcore, hready⟩ := does_detection {} card t (m', card') hrun
  refine ⟨id, ds, rfl, fun hid => ?_⟩
  rw [hid] at hcore
  refine ⟨hcore, ?_⟩
  cases hready hcore with
  | steps tells asks asserts name loads releases status =>
    exact ⟨_, _, _, _, _, _, _, rfl, tells, asks, asserts, name, loads, releases, status⟩

/-! ### A detection to look at -/

/-- A core that sends nothing but the letter A for its config string, with a CFG, a ROM and a VHD
file that each hold four bytes, the first of which is `low`. -/
def talkative (low : UInt8) : (r : Device.Request) → Device.Reply r :=
  Device.replying (fun sent => if sent = 0xff then 0xa4 else 0x41) (some ⟨⟨0⟩, 4⟩)
    (.ok (.ofBytes [low, 0x34]))

/-- A card with no images. -/
def blankCard : Disk.VirtualCard := { cache := { medium := ⟨64, true⟩ } }

/-- Its detection by a monitor that has seen no other. -/
def detection (low : UInt8) : Trace Device × Monitor × Disk.VirtualCard :=
  (({} : Monitor).detect blankCard).record (talkative low)

theorem run_detection (low : UInt8) :
    (({} : Monitor).detect blankCard).Run (detection low).1
      ((detection low).2.1, (detection low).2.2) := by
  unfold detection
  exact Program.run_record_of_fst rfl

/-- A core that says nothing but the letter A has files by that name, and the status word that was
saved is left behind without `resetBit`. -/
theorem detection_completes_lettered :
    (∃ t p s', (({} : Monitor).detect blankCard).Run t p ∧
      Trace.Along (fun (_ : Unit) e _ => e.2 = talkative 0x13 e.1) t () s') ∧
    ∃ loading saved, LoadsNamed "AAAAAAAAAAAAAAAA" blankCard loading saved (detection 0x13).2.2 ∧
      saved.getD 0 &&& ~~~Monitor.resetBit = 0x3412 := by
  obtain ⟨hends, hsteps⟩ := detection_completes blankCard
  refine ⟨hends _ (fun _ r => ⟨talkative 0x13 r, (), rfl⟩) (), ?_⟩
  obtain ⟨id, ds, htrace, hready⟩ := hsteps _ _ _ (run_detection 0x13)
  have hid : id = 0xa4 := by
    have hfirst : (Device.journal (detection 0x13).1).head?.map Deed.bytes =
        some [(0xff, 0xa4)] := by decide +kernel
    rw [htrace, Device.journal_traces] at hfirst
    cases hfirst
    rfl
  obtain ⟨-, config, asking, item, asserting, loading, releasing, saved, -, -, -, -, -, hloads, -,
    hstatus⟩ := hready hid
  have hname : (detection 0x13).2.1.name = "AAAAAAAAAAAAAAAA" := by decide +kernel
  have hlast : (detection 0x13).2.1.status = 0x3412 := by decide +kernel
  exact ⟨loading, saved, hname ▸ hloads, hstatus ▸ hlast⟩

end Core

end IoController
