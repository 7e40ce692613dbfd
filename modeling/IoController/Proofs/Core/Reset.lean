import IoController.Proofs.Core.Detection

/-!
# Core — Reset

An 8-bit core is in reset while the lowest bit of its status word is set, and its files are meant
to be loaded meanwhile.

* `HeldInReset`: every status word but the last sets the bit, the last one clears it, and all
  loading happens while the bit is set.
* `heldInReset_iff`: detecting a core keeps it in reset exactly if the status word that is
  saved in its CFG file, if one is read, has the bit set.
-/

namespace IoController.Core

open Device (Deed Does traces)

/-! ### Seen from outside -/

/-- What a frame says of the status word, if it is about the status word: its bytes, lowest
first. -/
def statusFrame? : Deed → Option Bytes
  | .frame .io bytes =>
    match (bytes.map (·.1) : Bytes) with
    | 0x15 :: payload | 0x1e :: payload => some payload
    | _ => none
  | _ => none

/-- All that is said of the status word in `ds`. -/
def statusFrames (ds : List Deed) : List Bytes := ds.filterMap statusFrame?

/-- Whether what is said of the status word, `payload`, has the reset bit set. -/
def asserts (payload : Bytes) : Bool := payload.head?.any fun b => b &&& 0x01 == 0x01

/-- Whether a deed belongs to the loading of files: what is asked of the files, what goes over the
data channel, and the announcement of a disk. -/
def loads : Deed → Bool
  | .file .. | .frame .fpga _ => true
  | .frame .io bytes =>
    match (bytes.map (·.1) : Bytes) with
    | 0x1c :: _ | 0x1d :: _ => true
    | _ => false
  | _ => false

/-- Whether the core is in reset after `ds`, if it was `held` or not. -/
def heldAfter (held : Bool) (ds : List Deed) : Bool :=
  (statusFrames ds).foldl (fun _ payload => asserts payload) held

/-- Whether all loading happens while the core is in reset, if it was `held` or not. -/
def loadsInReset : Bool → List Deed → Bool
  | _, [] => true
  | held, d :: ds => (!loads d || held) && loadsInReset (heldAfter held [d]) ds

/-- By the deeds `ds` the core is held in reset while its files are loaded: every status word has
the bit set but the last one, which is sent twice, and all loading comes in between. -/
structure HeldInReset (ds : List Deed) : Prop where
  asserted : ∀ payload ∈ (statusFrames ds).take ((statusFrames ds).length - 2),
    asserts payload = true
  released : ∀ payload ∈ (statusFrames ds).drop ((statusFrames ds).length - 2),
    asserts payload = false
  loading : loadsInReset false ds = true

/-- The status word that was read from the first file that was opened, if one was. -/
def savedStatus? : List Deed → Option UInt32
  | [] => none
  | .file (.openFile _) (some _) :: .file (.seek ..) _ :: .file (.read _) (.ok sector) :: _ =>
    some (Bytes.ofLittleEndian (sector.toList.take 4))
  | .file (.openFile _) _ :: _ => none
  | _ :: ds => savedStatus? ds

@[simp] theorem statusFrames_append (ds ds' : List Deed) :
    statusFrames (ds ++ ds') = statusFrames ds ++ statusFrames ds' := List.filterMap_append

/-- Deeds in a row leave the core as the last ones do (`heldAfter`). -/
theorem heldAfter_append (held : Bool) (ds ds' : List Deed) :
    heldAfter held (ds ++ ds') = heldAfter (heldAfter held ds) ds' := by
  simp [heldAfter]

/-- The deeds `ds` and `ds'` in a row load in reset if both parts do, the later ones from where the
earlier ones leave the core (`heldAfter`). -/
theorem loadsInReset_append (held : Bool) (ds ds' : List Deed) :
    loadsInReset held (ds ++ ds') =
      (loadsInReset held ds && loadsInReset (heldAfter held ds) ds') := by
  induction ds generalizing held with
  | nil => rfl
  | cons d ds ih =>
    rw [List.cons_append, loadsInReset, loadsInReset, ih, Bool.and_assoc, ← heldAfter_append]
    rfl

/-- Nothing is said of the status word in `ds`, so that the core stays as it is. -/
def IsMute (ds : List Deed) : Prop := ∀ d ∈ ds, statusFrame? d = none

/-- Where nothing is said there are no frames of it. -/
theorem statusFrames_of_mute {ds : List Deed} (h : IsMute ds) : statusFrames ds = [] :=
  List.filterMap_eq_nil_iff.2 h

/-- A core that is held stays held where nothing is said. -/
theorem loadsInReset_of_mute {ds : List Deed} (h : IsMute ds) : loadsInReset true ds = true := by
  induction ds with
  | nil => rfl
  | cons d ds ih =>
    have hfirst : heldAfter true [d] = true := by
      rw [heldAfter, statusFrames_of_mute fun d' hd' => h d' (List.mem_cons.2
        (.inl (List.mem_singleton.1 hd')))]
      rfl
    rw [loadsInReset, hfirst, Bool.or_true, Bool.true_and]
    exact ih fun d' hd' => h d' (List.mem_cons_of_mem d hd')

/-! ### The status word -/

/-- Whether the status word `w` holds the core in reset. -/
def isReset (w : UInt32) : Bool := w &&& Monitor.resetBit == Monitor.resetBit

/-- What is said of the status word `w` whenever it is sent: its lowest byte, then all of it. -/
def statusPair (w : UInt32) : List Bytes := [[w.toUInt8], Bytes.littleEndian w]

/-- Both frames hold the core in reset, or both do not. -/
theorem asserts_of_mem {w : UInt32} {payload : Bytes} (h : payload ∈ statusPair w) :
    asserts payload = isReset w := by
  have hlow : (w.toUInt8 &&& 0x01 == 0x01) = isReset w := by
    rw [isReset, Bool.eq_iff_iff, beq_iff_eq, beq_iff_eq, ← UInt8.toNat_inj, ← UInt32.toNat_inj]
    simp [Monitor.resetBit]
  rcases List.mem_cons.1 h with rfl | h
  · exact hlow
  · obtain rfl := List.mem_singleton.1 h
    exact hlow

/-- Once the status word `w` is sent the core is in reset or not by that word alone. -/
theorem heldAfter_of_pair {w : UInt32} {ds : List Deed} (h : statusFrames ds = statusPair w)
    (held : Bool) : heldAfter held ds = isReset w := by
  rw [heldAfter, h]
  exact asserts_of_mem (List.mem_cons_of_mem _ (List.mem_singleton_self _))

namespace Tells

variable {w : UInt32} {ds : List Deed}

/-- To send the status word says `statusPair` of it. -/
theorem statusFrames_eq (h : Tells w ds) : statusFrames ds = statusPair w := by
  obtain ⟨bytes, bytes', rfl, hsent, hsent'⟩ := h
  simp [statusFrames, statusFrame?, hsent, hsent', statusPair]

/-- To send the status word `w` leaves the core as the word has it. -/
theorem heldAfter_eq (h : Tells w ds) (held : Bool) : heldAfter held ds = isReset w :=
  heldAfter_of_pair h.statusFrames_eq held

theorem loadsInReset_eq (h : Tells w ds) (held : Bool) : loadsInReset held ds = true := by
  obtain ⟨bytes, bytes', rfl, hsent, hsent'⟩ := h
  simp [loadsInReset, loads, hsent, hsent']

theorem savedStatus?_eq (h : Tells w ds) (after : List Deed) :
    savedStatus? (ds ++ after) = savedStatus? after := by
  obtain ⟨bytes, bytes', rfl, -, -⟩ := h
  rfl

end Tells

/-! ### The CFG file -/

namespace LoadsConfig

variable {name : String} {ds : List Deed} {saved : Option UInt32}

/-- The CFG file has the status word sent that was `saved` in it. -/
theorem statusFrames_eq (h : LoadsConfig name ds saved) :
    statusFrames ds = saved.elim [] statusPair := by
  cases h with
  | absent => rfl
  | long => rfl
  | unread read => cases read <;> rfl
  | @read file ds told sector read tells =>
    have hread : statusFrames (.file (.openFile name) (some file) :: ds) = [] := by
      cases read
      rfl
    rw [← List.cons_append, statusFrames_append, statusFrames_append, hread, tells.statusFrames_eq]
    rfl

/-- A core that was held is held after the CFG file if the `saved` word holds it. -/
theorem heldAfter_eq (h : LoadsConfig name ds saved) :
    heldAfter true ds = saved.all isReset := by
  have hframes := h.statusFrames_eq
  cases saved with
  | none =>
    rw [heldAfter, hframes]
    rfl
  | some w => exact heldAfter_of_pair hframes true

theorem savedStatus?_eq (h : LoadsConfig name ds saved) (after : List Deed) :
    savedStatus? (ds ++ after) = saved := by
  cases h with
  | absent => rfl
  | long => rfl
  | unread read => cases read <;> rfl
  | read read tells =>
    cases read
    rfl

/-- The file is closed last, and by then the status word that was `saved` in it counts. -/
theorem loadsInReset_eq (h : LoadsConfig name ds saved) :
    loadsInReset true ds = saved.all isReset := by
  cases h with
  | absent => rfl
  | long => rfl
  | unread read => cases read <;> rfl
  | @read file ds told sector read tells =>
    have hread : loadsInReset true (.file (.openFile name) (some file) :: ds) = true := by
      cases read
      rfl
    rw [← List.cons_append, loadsInReset_append, loadsInReset_append, hread, tells.loadsInReset_eq,
      tells.heldAfter_eq, Bool.true_and, Bool.true_and]
    simp [loadsInReset, loads]

end LoadsConfig

/-! ### The other files -/

/-- Nothing that a file is loaded with is about the status word (`statusFrame?`). -/
theorem isLoading_mute : IsLoading (statusFrame? · = none) where
  file _ _ := rfl
  data _ := rfl
  size _ _ hsent := by simp [statusFrame?, hsent, Link.Opcode.diskSize]
  changed _ _ hsent := by simp [statusFrame?, hsent, Link.Opcode.diskChanged]

theorem LoadsRom.isMute {name : String} {ds : List Deed} (h : LoadsRom name ds) : IsMute ds := by
  cases h with
  | absent => exact List.forall_mem_singleton.2 rfl
  | @uploaded file ds result upload =>
    have hmute := ((isLoading_mute.upload file 0 "ROM").journal upload).2
    rw [Device.journal_traces] at hmute
    have hclose : statusFrame? (.file (.close file.file) ()) = none := rfl
    exact List.forall_mem_cons.2
      ⟨rfl, List.forall_mem_append.2 ⟨hmute, List.forall_mem_singleton.2 hclose⟩⟩

theorem MountsDisk.isMute {name : String} {card card' : Disk.VirtualCard} {ds : List Deed}
    (h : MountsDisk name card ds card') : IsMute ds := by
  cases h with
  | absent => exact List.forall_mem_singleton.2 rfl
  | unindexed => simp [IsMute, statusFrame?]
  | @mounted file old size changed backing announced signalled slot =>
    have hclosing : IsMute old.closing := by
      cases old <;> simp [IsMute, Disk.Source.closing, statusFrame?]
    have hsize : statusFrame? (.frame .io size) = none := isLoading_mute.size size _ announced
    have hchanged : statusFrame? (.frame .io changed) = none :=
      isLoading_mute.changed changed _ signalled
    refine List.forall_mem_cons.2 ⟨rfl, List.forall_mem_cons.2 ⟨rfl, ?_⟩⟩
    exact List.forall_mem_append.2 ⟨hclosing, by simp [hsize, hchanged]⟩

/-- What loading the files comes to, as far as the status word goes: the one that was `saved`, if
one was, is sent. -/
structure LoadsFiles (ds : List Deed) (saved : Option UInt32) : Prop where
  statusFrames_eq : statusFrames ds = saved.elim [] statusPair
  savedStatus?_eq {after : List Deed} (none : savedStatus? after = none) :
    savedStatus? (ds ++ after) = saved
  loadsInReset_eq : loadsInReset true ds = saved.all isReset

theorem LoadsNamed.loadsFiles {name : String} {card card' : Disk.VirtualCard} {ds : List Deed}
    {saved : Option UInt32} (h : LoadsNamed name card ds saved card') : LoadsFiles ds saved := by
  cases h with
  | unnamed => exact ⟨rfl, fun hnone => hnone, rfl⟩
  | @named _ _ _ ds ds' ds'' _ _ _ _ _ loadsConfig loadsRom mountsDisk =>
    -- the ROM and the VHD say nothing of the status word: all depends on the CFG file
    have hmute : IsMute (ds' ++ ds'') :=
      List.forall_mem_append.2 ⟨loadsRom.isMute, mountsDisk.isMute⟩
    refine ⟨?_, fun _ => ?_, ?_⟩
    · rw [statusFrames_append, loadsConfig.statusFrames_eq, statusFrames_of_mute hmute,
        List.append_nil]
    · rw [List.append_assoc]
      exact loadsConfig.savedStatus?_eq _
    · -- if the CFG file releases the core, its closing is already too late
      rw [loadsInReset_append, loadsConfig.loadsInReset_eq, loadsConfig.heldAfter_eq]
      cases hheld : saved.all isReset with
      | false => rfl
      | true => exact loadsInReset_of_mute hmute

/-! ### Detection -/

/-- The deed `d` is a command that is about neither the status word nor the loading of files. -/
structure IsAside (d : Deed) : Prop where
  isFrame : ∃ bytes, d = .frame .io bytes
  mute : statusFrame? d = none
  apart : loads d = false

/-- What detecting a core comes to: the status words that are sent are `first`, the one that was
`saved`, if one was, and `last`. -/
structure Detects (first last : UInt32) (ds : List Deed) (saved : Option UInt32) : Prop where
  statusFrames_eq :
    statusFrames ds = statusPair first ++ (saved.elim [] statusPair ++ statusPair last)
  savedStatus?_eq : savedStatus? ds = saved
  loadsInReset_eq : loadsInReset false ds = saved.all isReset

/-- A command that is `IsAside` may come first. -/
theorem Detects.aside {first last : UInt32} {d : Deed} {ds : List Deed} {saved : Option UInt32}
    (h : Detects first last ds saved) (hd : IsAside d) : Detects first last (d :: ds) saved := by
  obtain ⟨⟨bytes, rfl⟩, hmute, hapart⟩ := hd
  have hframes : statusFrames (.frame .io bytes :: ds) = statusFrames ds :=
    List.filterMap_cons_none hmute
  have hheld : heldAfter false [.frame .io bytes] = false := by
    rw [heldAfter, statusFrames, List.filterMap_cons_none hmute]
    rfl
  refine ⟨hframes.trans h.statusFrames_eq, h.savedStatus?_eq, ?_⟩
  rw [loadsInReset, hapart, hheld, h.loadsInReset_eq]
  rfl

/-- A status word with `resetBit` set holds the core in reset. -/
theorem isReset_set (w : UInt32) : isReset (w ||| Monitor.resetBit) = true := by
  rw [isReset, beq_iff_eq, or_and_self]

/-- A status word with `resetBit` clear does not. -/
theorem isReset_clear (w : UInt32) : isReset (w &&& ~~~Monitor.resetBit) = false := by
  have hnone : ~~~Monitor.resetBit &&& Monitor.resetBit = 0 := rfl
  rw [isReset, UInt32.and_assoc, hnone, UInt32.and_zero]
  rfl

/-- To tell the core about the `card` is aside. -/
theorem TellsCard.isAside {card : Disk.VirtualCard} {d : Deed} (h : TellsCard card d) :
    IsAside d := by
  obtain ⟨bytes, rfl, hsent⟩ := h
  exact ⟨⟨bytes, rfl⟩, by simp [statusFrame?, hsent], by simp [loads, hsent]⟩

theorem AsksItem.isAside {item : Option String} {d : Deed} (h : AsksItem item d) : IsAside d := by
  obtain ⟨⟨back, bytes, rfl, -, -⟩, -⟩ := h
  exact ⟨⟨_, rfl⟩, rfl, rfl⟩

/-- The `first` status word, the loading of files and the `last` status word. -/
theorem detects_of_parts {first last : UInt32} {asserting loading releasing : List Deed}
    {saved : Option UInt32} (asserts : Tells first asserting) (hfirst : isReset first = true)
    (loads : LoadsFiles loading saved) (releases : Tells last releasing) :
    Detects first last (asserting ++ (loading ++ releasing)) saved := by
  refine ⟨?_, ?_, ?_⟩
  · rw [statusFrames_append, statusFrames_append, asserts.statusFrames_eq, loads.statusFrames_eq,
      releases.statusFrames_eq]
  · -- without a CFG file the search for a saved word runs to the end
    have hnone : savedStatus? releasing = none := by
      rw [← List.append_nil releasing]
      exact releases.savedStatus?_eq []
    rw [asserts.savedStatus?_eq]
    exact loads.savedStatus?_eq hnone
  · rw [loadsInReset_append, loadsInReset_append, asserts.loadsInReset_eq, asserts.heldAfter_eq,
      hfirst, loads.loadsInReset_eq, releases.loadsInReset_eq, Bool.true_and, Bool.and_true]

/-- To ready an 8-bit core comes to these status words (`Detects`). -/
theorem Readies.detects {old : UInt32} {card card' : Disk.VirtualCard} {ds : List Deed}
    {m' : Monitor} (h : Readies old card ds m' card') : ∃ saved : Option UInt32,
      m'.status = saved.getD old &&& ~~~Monitor.resetBit ∧
        Detects (old ||| Monitor.resetBit) m'.status ds saved := by
  obtain ⟨tells, asks, asserts, -, loads, releases, status⟩ := h
  have hparts := detects_of_parts asserts (isReset_set old) loads.loadsFiles releases
  exact ⟨_, status, (hparts.aside asks.isAside).aside tells.isAside⟩

/-- The detection of an 8-bit core comes to these status words (`Detects`). -/
theorem does_detect (m : Monitor) (card : Disk.VirtualCard) :
    Does (m.detect card) fun ds p => p.1.core = .generic8Bit → ∃ saved,
      p.1.status = saved.getD m.status &&& ~~~Monitor.resetBit ∧
        Detects (m.status ||| Monitor.resetBit) p.1.status ds saved := by
  refine (does_detection m card).mono fun ds p hsteps hcore => ?_
  obtain ⟨id, ds', rfl, -, hready⟩ := hsteps
  obtain ⟨saved, hstatus, hdetects⟩ := (hready hcore).detects
  exact ⟨saved, hstatus, hdetects.aside ⟨⟨_, rfl⟩, rfl, rfl⟩⟩

/-- The core is `HeldInReset` just if the `saved` status word leaves it there. -/
theorem Detects.held_iff {first last : UInt32} {ds : List Deed} {saved : Option UInt32}
    (h : Detects first last ds saved) (hfirst : isReset first = true)
    (hlast : isReset last = false) :
    HeldInReset ds ↔ ∀ w, saved = some w → isReset w = true := by
  have hpairs : statusFrames ds =
      (statusPair first ++ saved.elim [] statusPair) ++ statusPair last := by
    rw [h.statusFrames_eq, List.append_assoc]
  have hcount : (statusFrames ds).length - 2 =
      (statusPair first ++ saved.elim [] statusPair).length := by
    rw [hpairs, List.length_append]
    rfl
  have hasserted : (statusFrames ds).take ((statusFrames ds).length - 2) =
      statusPair first ++ saved.elim [] statusPair := by
    rw [hcount, hpairs, List.take_left]
  have hreleased : (statusFrames ds).drop ((statusFrames ds).length - 2) = statusPair last := by
    rw [hcount, hpairs, List.drop_left]
  constructor
  · rintro hheld w rfl
    have hmem : [w.toUInt8] ∈ statusPair first ++ statusPair w := by simp [statusPair]
    rw [← asserts_of_mem (List.mem_cons_self (a := [w.toUInt8]))]
    exact hheld.asserted _ (hasserted ▸ hmem)
  · intro hsaved
    refine ⟨fun payload hmem => ?_, fun payload hmem => ?_, ?_⟩
    · rw [hasserted, List.mem_append] at hmem
      rcases hmem with hmem | hmem
      · rw [asserts_of_mem hmem, hfirst]
      · cases saved with
        | none => cases hmem
        | some w => rw [asserts_of_mem hmem, hsaved w rfl]
    · rw [hreleased] at hmem
      rw [asserts_of_mem hmem, hlast]
    · rw [h.loadsInReset_eq]
      cases saved with
      | none => rfl
      | some w => exact hsaved w rfl

/-- **Reset during loading.**  Whatever config string an 8-bit core sends, whichever files there are
and whatever fails, all that its detection says of the status word is three words, each by
`statusPair`: the one from before with the reset bit set, then the one that was saved in the CFG
file, if one is read (`savedStatus?`), and last that word, or the one from before, with the bit
clear.  So the core is `HeldInReset` while its files are loaded just if no word is read, or the one
that is read has the bit set. -/
theorem heldInReset_iff {m m' : Monitor} {card card' : Disk.VirtualCard} {t : Trace Device}
    (hrun : (m.detect card).Run t (m', card')) (hcore : m'.core = .generic8Bit) :
    t = traces (Device.journal t) ∧
    statusFrames (Device.journal t) = statusPair (m.status ||| Monitor.resetBit) ++
      ((savedStatus? (Device.journal t)).elim [] statusPair ++ statusPair m'.status) ∧
    m'.status = (savedStatus? (Device.journal t)).getD m.status &&& ~~~Monitor.resetBit ∧
    (HeldInReset (Device.journal t) ↔
      ∀ saved, savedStatus? (Device.journal t) = some saved → isReset saved = true) := by
  obtain ⟨ht, hdetects⟩ := (does_detect m card).journal hrun
  obtain ⟨saved, hstatus, hdetects⟩ := hdetects hcore
  rw [hdetects.savedStatus?_eq]
  refine ⟨ht, hdetects.statusFrames_eq, hstatus, ?_⟩
  refine hdetects.held_iff (isReset_set _) ?_
  rw [hstatus]
  exact isReset_clear _

/-- The saved status word is 0x3412, and the ROM is loaded while the core runs, which is not
`HeldInReset`. -/
theorem released_while_loading : ∃ m card m' card' t,
    (Monitor.detect m card).Run t (m', card') ∧ m'.core = .generic8Bit ∧
      savedStatus? (Device.journal t) = some 0x3412 ∧ ¬ HeldInReset (Device.journal t) := by
  refine ⟨_, _, _, _, _, run_detection 0x12, ?_, ?_, ?_⟩
  · decide +kernel
  · decide +kernel
  · intro hheld
    exact absurd hheld.asserted (by decide +kernel)

/-- With 0x3413 the core stays in reset (`HeldInReset`). -/
theorem heldInReset_kept : (detection 0x13).2.1.core = .generic8Bit ∧
    HeldInReset (Device.journal (detection 0x13).1) := by
  have hcore : (detection 0x13).2.1.core = .generic8Bit := by decide +kernel
  have hsaved : savedStatus? (Device.journal (detection 0x13).1) = some 0x3413 := by
    decide +kernel
  obtain ⟨-, -, -, hiff⟩ := heldInReset_iff (run_detection 0x13) hcore
  refine ⟨hcore, hiff.2 fun saved h => ?_⟩
  obtain rfl : saved = 0x3413 := Option.some.inj (h.symm.trans hsaved)
  rfl

end IoController.Core
