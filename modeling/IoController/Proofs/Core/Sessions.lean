import IoController.Proofs.Bits
import IoController.Proofs.Core.Detection
import IoController.Proofs.Device.Answers

/-!
# Core — Sessions

What a detection takes over from what was there before it.  Beside each detection stands one that
nothing came before and to which the same was answered.

* `Monitor.inherited`: the bits of the status word that a detection leaves alone.
* `Disk.VirtualCard.mounted`: in which drives there are images.
* `beside_detect`: the two detections step by step.
* `detect_afresh_iff`: they come to the same just if no such bit was set and no image was in a drive
  in which the detection itself mounts none.
-/

namespace IoController

open Device (Beside answers)

/-! ### Drives -/

namespace Disk

/-- To close the source `s` that was behind a drive is answered nothing, and asks nothing of the
link. -/
theorem Source.quiet_close {s : Source} {t : Trace Device} {u : Unit} (hrun : s.close.Run t u) :
    answers t = [] ∧ Link.traffic t = [] := by
  cases s with
  | medium =>
    obtain ⟨rfl, -⟩ := Program.run_done_iff.1 hrun
    exact ⟨rfl, rfl⟩
  | image i =>
    obtain rfl := Program.run_request_iff.1 hrun
    exact ⟨rfl, rfl⟩

/-- Closing an image asks nothing of the link, and neither does closing none. -/
theorem Source.beside_close (s s' : Source) :
    Beside s.close s'.close fun u _ u' _ => u = u' := by
  intro t a hrun
  obtain ⟨t', hrun'⟩ : ∃ t', s'.close.Run t' () := by
    cases s' with
    | medium => exact ⟨[], .done ()⟩
    | image i => exact ⟨_, Program.run_request_iff.2 rfl⟩
  obtain ⟨hanswers, htraffic⟩ := quiet_close hrun
  obtain ⟨hanswers', htraffic'⟩ := quiet_close hrun'
  exact ⟨t', (), hrun', hanswers'.trans hanswers.symm, htraffic.trans htraffic'.symm⟩

namespace VirtualCard

/-- Whether there is an image in `drive`. -/
def mounted (v : VirtualCard) (drive : UInt8) : Bool :=
  (v.cache.source? drive).any Source.isMounted

/-- A card with this `medium` that nothing was done with. -/
def ofMedium (medium : Medium) : VirtualCard := { cache := { medium } }

/-- The card with an image, `file`, in the first drive. -/
def withFirst (v : VirtualCard) (file : Image) : VirtualCard :=
  { cache := (v.cache.back 0 (.image file)).invalidate, warned := false }

theorem mounted_ofMedium (medium : Medium) (drive : UInt8) :
    (ofMedium medium).mounted drive = false := by
  unfold mounted Cache.source? ofMedium
  rw [Vector.getElem?_replicate]
  split <;> rfl

/-- An image in the first `drive` is in that drive alone. -/
theorem mounted_withFirst (v : VirtualCard) (file : Image) (drive : UInt8) :
    (v.withFirst file).mounted drive = (drive = 0 || v.mounted drive) := by
  have hsource : (v.withFirst file).cache.source? drive =
      (v.cache.drives.setIfInBounds 0 (.image file))[drive.toNat]? := rfl
  rw [mounted, hsource, Vector.getElem?_setIfInBounds]
  by_cases hfirst : drive = 0
  · rw [hfirst]
    rfl
  · have hother : ¬ 0 = drive.toNat := fun h => hfirst (UInt8.toNat_inj.1 h.symm)
    rw [if_neg hother, decide_eq_false hfirst, Bool.false_or]
    rfl

end VirtualCard

/-- To mount the same image `file` in two caches fails in both or in neither. -/
theorem Cache.beside_mount (c c₀ : Cache) (file : Image) :
    Beside (c.mount 0 file) (c₀.mount 0 file) fun u p u' p' => u = u' ∧
      ((∃ e, p = (.error e, c) ∧ p' = (.error e, c₀)) ∨
        p = (.ok (), (c.back 0 (.image file)).invalidate) ∧
          p' = (.ok (), (c₀.back 0 (.image file)).invalidate)) := by
  obtain ⟨old, hold⟩ : ∃ old, c.source? 0 = some old :=
    ⟨_, Vector.getElem?_eq_getElem (by decide)⟩
  obtain ⟨old₀, hold₀⟩ : ∃ old, c₀.source? 0 = some old :=
    ⟨_, Vector.getElem?_eq_getElem (by decide)⟩
  unfold mount
  rw [hold, hold₀]
  refine .bind ((Beside.same (Link.Sends.any _)).mono fun u indexed u' indexed' hindex => ?_)
  obtain ⟨rfl, rfl, -⟩ := hindex
  cases indexed with
  | error e =>
    refine .bind ((Beside.same (Link.Sends.any _)).mono fun v _ v' _ hclose => .done ?_)
    obtain ⟨rfl, -⟩ := hclose
    exact ⟨rfl, .inl ⟨e, rfl, rfl⟩⟩
  | ok _ =>
    refine .bind ((old.beside_close old₀).mono fun v _ v' _ hclose => .done ?_)
    rw [hclose]
    exact ⟨rfl, .inr ⟨rfl, rfl⟩⟩

end Disk

open Disk (VirtualCard)

namespace Core

variable {m m₀ : Monitor} {v : VirtualCard}

/-! ### The status word -/

/-- What is asked of the link to send the status word `w`. -/
def telling (w : UInt32) : List Link.Request :=
  Link.framing .io [Link.Opcode.setStatus, w.toUInt8] ++
    Link.framing .io (Link.Opcode.setStatusWord :: Bytes.littleEndian w)

theorem telling_inj {w w' : UInt32} (h : telling w = telling w') : w = w' := by
  apply Bytes.littleEndian_inj
  simpa [telling, Link.framing, Bytes.littleEndian] using h

/-- The `status` words of two monitors are changed and sent side by side. -/
theorem beside_setStatus (m m₀ : Monitor) (status mask : UInt32) :
    Beside (m.setStatus status mask) (m₀.setStatus status mask) fun u m' u' m₀' =>
      m' = { m with status := (m.status &&& ~~~mask) ||| (status &&& mask) } ∧
      m₀' = { m₀ with status := (m₀.status &&& ~~~mask) ||| (status &&& mask) } ∧
      u = telling m'.status ∧ u' = telling m₀'.status := by
  unfold Monitor.setStatus
  generalize (m.status &&& ~~~mask) ||| (status &&& mask) = w
  generalize (m₀.status &&& ~~~mask) ||| (status &&& mask) = w₀
  refine .bind (.bind ((Beside.command _ [w.toUInt8] [w₀.toUInt8] rfl).mono
    fun u _ u' _ hfirst => ?_))
  refine (Beside.command _ (Bytes.littleEndian w) (Bytes.littleEndian w₀) rfl).mono
    fun v _ v' _ hsecond => .done ?_
  obtain ⟨rfl, rfl⟩ := hfirst
  obtain ⟨rfl, rfl⟩ := hsecond
  rw [List.append_nil, List.append_nil]
  exact ⟨rfl, rfl, rfl, rfl⟩

/-! ### The files -/

/-- The same `status` word was taken over by both monitors, or none by either. -/
def SaveAlike (m m₀ m' m₀' : Monitor) : Prop :=
  ∃ saved : Option UInt32, m' = { m with status := saved.getD m.status } ∧
    m₀' = { m₀ with status := saved.getD m₀.status }

/-- The same is read from the same `file` for two monitors. -/
theorem beside_loadStatus (m m₀ : Monitor) (file : Disk.Image) :
    Beside (m.loadStatus file) (m₀.loadStatus file) fun u m' u' m₀' =>
      u = u' ∧ SaveAlike m m₀ m' m₀' := by
  refine .bind ((Beside.same (Link.Sends.any _)).mono fun u reply u' reply' hread => ?_)
  obtain ⟨rfl, rfl, -⟩ := hread
  cases reply with
  | error e => exact .done ⟨rfl, none, rfl, rfl⟩
  | ok sector =>
    refine (beside_setStatus m m₀ _ 0xffffffff).mono fun w m' w' m₀' htold => ?_
    rw [takeOver_eq, takeOver_eq] at htold
    obtain ⟨rfl, rfl, rfl, rfl⟩ := htold
    exact ⟨rfl, some _, rfl, rfl⟩

theorem beside_loadConfigFile (m m₀ : Monitor) (name : String) :
    Beside (m.loadConfigFile name) (m₀.loadConfigFile name) fun u m' u' m₀' =>
      u = u' ∧ SaveAlike m m₀ m' m₀' := by
  have hclose (file : Disk.Image) {m' m₀' : Monitor} (hloaded : SaveAlike m m₀ m' m₀') :
      Beside (do file.close; pure m') (do file.close; pure m₀') fun u m' u' m₀' =>
        u = u' ∧ SaveAlike m m₀ m' m₀' := by
    refine .bind ((Beside.same (Link.Sends.any _)).mono fun u _ u' _ hclose => .done ?_)
    obtain ⟨rfl, -⟩ := hclose
    exact ⟨rfl, hloaded⟩
  refine .bind ((Beside.same (Link.Sends.any _)).mono fun u file? u' file?' hopen => ?_)
  obtain ⟨rfl, rfl, -⟩ := hopen
  cases file? with
  | none => exact .done ⟨rfl, none, rfl, rfl⟩
  | some file =>
    dsimp only
    by_cases hshort : file.length ≤ Monitor.maxStatusFile
    · rw [if_pos hshort, if_pos hshort]
      refine .bind ((beside_loadStatus m m₀ file).mono fun w m' w' m₀' hload => ?_)
      refine (hclose file hload.2).mono fun x _ x' _ hrest => ⟨?_, hrest.2⟩
      rw [hload.1, hrest.1]
    · rw [if_neg hshort, if_neg hshort]
      refine .bind (.done ((hclose file ⟨none, rfl, rfl⟩).mono fun x _ x' _ hrest => ?_))
      exact ⟨congrArg (u ++ ·) hrest.1, hrest.2⟩

/-- The same image was mounted in the first drive of both cards, `v` and `v₀`, or none in either. -/
def MountAlike (v v₀ v' v₀' : VirtualCard) : Prop :=
  (v' = v ∧ v₀' = v₀) ∨ ∃ file, v' = v.withFirst file ∧ v₀' = v₀.withFirst file

theorem beside_mountDisk (v v₀ : VirtualCard) (name : String) :
    Beside (Monitor.mountDisk v name) (Monitor.mountDisk v₀ name) fun u v' u' v₀' =>
      u = u' ∧ MountAlike v v₀ v' v₀' := by
  refine .bind ((Beside.same (Link.Sends.any _)).mono fun u file? u' file?' hopen => ?_)
  obtain ⟨rfl, rfl, -⟩ := hopen
  cases file? with
  | none => exact .done ⟨rfl, .inl ⟨rfl, rfl⟩⟩
  | some file =>
    refine .bind (.bind ((v.cache.beside_mount v₀.cache file).mono fun w p w' p₀ hmount => ?_))
    obtain ⟨rfl, ⟨e, rfl, rfl⟩ | ⟨rfl, rfl⟩⟩ := hmount
    · exact .done (.done ⟨rfl, .inl ⟨rfl, rfl⟩⟩)
    · refine .bind ((Beside.same (Link.Sends.any _)).mono fun x _ x' _ hannounce => ?_)
      obtain ⟨rfl, -⟩ := hannounce
      exact .done (.done ⟨rfl, .inr ⟨file, rfl, rfl⟩⟩)

/-- The same files are loaded for two cores of one `name`. -/
theorem beside_loadFiles (hname : m₀.name = m.name) (v v₀ : VirtualCard) :
    Beside (m.loadFiles v) (m₀.loadFiles v₀) fun u p u' p₀ =>
      u = u' ∧ SaveAlike m m₀ p.1 p₀.1 ∧ MountAlike v v₀ p.2 p₀.2 := by
  have hsame (ext : String) : m₀.fileName? ext = m.fileName? ext := congrArg (fileName? · ext) hname
  cases hconfig : m.fileName? "CFG" with
  | none =>
    rw [loadFiles_of_none hconfig, loadFiles_of_none ((hsame "CFG").trans hconfig)]
    exact .done ⟨rfl, ⟨none, rfl, rfl⟩, .inl ⟨rfl, rfl⟩⟩
  | some config =>
    obtain ⟨rom, disk, hrom, hdisk, heq⟩ := loadFiles_of_some hconfig v
    obtain ⟨rom', disk', hrom', hdisk', heq'⟩ := loadFiles_of_some ((hsame "CFG").trans hconfig) v₀
    obtain rfl : rom' = rom := Option.some.inj (hrom'.symm.trans ((hsame "ROM").trans hrom))
    obtain rfl : disk' = disk := Option.some.inj (hdisk'.symm.trans ((hsame "VHD").trans hdisk))
    rw [heq, heq']
    refine .bind ((beside_loadConfigFile m m₀ config).mono fun u m' u' m₀' hload => ?_)
    refine .bind ((Beside.same (Link.Sends.any _)).mono fun w _ w' _ hupload => ?_)
    refine .bind ((beside_mountDisk v v₀ disk').mono fun x v' x' v₀' hmount => .done ?_)
    refine ⟨?_, hload.2, hmount.2⟩
    rw [hload.1, hupload.1, hmount.1]

/-! ### Detection -/

/-- The bits of the status word that a detection which finds the `core` leaves alone: all of them,
or all but the one that it sets and clears by itself. -/
def Monitor.inherited (m : Monitor) (core : Core) : UInt32 :=
  if core = .generic8Bit then m.status &&& ~~~resetBit else m.status

/-- Two detections side by side: that of `m` with the card `v`, and a second one with nothing before
it. -/
structure Afresh (m : Monitor) (v : VirtualCard) (u : List Link.Request)
    (p : Monitor × VirtualCard) (u' : List Link.Request) (p₀ : Monitor × VirtualCard) : Prop where
  /-- All that the second knows of the core the first knows, too. -/
  monitor : p₀.1 = { p.1 with status := p₀.1.status }
  same_iff : u = u' ∧ p.1.status = p₀.1.status ↔ m.inherited p.1.core = 0
  mounted : ∀ drive, p.2.mounted drive = (v.mounted drive || p₀.2.mounted drive)

/-- After the same mount there is an image in a `drive` if there is one in the new card, or was
before. -/
theorem MountAlike.mounted {v' v₀' : VirtualCard} {medium : Disk.Medium}
    (h : MountAlike v (.ofMedium medium) v' v₀') (drive : UInt8) :
    v'.mounted drive = (v.mounted drive || v₀'.mounted drive) := by
  obtain ⟨rfl, rfl⟩ | ⟨file, rfl, rfl⟩ := h
  · rw [VirtualCard.mounted_ofMedium, Bool.or_false]
  · rw [VirtualCard.mounted_withFirst, VirtualCard.mounted_withFirst, VirtualCard.mounted_ofMedium,
      Bool.or_false, Bool.or_comm]

/-- What a core is told of the status word, `w` or `w₀`, from the first to the last, tells what was
left of the word before. -/
theorem told_iff {w w₀ : UInt32} {saved : Option UInt32} {before loading : List Link.Request}
    (hw : w = saved.getD (m.status ||| Monitor.resetBit) &&& ~~~Monitor.resetBit)
    (hw₀ : w₀ = saved.getD Monitor.resetBit &&& ~~~Monitor.resetBit) :
    before ++ (telling (m.status ||| Monitor.resetBit) ++ (loading ++ telling w)) =
        before ++ (telling Monitor.resetBit ++ (loading ++ telling w₀)) ∧ w = w₀ ↔
      m.status &&& ~~~Monitor.resetBit = 0 := by
  constructor
  · rintro ⟨htold, -⟩
    have hfirst := (List.append_inj (List.append_cancel_left htold) rfl).1
    rw [← or_clear_self, telling_inj hfirst]
    decide
  · intro hnone
    have hset : m.status ||| Monitor.resetBit = Monitor.resetBit := by
      rw [← clear_or_self, hnone, UInt32.zero_or]
    rw [hset] at hw ⊢
    obtain rfl : w = w₀ := hw.trans hw₀.symm
    exact ⟨rfl, rfl⟩

/-- Two 8-bit cores are readied side by side (`ready8Bit`), the second afresh. -/
theorem beside_ready8Bit (m : Monitor) (v : VirtualCard) :
    Beside (m.ready8Bit v) (({ m with status := 0 } : Monitor).ready8Bit (.ofMedium v.cache.medium))
      fun u p u' p₀ => p.1.core = m.core ∧ p₀.1 = { p.1 with status := p₀.1.status } ∧
        (u = u' ∧ p.1.status = p₀.1.status ↔ m.status &&& ~~~Monitor.resetBit = 0) ∧
        ∀ drive, p.2.mounted drive = (v.mounted drive || p₀.2.mounted drive) := by
  refine .bind ((Beside.same (Link.Sends.any v.identify)).mono fun u _ u' _ htold => ?_)
  obtain ⟨rfl, -⟩ := htold
  refine .bind ((Beside.same (Link.Sends.any _)).mono fun asking item asking' item' hasked => ?_)
  obtain ⟨rfl, rfl, -⟩ := hasked
  refine .bind ((beside_setStatus _ _ Monitor.resetBit Monitor.resetBit).mono
    fun up m₁ up' m₂ hup => ?_)
  obtain ⟨hm₁, hm₂, rfl, rfl⟩ := hup
  have hname : m₂.name = m₁.name := by rw [hm₁, hm₂]
  refine .bind ((beside_loadFiles hname v (.ofMedium v.cache.medium)).mono
    fun loading p loading' p₀ hload => ?_)
  obtain ⟨rfl, ⟨saved, hm, hm₀⟩, hmount⟩ := hload
  refine .bind ((beside_setStatus p.1 p₀.1 0 Monitor.resetBit).mono
    fun down m' down' m₀' hdown => .done ?_)
  obtain ⟨hm', hm₀', rfl, rfl⟩ := hdown
  have hset : m₁.status = m.status ||| Monitor.resetBit := by
    rw [hm₁]
    exact set_resetBit _
  have hset₀ : m₂.status = Monitor.resetBit := by
    rw [hm₂]
    exact (set_resetBit 0).trans (UInt32.zero_or)
  have hlast : m'.status = saved.getD (m.status ||| Monitor.resetBit) &&& ~~~Monitor.resetBit := by
    rw [hm', hm, hset]
    exact clear_resetBit _
  have hlast₀ : m₀'.status = saved.getD Monitor.resetBit &&& ~~~Monitor.resetBit := by
    rw [hm₀', hm₀, hset₀]
    exact clear_resetBit _
  refine ⟨?_, ?_, ?_, hmount.mounted⟩
  · rw [hm', hm, hm₁]
  · rw [hm₀', hm', hm₀, hm, hm₂, hm₁]
  · rw [hset, hset₀, List.append_nil, List.append_nil, ← List.append_assoc u asking,
      ← List.append_assoc u asking]
    exact told_iff hlast hlast₀

/-- Each detection has one beside it that is `Afresh`. -/
theorem beside_detect (m : Monitor) (v : VirtualCard) :
    Beside (m.detect v) (({} : Monitor).detect (.ofMedium v.cache.medium)) (Afresh m v) := by
  refine .bind ((Beside.same (Link.Sends.any _)).mono fun u id u' id' hid => ?_)
  obtain ⟨rfl, rfl, -⟩ := hid
  by_cases hcore : ofId id = .generic8Bit
  · rw [if_pos hcore, if_pos hcore]
    refine (beside_ready8Bit _ v).mono fun w p w' p₀ hready => ?_
    obtain ⟨hfound, hmonitor, hsame, hmounted⟩ := hready
    refine ⟨hmonitor, ?_, hmounted⟩
    rw [hfound, Monitor.inherited, if_pos hcore, List.append_cancel_left_eq]
    exact hsame
  · rw [if_neg hcore, if_neg hcore]
    refine .done ⟨rfl, ?_, fun drive => ?_⟩
    · rw [Monitor.inherited, if_neg hcore]
      change u ++ [] = u ++ [] ∧ m.status = 0 ↔ m.status = 0
      exact and_iff_right rfl
    · rw [VirtualCard.mounted_ofMedium, Bool.or_false]

/-- **What of a session is left in the next.**  Let a detection have come to its end, after whatever
there was before it.  If the same `answers` come to a monitor and a card with nothing before them
(`ofMedium`), their detection comes to its end, too, and only in one way.  It finds the same core,
name and config string.  It sends the same, leaves the same status word and has images `mounted` in
the same drives just if the status word before held no bit that a detection of that core leaves
alone (`inherited`), and there was no image in a drive in which this detection mounts none. -/
theorem detect_afresh_iff {m m' : Monitor} {v v' : VirtualCard} {t : Trace Device}
    (hrun : (m.detect v).Run t (m', v')) :
    ∃ t₀ m₀ v₀, (({} : Monitor).detect (.ofMedium v.cache.medium)).Run t₀ (m₀, v₀) ∧
      answers t₀ = answers t ∧
      (∀ t₁ p₁, (({} : Monitor).detect (.ofMedium v.cache.medium)).Run t₁ p₁ →
        answers t₁ = answers t → t₁ = t₀ ∧ p₁ = (m₀, v₀)) ∧
      m₀ = { m' with status := m₀.status } ∧ m₀.profile? = m'.profile? ∧
      (Link.traffic t = Link.traffic t₀ ∧ m'.status = m₀.status ∧ v'.mounted = v₀.mounted ↔
        m.inherited m'.core = 0 ∧ ∀ drive, v.mounted drive → v₀.mounted drive) := by
  obtain ⟨t₀, ⟨m₀, v₀⟩, hrun₀, hsame, hmonitor, hiff, hmounted⟩ := beside_detect m v t (m', v') hrun
  dsimp only at hmonitor hiff hmounted
  refine ⟨t₀, m₀, v₀, hrun₀, hsame, fun t₁ p₁ hrun₁ hsame₁ => ?_, hmonitor, ?_, ?_⟩
  · exact Device.run_unique hrun₁ hrun₀ (hsame₁.trans hsame.symm)
  · rw [hmonitor]
    rfl
  · rw [← and_assoc]
    refine and_congr hiff ⟨fun h drive hdrive => ?_, fun h => funext fun drive => ?_⟩
    · rw [← h, hmounted drive, hdrive, Bool.true_or]
    · rw [hmounted drive, Bool.or_eq_right_iff_imp]
      exact h drive

/-- A core that sends nothing but the letter B for its config string and has no files. -/
def successor : (r : Device.Request) → Device.Reply r :=
  Device.replying (fun sent => if sent = 0xff then 0xa4 else 0x42) none (.error .noMedium)

/-- Its detection after that of a core which says A. -/
def succession : Trace Device × Monitor × VirtualCard :=
  ((detection 0x13).2.1.detect (detection 0x13).2.2).record successor

theorem run_succession :
    ((detection 0x13).2.1.detect (detection 0x13).2.2).Run succession.1
      (succession.2.1, succession.2.2) := by
  unfold succession
  exact Program.run_record_of_fst rfl

/-- In `succession` what the first core saved is left in the status word. -/
theorem detect_afresh_iff_succession :
    ((detection 0x13).2.1.detect (detection 0x13).2.2).Run succession.1
        (succession.2.1, succession.2.2) ∧
      ∃ t₀ m₀ v₀, (({} : Monitor).detect (.ofMedium (detection 0x13).2.2.cache.medium)).Run t₀
          (m₀, v₀) ∧ answers t₀ = answers succession.1 ∧
        ¬ (Link.traffic succession.1 = Link.traffic t₀ ∧ succession.2.1.status = m₀.status ∧
          succession.2.2.mounted = v₀.mounted) := by
  have hleft : (detection 0x13).2.1.inherited succession.2.1.core ≠ 0 := by decide +kernel
  obtain ⟨t₀, m₀, v₀, hrun₀, hsame, -, -, -, hiff⟩ := detect_afresh_iff run_succession
  exact ⟨run_succession, t₀, m₀, v₀, hrun₀, hsame, fun halike => hleft (hiff.1 halike).1⟩

/-- After the detection that left `m` and `v` nothing is mounted and no status word is saved for the
second core, but it is told a status word that was saved for the first, keeps it, and has the first
one's image in its first drive. -/
theorem session_outlives_core : ∃ t m v t₁ p₁ t₀ p₀,
    (({} : Monitor).detect blankCard).Run t (m, v) ∧ (m.detect v).Run t₁ p₁ ∧
      (({} : Monitor).detect (.ofMedium v.cache.medium)).Run t₀ p₀ ∧ answers t₁ = answers t₀ ∧
      Link.traffic t₁ ≠ Link.traffic t₀ ∧ p₁.1.status = 0x3412 ∧ p₀.1.status = 0 ∧
      p₁.2.mounted 0 = true ∧ p₀.2.mounted 0 = false :=
  ⟨_, _, _, _, _, _, _, run_detection 0x13, Program.run_record successor _,
    Program.run_record successor _, by decide +kernel⟩

end Core

end IoController
