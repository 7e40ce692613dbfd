import IoController.Link.Upload
import IoController.Proofs.Device.Frames
import IoController.Proofs.Program.Ensures

/-!
# Link — Upload

Loading a file into the core from beginning to end, whatever fails on the way.

* `Upload.Streams`: what sending the contents comes to, sector by sector.
* `Upload.Loads`: what loading a file comes to, in three cases.
* `Upload.closed_iff`: a core that is told that the contents begin is told that they have ended,
  unless the file cannot be wound back to its beginning.  `Upload.left_open` shows one that waits.
-/

namespace IoController.Link.Upload

open Device (Deed Does files frames journal traces)

variable {image : Disk.Image} {file : Disk.File} {index : UInt8} {ext : String} {wanted : Nat}
  {ds : List Deed} {result : Except Disk.Error Unit} {e : Disk.Error}

/-! ### The contents -/

/-- What sending so many bytes of a `file` comes to.  Each sector that is read is sent, cut to what
is still wanted; one that cannot be read is the last thing tried. -/
inductive Streams (file : Disk.File) : Nat → List Deed → Except Disk.Error Unit → Prop where
  | done : Streams file 0 [] (.ok ())
  | unread {wanted : Nat} {e : Disk.Error} (more : 0 < wanted) :
      Streams file wanted [.file (.read file) (.error e)] (.error e)
  | chunk {wanted : Nat} {sector : Disk.Sector} {bytes : List (UInt8 × UInt8)} {ds : List Deed}
      {result : Except Disk.Error Unit} (more : 0 < wanted)
      (sent : bytes.map (·.1) = 0x54 :: sector.toList.take wanted)
      (rest : Streams file (wanted - Disk.sectorSize) ds result) :
      Streams file wanted (.file (.read file) (.ok sector) :: .frame .fpga bytes :: ds) result

/-- A sector that is read and sent, cut to what is `wanted`, and then what is left. -/
theorem does_chunk {payload : Disk.Sector → Bytes} {next : Action (Except Disk.Error Unit)}
    (more : 0 < wanted) (hpayload : ∀ sector, payload sector = sector.toList.take wanted)
    (hnext : Does next (Streams image.file (wanted - Disk.sectorSize))) :
    Does (do
      match ← image.readNext with
      | .error e => pure (.error e)
      | .ok sector => do
        sendData (payload sector)
        next) (Streams image.file wanted) := by
  refine .bind ((Device.does_file _).mono fun ds reply hread => ?_)
  rw [hread]
  cases reply with
  | error e => exact .done (.unread more)
  | ok sector =>
    refine .bind ((Device.does_frame _ _).mono fun ds' _ hframe => ?_)
    obtain ⟨bytes, rfl, hsent⟩ := hframe
    rw [hpayload] at hsent
    exact hnext.mono fun ds'' result hrest => .chunk more hsent hrest

/-- The contents are sent as `Streams` says, the `full` sectors and then the `rest`. -/
theorem does_sendContents (image : Disk.Image) (full : Nat) {rest : Nat}
    (h : rest < Disk.sectorSize) :
    Does (sendContents image full rest) (Streams image.file (full * Disk.sectorSize + rest)) := by
  induction full with
  | zero =>
    rw [Nat.zero_mul, Nat.zero_add, sendContents]
    by_cases hrest : rest = 0
    · rw [if_pos hrest, hrest]
      exact .done .done
    · rw [if_neg hrest]
      refine does_chunk (Nat.pos_of_ne_zero hrest) (fun sector => rfl) (.done ?_)
      rw [Nat.sub_eq_zero_of_le (Nat.le_of_lt h)]
      exact .done
  | succ full ih =>
    have hwanted : (full + 1) * Disk.sectorSize + rest =
        full * Disk.sectorSize + rest + Disk.sectorSize := by
      rw [Nat.succ_mul, Nat.add_right_comm]
    rw [hwanted]
    refine does_chunk (Nat.add_pos_right _ (by decide)) (fun sector => ?_) ?_
    · refine (List.take_of_length_le ?_).symm
      rw [Vector.length_toList]
      exact Nat.le_add_left _ _
    · rwa [Nat.add_sub_cancel]

/-! ### A whole upload -/

/-- What is sent before the contents: the `slot`, the directory `entry` and the start marker. -/
structure Opening (image : Disk.Image) (index : UInt8) (ext : String)
    (slot entry start : List (UInt8 × UInt8)) : Prop where
  slot : slot.map (·.1) = [0x55, index]
  entry : entry.map (·.1) = 0x56 :: directoryEntry ext (.ofNat image.length.toNat)
  start : start.map (·.1) = [0x53, 0xff]

/-- What loading the `image` comes to. -/
inductive Loads (image : Disk.Image) (index : UInt8) (ext : String) :
    List Deed → Except Disk.Error Unit → Prop where
  | refused (long : 0xffffffff < image.length.toNat) :
      Loads image index ext [] (.error .outOfBounds)
  /-- The file cannot be wound back, and the core is not told. -/
  | unsought {slot entry start : List (UInt8 × UInt8)} {e : Disk.Error}
      (fits : image.length.toNat ≤ 0xffffffff)
      (opening : Opening image index ext slot entry start) :
      Loads image index ext
        [.frame .fpga slot, .frame .fpga entry, .frame .fpga start,
          .file (.seek image.file 0) (.error e)] (.error e)
  | sent {slot entry start last : List (UInt8 × UInt8)} {ds : List Deed}
      {result : Except Disk.Error Unit} (fits : image.length.toNat ≤ 0xffffffff)
      (opening : Opening image index ext slot entry start)
      (streams : Streams image.file image.length.toNat ds result)
      (finish : last.map (·.1) = [0x53, 0x00]) :
      Loads image index ext
        (.frame .fpga slot :: .frame .fpga entry :: .frame .fpga start ::
          .file (.seek image.file 0) (.ok ()) :: (ds ++ [.frame .fpga last])) result

/-- An `upload` comes to one of these. -/
theorem does_upload (image : Disk.Image) (index : UInt8) (ext : String) :
    Does (upload image index ext) (Loads image index ext) := by
  unfold upload
  dsimp only
  by_cases hlong : 0xffffffff < image.length.toNat
  · rw [if_pos hlong]
    exact .done (.refused hlong)
  · rw [if_neg hlong]
    have hfits : image.length.toNat ≤ 0xffffffff := Nat.le_of_not_lt hlong
    refine .bind ((Device.does_frame _ _).mono fun _ _ hslot => ?_)
    refine .bind ((Device.does_frame _ _).mono fun _ _ hentry => ?_)
    refine .bind ((Device.does_frame _ _).mono fun _ _ hstart => ?_)
    obtain ⟨slot, rfl, hslot⟩ := hslot
    obtain ⟨entry, rfl, hentry⟩ := hentry
    obtain ⟨start, rfl, hstart⟩ := hstart
    refine .bind ((Device.does_file _).mono fun _ reply hseek => ?_)
    rw [hseek]
    cases reply with
    | error e => exact .done (.unsought hfits ⟨hslot, hentry, hstart⟩)
    | ok u =>
      have hrest : image.length.toNat % Disk.sectorSize < Disk.sectorSize :=
        Nat.mod_lt _ (by decide)
      refine .bind ((does_sendContents image _ hrest).mono fun ds result hstreams => ?_)
      rw [Nat.div_add_mod'] at hstreams
      refine .bind ((Device.does_frame _ _).mono fun _ _ hlast => .done ?_)
      obtain ⟨last, rfl, hlast⟩ := hlast
      exact .sent hfits ⟨hslot, hentry, hstart⟩ hstreams hlast

/-- An upload that succeeds has wound the file of the `image` back to its beginning. -/
theorem Loads.seek_mem (h : Loads image index ext ds (.ok ())) :
    .file (.seek image.file 0) (.ok ()) ∈ ds := by
  cases h with
  | sent fits opening streams finish => simp

/-! ### Markers -/

/-- A `frame` that says that the contents begin or have ended. -/
def isMarker (frame : Target × Bytes) : Bool := frame.1 = .fpga && frame.2.head? = some 0x53

/-- By the `frames` the core is told nothing of a file, or both where its contents begin and, last
of all, that they have ended. -/
def Closed (frames : List (Target × Bytes)) : Prop :=
  frames = [] ∨ frames.filter isMarker = [(.fpga, [0x53, 0xff]), (.fpga, [0x53, 0x00])] ∧
    frames.getLast? = some (.fpga, [0x53, 0x00])

instance (frames : List (Target × Bytes)) : Decidable (Closed frames) :=
  inferInstanceAs (Decidable (_ ∨ _))

/-- There is no marker (`isMarker`) among the contents. -/
theorem Streams.unmarked (h : Streams file wanted ds result) :
    (frames ds).filter isMarker = [] := by
  induction h with
  | done => rfl
  | unread more => rfl
  | chunk more sent rest ih =>
    rw [Device.frames_file, Device.frames_frame, sent]
    exact ih

/-- Sending the contents fails just as a read does (`fileErrors`). -/
theorem Streams.error_iff (h : Streams file wanted ds result) (e : Disk.Error) :
    result = .error e ↔ e ∈ Device.fileErrors ds := by
  induction h with
  | done => simp [Device.fileErrors]
  | unread more => simp [Device.fileErrors, Deed.fileError?, eq_comm]
  | chunk more sent rest ih => exact ih

/-- While the contents are sent the `file` is only read. -/
theorem Streams.seek_not_mem (h : Streams file wanted ds result) (file' : Disk.File) (lba : UInt32)
    (reply : Except Disk.Error Unit) : .file (.seek file' lba) reply ∉ ds := by
  induction h with
  | done => exact List.not_mem_nil
  | unread more => simp
  | chunk more sent rest ih => simpa using ih

/-- The frames before the contents of the `image`. -/
def openingFrames (image : Disk.Image) (index : UInt8) (ext : String) : List (Target × Bytes) :=
  [(.fpga, [0x55, index]), (.fpga, 0x56 :: directoryEntry ext (.ofNat image.length.toNat)),
    (.fpga, [0x53, 0xff])]

/-- What is opened, sent and ended is `Closed`. -/
theorem closed_sent {contents : List (Target × Bytes)} (h : contents.filter isMarker = []) :
    Closed (openingFrames image index ext ++ (contents ++ [(.fpga, [0x53, 0x00])])) := by
  refine .inr ⟨?_, ?_⟩
  · rw [List.filter_append, List.filter_append, h]
    rfl
  · rw [← List.append_assoc, List.getLast?_concat]

theorem not_closed_openingFrames : ¬ Closed (openingFrames image index ext) := by
  rintro (hnothing | ⟨-, hlast⟩)
  · cases hnothing
  · cases hlast

theorem frames_opening {slot entry start : List (UInt8 × UInt8)}
    (h : Opening image index ext slot entry start) (ds : List Deed) :
    frames (.frame .fpga slot :: .frame .fpga entry :: .frame .fpga start :: ds) =
      openingFrames image index ext ++ frames ds := by
  simp only [Device.frames_frame, h.slot, h.entry, h.start]
  rfl

/-- **A transfer that is begun is ended.**  Take any run of an `upload`.  The core is told nothing,
or it is told once that the contents begin and, last of all, once that they have ended (`Closed`),
exactly unless winding the file back to its beginning fails.  If that fails, the start marker is the
last that the core is told (`openingFrames`).  The upload fails just as the file does
(`fileErrors`), which may also be too long. -/
theorem closed_iff (image : Disk.Image) (index : UInt8) (ext : String) {t : Trace Device}
    {result : Except Disk.Error Unit} (h : (upload image index ext).Run t result) :
    t = traces (journal t) ∧
    (Closed (frames (journal t)) ↔ ∀ e, .file (.seek image.file 0) (.error e) ∉ journal t) ∧
    (∀ e, .file (.seek image.file 0) (.error e) ∈ journal t →
      frames (journal t) = openingFrames image index ext ∧
        files (journal t) = [.file (.seek image.file 0) (.error e)]) ∧
    ∀ e, result = .error e ↔ 0xffffffff < image.length.toNat ∧ e = .outOfBounds ∨
      e ∈ Device.fileErrors (journal t) := by
  obtain ⟨ht, hloads⟩ := (does_upload image index ext).journal h
  refine ⟨ht, ?_⟩
  generalize journal t = ds at hloads ⊢
  cases hloads with
  | refused long =>
    refine ⟨⟨fun _ e => List.not_mem_nil, fun _ => .inl rfl⟩, fun e he => (nomatch he), fun e => ?_⟩
    simp [long, Device.fileErrors, eq_comm]
  | @unsought slot entry start e fits opening =>
    have hframes : frames [.frame .fpga slot, .frame .fpga entry, .frame .fpga start,
        .file (.seek image.file 0) (.error e)] = openingFrames image index ext :=
      frames_opening opening _
    rw [hframes]
    refine ⟨⟨fun hclosed => (not_closed_openingFrames hclosed).elim, fun hsought => ?_⟩,
      fun e' he' => ⟨rfl, ?_⟩, fun e' => ?_⟩
    · exact absurd (by simp) (hsought e)
    · obtain rfl : e' = e := by simpa using he'
      rfl
    · simp [Nat.not_lt.2 fits, Device.fileErrors, Deed.fileError?, eq_comm]
  | @sent slot entry start last ds result fits opening streams finish =>
    have hseek := streams.seek_not_mem image.file 0
    rw [frames_opening opening, Device.frames_file, Device.frames_append, Device.frames_frame,
      finish]
    refine ⟨⟨fun _ e => ?_, fun _ => closed_sent streams.unmarked⟩, fun e he => ?_, fun e => ?_⟩
    · simpa using hseek (.error e)
    · exact absurd he (by simpa using hseek (.error e))
    · change _ ↔ _ ∨ e ∈ Device.fileErrors (ds ++ [.frame .fpga last])
      have hlast : Device.fileErrors [.frame .fpga last] = [] := rfl
      rw [Device.fileErrors_append, hlast, List.append_nil, streams.error_iff e]
      exact ⟨.inr, fun hfails => hfails.resolve_left fun hlong => Nat.not_lt.2 fits hlong.1⟩

/-- Surroundings in which no file can be wound back. -/
def stuck : (r : Device.Request) → Device.Reply r
  | .file (.seek _ _) => .error .io
  | r => Device.replying id none (.error .io) r

/-- The core is told that the contents begin, and waits for them. -/
theorem left_open :
    let run := (upload ⟨⟨0⟩, 2⟩ 0 "rom").record stuck
    (upload ⟨⟨0⟩, 2⟩ 0 "rom").Run run.1 run.2 ∧
      (frames (journal run.1)).getLast? = some (.fpga, [0x53, 0xff]) ∧
      ¬ Closed (frames (journal run.1)) :=
  ⟨Program.run_record _ _, by decide +kernel, by decide +kernel⟩

/-- Surroundings in which no file can be read. -/
def unreadable : (r : Device.Request) → Device.Reply r := Device.replying id none (.error .io)

/-- The `upload` of a file that cannot be read fails, and the transfer is ended all the same. -/
theorem closed_iff_unreadable :
    let run := (upload ⟨⟨0⟩, 2⟩ 0 "rom").record unreadable
    Closed (frames (journal run.1)) ∧
      (∀ e, .file (.seek ⟨0⟩ 0) (.error e) ∉ journal run.1) ∧ run.2 = .error .io := by
  intro run
  have hrun := Program.run_record unreadable (upload ⟨⟨0⟩, 2⟩ 0 "rom")
  obtain ⟨-, hclosed, -, herror⟩ := closed_iff ⟨⟨0⟩, 2⟩ 0 "rom" hrun
  have hframes : Closed (frames (journal run.1)) := by decide +kernel
  exact ⟨hframes, hclosed.1 hframes, (herror .io).2 (.inr (by decide +kernel))⟩

end IoController.Link.Upload
