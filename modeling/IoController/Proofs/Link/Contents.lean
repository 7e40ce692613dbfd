import IoController.Proofs.Bits
import IoController.Proofs.Link.Upload

/-!
# Link — Contents

What of a file gets over to the core.

* `Upload.IsEntry`: what a directory entry says.
* `Upload.IsCut`: sectors as chunks, so many bytes in all.
* `Upload.contents_exact`: an upload sends the file as it is read, as far as it can be read.
-/

namespace IoController.Link.Upload

open Device (Deed files frames journal traces)

variable {file : Disk.File} {wanted : Nat} {sectors : List Disk.Sector} {ds : List Deed}
  {result : Except Disk.Error Unit}

/-! ### The directory entry -/

/-- A letter `b` of the alphabet as a capital; any other byte as it is. -/
def capital (b : UInt8) : UInt8 := (Char.ofUInt8 b).toUpper.toUInt8

/-- What a directory `entry` says: an extension in capitals, padded with spaces, and a size.  All
else is zero. -/
structure IsEntry (ext : String) (size : Nat) (entry : Bytes) : Prop where
  length : entry.length = 32
  name : entry.take 8 = List.replicate 8 0
  extension : (entry.drop 8).take 3 = (ext.toUTF8.toList.map capital).takeD 3 0x20
  blank : (entry.drop 11).take 17 = List.replicate 17 0
  size : Nat.ofDigits 256 ((entry.drop 28).map (·.toNat)) = size

theorem capital_eq (b : UInt8) :
    (if 0x61 ≤ b && b ≤ 0x7a then b - 0x20 else b) = capital b :=
  (by decide +kernel : ∀ i : Fin 256, (if 0x61 ≤ UInt8.ofFin i && UInt8.ofFin i ≤ 0x7a then
    UInt8.ofFin i - 0x20 else .ofFin i) = capital (.ofFin i)) b.toFin

theorem take_padded (bs : Bytes) : (bs ++ [0x20, 0x20, 0x20]).take 3 = bs.takeD 3 0x20 := by
  match bs with
  | [] | [_] | [_, _] => rfl
  | _ :: _ :: _ :: _ => rfl

/-- The `extension` is in capitals and padded with spaces. -/
theorem extension_eq (ext : String) :
    extension ext = (ext.toUTF8.toList.map capital).takeD 3 0x20 := by
  unfold extension
  simp only [capital_eq]
  exact take_padded _

/-- What `directoryEntry` makes is such an entry. -/
theorem isEntry_directoryEntry (ext : String) {size : Nat} (h : size ≤ 0xffffffff) :
    IsEntry ext size (directoryEntry ext (.ofNat size)) := by
  have hsize : (UInt32.ofNat size).toNat = size := UInt32.toNat_ofNat_of_lt' (Nat.lt_succ_of_le h)
  rw [directoryEntry, extension_eq]
  exact ⟨rfl, rfl, rfl, rfl, (Bytes.ofDigits_littleEndian _).trans hsize⟩

/-! ### Chunks -/

/-- Each of the first `n` sectors begins within `wanted` bytes. -/
def Reaches (wanted n : Nat) : Prop := ∀ k < n, k * Disk.sectorSize < wanted

theorem reaches_succ_iff (wanted n : Nat) :
    Reaches wanted (n + 1) ↔ 0 < wanted ∧ Reaches (wanted - Disk.sectorSize) n := by
  constructor
  · intro h
    refine ⟨(Nat.zero_mul Disk.sectorSize).symm ▸ h 0 n.succ_pos, fun k hk => ?_⟩
    have hnext := h (k + 1) (Nat.succ_lt_succ hk)
    rw [Nat.succ_mul] at hnext
    exact Nat.lt_sub_of_add_lt hnext
  · rintro ⟨hfirst, hrest⟩ k hk
    cases k with
    | zero => rwa [Nat.zero_mul]
    | succ k =>
      rw [Nat.succ_mul]
      exact Nat.add_lt_of_lt_sub (hrest k (Nat.lt_of_succ_lt_succ hk))

/-- Sectors cut to `wanted` bytes in all. -/
def cut : Nat → List Disk.Sector → List Bytes
  | _, [] => []
  | wanted, sector :: sectors =>
    sector.toList.take wanted :: cut (wanted - Disk.sectorSize) sectors

/-- The `chunks` are the `sectors` one by one, whole but for the last, and `wanted` bytes in all. -/
structure IsCut (wanted : Nat) (sectors : List Disk.Sector) (chunks : List Bytes) : Prop where
  length : chunks.length = sectors.length
  flatten : chunks.flatten = (sectors.flatMap (·.toList)).take wanted
  whole : ∀ chunk ∈ chunks.dropLast, chunk.length = Disk.sectorSize
  bounds : ∀ chunk ∈ chunks, 0 < chunk.length ∧ chunk.length ≤ Disk.sectorSize

theorem length_cut (wanted : Nat) (sectors : List Disk.Sector) :
    (cut wanted sectors).length = sectors.length := by
  induction sectors generalizing wanted with
  | nil => rfl
  | cons sector sectors ih => exact congrArg (· + 1) (ih _)

theorem flatten_cut (wanted : Nat) (sectors : List Disk.Sector) :
    (cut wanted sectors).flatten = (sectors.flatMap (·.toList)).take wanted := by
  induction sectors generalizing wanted with
  | nil => exact List.take_nil.symm
  | cons sector sectors ih =>
    rw [cut, List.flatten_cons, ih, List.flatMap_cons, List.take_append, Vector.length_toList]

theorem dropLast_cut (wanted : Nat) (sectors : List Disk.Sector) :
    (cut wanted sectors).dropLast = cut wanted sectors.dropLast := by
  induction sectors generalizing wanted with
  | nil => rfl
  | cons sector sectors ih =>
    cases sectors with
    | nil => rfl
    | cons next sectors => exact congrArg (_ :: ·) (ih _)

theorem length_take_sector (sector : Disk.Sector) (wanted : Nat) :
    (sector.toList.take wanted).length = min wanted Disk.sectorSize := by
  rw [List.length_take, Vector.length_toList]

theorem length_contents (sectors : List Disk.Sector) :
    (sectors.flatMap (·.toList)).length = sectors.length * Disk.sectorSize := by
  simp [List.length_flatMap, List.map_const']

theorem cut_whole (h : sectors.length * Disk.sectorSize ≤ wanted) :
    ∀ chunk ∈ cut wanted sectors, chunk.length = Disk.sectorSize := by
  induction sectors generalizing wanted with
  | nil => exact fun chunk hchunk => nomatch hchunk
  | cons sector sectors ih =>
    rw [List.length_cons, Nat.succ_mul] at h
    intro chunk hchunk
    rcases List.mem_cons.1 hchunk with rfl | hrest
    · rw [length_take_sector]
      exact Nat.min_eq_right (Nat.le_of_add_left_le h)
    · exact ih (Nat.le_sub_of_add_le h) chunk hrest

theorem cut_bounds (h : Reaches wanted sectors.length) :
    ∀ chunk ∈ cut wanted sectors, 0 < chunk.length ∧ chunk.length ≤ Disk.sectorSize := by
  induction sectors generalizing wanted with
  | nil => exact fun chunk hchunk => nomatch hchunk
  | cons sector sectors ih =>
    obtain ⟨hmore, hnext⟩ := (reaches_succ_iff _ _).1 h
    intro chunk hchunk
    rcases List.mem_cons.1 hchunk with rfl | hrest
    · rw [length_take_sector]
      exact ⟨Nat.lt_min.2 ⟨hmore, by decide⟩, Nat.min_le_right _ _⟩
    · exact ih hnext chunk hrest

/-- What is `cut` so is such chunks, if every sector begins within what is wanted. -/
theorem isCut_cut (h : Reaches wanted sectors.length) :
    IsCut wanted sectors (cut wanted sectors) where
  length := length_cut wanted sectors
  flatten := flatten_cut wanted sectors
  whole := by
    rw [dropLast_cut]
    refine cut_whole ?_
    rw [List.length_dropLast]
    cases hlength : sectors.length with
    | zero => simp
    | succ n => exact Nat.le_of_lt (h n (hlength ▸ n.lt_succ_self))
  bounds := cut_bounds h

/-! ### A whole upload -/

/-- What is asked of a `file` after its last sector that could be read. -/
def lastRead (file : Disk.File) : Except Disk.Error Unit → List Deed
  | .ok () => []
  | .error e => [.file (.read file) (.error e)]

/-- The `sectors` that were read of a `file` and sent, if `wanted` bytes of it were to be sent. -/
structure Streamed (file : Disk.File) (wanted : Nat) (ds : List Deed)
    (result : Except Disk.Error Unit) (sectors : List Disk.Sector) : Prop where
  frames : frames ds = (cut wanted sectors).map fun chunk => (.fpga, 0x54 :: chunk)
  files : files ds = sectors.map (fun sector => .file (.read file) (.ok sector)) ++
    lastRead file result
  reaches : Reaches wanted sectors.length
  complete : result = .ok () → wanted ≤ sectors.length * Disk.sectorSize
  short : ∀ e, result = .error e → sectors.length * Disk.sectorSize < wanted

/-- The sending of contents comes to sectors that are read and chunks that are sent (`Streamed`). -/
theorem Streams.streamed (h : Streams file wanted ds result) :
    ∃ sectors, Streamed file wanted ds result sectors := by
  -- along the sectors, each of which begins before the end of what is wanted
  induction h with
  | done =>
    exact ⟨[], rfl, rfl, fun k hk => (nomatch hk), fun _ => Nat.le_refl 0, fun e he => nomatch he⟩
  | unread more =>
    exact ⟨[], rfl, rfl, fun k hk => (nomatch hk), fun hok => (nomatch hok), fun e he => by simpa⟩
  | @chunk wanted sector bytes ds result more sent rest ih =>
    obtain ⟨sectors, hframes, hfiles, hreaches, hcomplete, hshort⟩ := ih
    have hlength : (sector :: sectors).length * Disk.sectorSize =
        sectors.length * Disk.sectorSize + Disk.sectorSize := Nat.succ_mul _ _
    refine ⟨sector :: sectors, ?_, congrArg (_ :: ·) hfiles,
      (reaches_succ_iff _ _).2 ⟨more, hreaches⟩, fun hok => ?_, fun e he => ?_⟩
    · rw [Device.frames_file, Device.frames_frame, sent, hframes]
      rfl
    · rw [hlength]
      exact Nat.sub_le_iff_le_add.1 (hcomplete hok)
    · rw [hlength]
      exact Nat.add_lt_of_lt_sub (hshort e he)

/-- How many sectors an `image` of so many bytes has, a last one that is not full included. -/
theorem toNat_sectorCount {image : Disk.Image} (h : image.length.toNat ≤ 0xffffffff) :
    image.sectorCount.toNat =
      (image.length.toNat + (Disk.sectorSize - 1)) / Disk.sectorSize := by
  have hcount : (image.length.toNat + (Disk.sectorSize - 1)) / Disk.sectorSize ≤ 0xffffffff := by
    unfold Disk.sectorSize
    omega
  rw [Disk.Image.sectorCount, Nat.min_eq_right hcount,
    UInt32.toNat_ofNat_of_lt' (Nat.lt_succ_of_le hcount)]

theorem lt_sectors {n : Nat} (h : n * Disk.sectorSize < wanted) :
    n < (wanted + (Disk.sectorSize - 1)) / Disk.sectorSize := by
  unfold Disk.sectorSize at *
  omega

theorem eq_sectors {n : Nat} (h : Reaches wanted n) (hall : wanted ≤ n * Disk.sectorSize) :
    n = (wanted + (Disk.sectorSize - 1)) / Disk.sectorSize := by
  refine Nat.le_antisymm ?_ ?_
  · cases n with
    | zero => exact Nat.zero_le _
    | succ n => exact lt_sectors (h n n.lt_succ_self)
  · unfold Disk.sectorSize at *
    omega

/-- **A file goes over as it is.**  Whatever the surroundings answer, the `upload` of an `image`
whose size has 32 bits comes to an end.  If the file is wound back to its beginning, the core is
told the slot, a directory entry with the extension and the size (`IsEntry`), and that the contents
begin; then come the `chunks`; and last it is told that they have ended.  Of the file nothing is
asked but its `sectors` from the first on, and the contents are these sectors, a chunk for each
(`IsCut`).  All chunks but the last have 512 bytes, and it is cut to the size of the file.  If every
read succeeds, there are as many as the file has sectors, and the file is sent whole; otherwise the
chunks are those of the sectors before the first that cannot be read (`lastRead`). -/
theorem contents_exact (image : Disk.Image) (index : UInt8) (ext : String)
    (h : image.length.toNat ≤ 0xffffffff) :
    (∀ {σ : Type} (step : σ → Exchange Device → σ → Prop),
      (∀ s r, ∃ x s', step s ⟨r, x⟩ s') → ∀ s, ∃ t result s',
        (upload image index ext).Run t result ∧ Trace.Along step t s s') ∧
    ∀ t result, (upload image index ext).Run t result →
      .file (.seek image.file 0) (.ok ()) ∈ journal t →
      t = traces (journal t) ∧ ∃ entry sectors chunks,
        IsEntry ext image.length.toNat entry ∧
        frames (journal t) = [(.fpga, [0x55, index]), (.fpga, 0x56 :: entry),
          (.fpga, [0x53, 0xff])] ++ (chunks.map fun chunk => (.fpga, 0x54 :: chunk)) ++
          [(.fpga, [0x53, 0x00])] ∧
        files (journal t) = .file (.seek image.file 0) (.ok ()) ::
          ((sectors.map fun sector => .file (.read image.file) (.ok sector)) ++
            lastRead image.file result) ∧
        IsCut image.length.toNat sectors chunks ∧
        (result = .ok () → sectors.length = image.sectorCount.toNat ∧
          chunks.flatten.length = image.length.toNat) ∧
        ∀ e, result = .error e → sectors.length < image.sectorCount.toNat ∧
          ∀ chunk ∈ chunks, chunk.length = Disk.sectorSize := by
  refine ⟨fun step hstep s => Program.exists_along hstep _ s, fun t result hrun hseek => ?_⟩
  obtain ⟨ht, hloads⟩ := (does_upload image index ext).journal hrun
  refine ⟨ht, ?_⟩
  generalize journal t = ds at hloads hseek ⊢
  cases hloads with
  | refused long => exact absurd h (Nat.not_le.2 long)
  | unsought fits opening => simp at hseek
  | @sent slot entry start last ds result fits opening streams finish =>
    obtain ⟨sectors, hframes, hfiles, hreaches, hcomplete, hshort⟩ := streams.streamed
    have hcut := isCut_cut hreaches
    refine ⟨_, sectors, _, isEntry_directoryEntry ext h, ?_, ?_, hcut, fun hok => ?_,
      fun e he => ?_⟩
    · rw [frames_opening opening, Device.frames_file, Device.frames_append, Device.frames_frame,
        finish, hframes, List.append_assoc]
      rfl
    · simp [hfiles]
    · rw [toNat_sectorCount h]
      refine ⟨eq_sectors hreaches (hcomplete hok), ?_⟩
      rw [hcut.flatten, List.length_take, length_contents]
      exact Nat.min_eq_left (hcomplete hok)
    · rw [toNat_sectorCount h]
      exact ⟨lt_sectors (hshort e he), cut_whole (Nat.le_of_lt (hshort e he))⟩

/-- A file of six hundred bytes, all alike. -/
def letters : (r : Device.Request) → Device.Reply r :=
  Device.replying id none (.ok (.replicate _ 0x41))

/-- Two sectors are read of `letters`, and 512 bytes and 88 bytes are sent. -/
theorem contents_exact_letters :
    let run := (upload ⟨⟨0⟩, 600⟩ 3 "ro").record letters
    (frames (journal run.1)).map (·.2.length) = [2, 33, 2, 513, 89, 2] ∧
      ∃ entry sectors chunks, IsEntry "ro" 600 entry ∧ sectors.length = 2 ∧
        IsCut 600 sectors chunks ∧ chunks.flatten.length = 600 := by
  intro run
  have hrun := Program.run_record letters (upload ⟨⟨0⟩, 600⟩ 3 "ro")
  have hok : run.2 = .ok () := by decide +kernel
  have hseek : .file (.seek ⟨0⟩ 0) (.ok ()) ∈ journal run.1 :=
    Loads.seek_mem (hok ▸ ((does_upload _ _ _).journal hrun).2)
  obtain ⟨-, hsent⟩ := contents_exact ⟨⟨0⟩, 600⟩ 3 "ro" (by decide)
  obtain ⟨-, entry, sectors, chunks, hentry, -, -, hcut, hwhole, -⟩ := hsent _ _ hrun hseek
  obtain ⟨hsectors, hlength⟩ := hwhole hok
  exact ⟨by decide +kernel, entry, sectors, chunks, hentry, hsectors, hcut, hlength⟩

end IoController.Link.Upload
