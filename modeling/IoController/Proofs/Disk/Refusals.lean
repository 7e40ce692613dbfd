import IoController.Proofs.Disk.Bounds
import IoController.Proofs.Disk.Coherence

/-!
# Disk — Refusals

Requests that are turned down, and that nothing comes of them.

* `Cache.Lacks`: a sector that there is not, and the error that says so.
* `Cache.Refuses`: the requests that are turned down, each with its answer.  `Cache.TurnsDown`:
  what that means.
* `Cache.refused_unchanged`: a request that is turned down gets its answer, leaves the cache as it
  was, and has nothing asked of the medium or of an image that is mounted.
-/

namespace IoController.Disk

open Device (Deed traces)

/-- Whether a request to the surroundings is about the `image` that the operation hands over, which
is tried and given back. -/
def Operation.Tries : Operation → Device.Request → Prop
  | mount _ image, r => r = .file (.index image.file) ∨ r = .file (.close image.file)
  | _, _ => False

/-- The building of an index comes to `indexed`, whenever it is tried in `t`. -/
def Indexing (indexed : Except Error Unit) (t : Trace Device) : Prop :=
  ∀ file reply, ⟨.file (.index file), reply⟩ ∈ t → reply = indexed

namespace Cache

variable {c : Cache} {drive : UInt8} {lba : UInt32} {e : Error} {indexed : Except Error Unit}

/-! ### Sectors that there are not -/

/-- The drive does not have the sector `lba`, and the error says why. -/
inductive Lacks (c : Cache) (drive : UInt8) (lba : UInt32) : Error → Prop where
  | unknown (h : driveCount ≤ drive.toNat) : Lacks c drive lba .invalidDrive
  | pastImage {image : Image} (source : c.source? drive = some (.image image))
      (past : image.sectorCount ≤ lba) : Lacks c drive lba .outOfBounds
  | pastMedium (source : c.source? drive = some .medium) (known : c.medium.sectors ≠ 0)
      (past : c.medium.sectors ≤ lba) : Lacks c drive lba .outOfBounds

/-- A `drive` that is there and lacks the sector has something behind it that does not cover it. -/
theorem Lacks.cases (h : c.Lacks drive lba e) :
    (c.source? drive = none ∧ e = .invalidDrive) ∨
      ∃ s, c.source? drive = some s ∧ c.covers s lba = false ∧ e = .outOfBounds := by
  cases h with
  | unknown h => exact .inl ⟨source?_eq_none_iff.2 h, rfl⟩
  | pastImage source past =>
    refine .inr ⟨_, source, ?_, rfl⟩
    exact decide_eq_false (UInt32.not_lt.2 past)
  | pastMedium source known past =>
    refine .inr ⟨_, source, ?_, rfl⟩
    rw [covers, Medium.contains, beq_false_of_ne known, decide_eq_false (UInt32.not_lt.2 past)]
    rfl

theorem read_of_lacks (h : c.Lacks drive lba e) : c.read drive lba = pure (.error e, c) := by
  obtain ⟨hs, rfl⟩ | ⟨s, hs, houtside, rfl⟩ := h.cases
  · rw [read, hs]
  · rw [read, hs]
    dsimp only
    rw [if_neg (Bool.eq_false_iff.1 houtside)]

/-- There is no sector after the last number, the `reservedLba`. -/
theorem readAhead_reserved (c : Cache) (drive : UInt8) :
    c.readAhead drive reservedLba = pure (false, c) := by
  unfold readAhead
  cases c.source? drive with
  | none => rfl
  | some s => exact if_pos rfl

theorem readAhead_of_lacks (h : c.Lacks drive (lba + 1) e) :
    c.readAhead drive lba = pure (false, c) := by
  unfold readAhead
  obtain ⟨hs, -⟩ | ⟨s, hs, houtside, -⟩ := h.cases
  · rw [hs]
  · rw [hs]
    dsimp only
    rw [if_neg (Bool.eq_false_iff.1 houtside), ite_self]

/-- There is nothing to unmount in a `drive` that does not exist. -/
theorem unmount_of_unknown (h : driveCount ≤ drive.toNat) :
    c.perform (.unmount drive) = pure (.error .invalidDrive, c) := by
  rw [perform, unmount, source?_eq_none_iff.2 h]

/-! ### Requests that are turned down -/

/-- The operation is turned down with that answer, where indexes come to `indexed`. -/
inductive Refuses (c : Cache) (indexed : Except Error Unit) :
    (op : Operation) → op.Result → Prop where
  | read {drive : UInt8} {lba : UInt32} {e : Error} (lacks : c.Lacks drive lba e) :
      Refuses c indexed (.read drive lba) (.error e)
  | readAhead {drive : UInt8} {lba : UInt32} {e : Error} (lacks : c.Lacks drive (lba + 1) e) :
      Refuses c indexed (.readAhead drive lba) false
  | readAheadLast {drive : UInt8} : Refuses c indexed (.readAhead drive 0xffffffff) false
  | mount {drive : UInt8} {image : Image} (unknown : driveCount ≤ drive.toNat) :
      Refuses c indexed (.mount drive image) (.error .invalidDrive)
  | mountUnindexed {drive : UInt8} {image : Image} {e : Error} (known : drive.toNat < driveCount)
      (failed : indexed = .error e) : Refuses c indexed (.mount drive image) (.error e)
  | unmount {drive : UInt8} (unknown : driveCount ≤ drive.toNat) :
      Refuses c indexed (.unmount drive) (.error .invalidDrive)

/-- The operation `op` comes to `answer` and to nothing else: the cache is what it was, and nothing
is asked but what the image that is handed over is tried with. -/
structure TurnsDown (c : Cache) (indexed : Except Error Unit) (op : Operation)
    (answer : op.Result) : Prop where
  answers : ∃ t, Indexing indexed t ∧ (c.perform op).Run t (answer, c)
  only {t : Trace Device} {result : op.Result} {c' : Cache} (hindexing : Indexing indexed t)
    (hrun : (c.perform op).Run t (result, c')) :
    result = answer ∧ c' = c ∧ ∀ x ∈ t, op.Tries x.request

/-- What is answered without asking anything is turned down (`TurnsDown`). -/
theorem turnsDown_of_pure {op : Operation} {answer : op.Result}
    (h : c.perform op = pure (answer, c)) : c.TurnsDown indexed op answer := by
  refine ⟨⟨[], fun _ _ hx => absurd hx List.not_mem_nil, ?_⟩, fun _ hrun => ?_⟩
  · rw [h]
    exact .done _
  · rw [h] at hrun
    obtain ⟨rfl, hp⟩ := Program.run_done_iff.1 hrun
    obtain ⟨rfl, rfl⟩ := Prod.mk.inj hp
    exact ⟨rfl, rfl, fun x hx => absurd hx List.not_mem_nil⟩

/-- A mount that fails has tried nothing but the `image` that it was handed. -/
theorem Mounts.tries {image : Image} {ds : List Deed} {e : Error} {c' : Cache}
    (h : c.Mounts drive image ds (.error e, c')) :
    c' = c ∧ ∀ x ∈ traces ds, (Operation.mount drive image).Tries x.request := by
  cases h with
  | nowhere source =>
    refine ⟨rfl, fun x hx => ?_⟩
    obtain rfl := List.mem_singleton.1 hx
    exact .inr rfl
  | unindexed source =>
    refine ⟨rfl, fun x hx => ?_⟩
    obtain rfl | hx := List.mem_cons.1 hx
    · exact .inl rfl
    · obtain rfl := List.mem_singleton.1 hx
      exact .inr rfl

theorem Mounts.of_unknown {image : Image} {ds : List Deed} {p : Except Error Unit × Cache}
    (h : c.Mounts drive image ds p) (unknown : driveCount ≤ drive.toNat) :
    p.1 = .error .invalidDrive := by
  have hs : c.source? drive = none := source?_eq_none_iff.2 unknown
  cases h with
  | nowhere source => rfl
  | unindexed source => cases hs.symm.trans source
  | mounted source => cases hs.symm.trans source

/-- A mount of an `image` without an index fails with the error of that. -/
theorem Mounts.of_unindexed {image : Image} {ds : List Deed} {p : Except Error Unit × Cache}
    (h : c.Mounts drive image ds p) (known : drive.toNat < driveCount)
    (hindexing : Indexing (.error e) (traces ds)) : p.1 = .error e := by
  cases h with
  | nowhere source => exact absurd (source?_eq_none_iff.1 source) (Nat.not_le.2 known)
  | unindexed source => exact hindexing image.file _ List.mem_cons_self
  | mounted source => exact hindexing image.file _ List.mem_cons_self

/-- A mount that comes to an error, its `answer`, whatever it asks, is turned down. -/
theorem turnsDown_mount {image : Image} {answer : Error}
    (hexists : ∃ t, Indexing indexed t ∧ (c.mount drive image).Run t (.error answer, c))
    (hfails : ∀ ds p, c.Mounts drive image ds p → Indexing indexed (traces ds) →
      p.1 = .error answer) : c.TurnsDown indexed (.mount drive image) (.error answer) := by
  refine ⟨hexists, @fun t result c' hindexing hrun => ?_⟩
  obtain ⟨ds, rfl, hmounts⟩ := does_mount c drive image t (result, c') hrun
  obtain rfl : result = .error answer := hfails ds _ hmounts hindexing
  exact ⟨rfl, hmounts.tries⟩

/-- A mount in a `drive` that does not exist is turned down. -/
theorem turnsDown_of_unknown (unknown : driveCount ≤ drive.toNat) (image : Image) :
    c.TurnsDown indexed (.mount drive image) (.error .invalidDrive) := by
  refine turnsDown_mount ⟨[⟨.file (.close image.file), ()⟩], ?_, ?_⟩
    fun ds p hmounts _ => hmounts.of_unknown unknown
  · intro file reply hx
    cases List.mem_singleton.1 hx
  · rw [mount, source?_eq_none_iff.2 unknown]
    exact Program.Run.bind (Program.run_request_iff.2 rfl) (.done _)

/-- A mount of an `image` without an index is turned down. -/
theorem turnsDown_of_unindexed (known : drive.toNat < driveCount) (image : Image) :
    c.TurnsDown (.error e) (.mount drive image) (.error e) := by
  refine turnsDown_mount
    ⟨[⟨.file (.index image.file), .error e⟩, ⟨.file (.close image.file), ()⟩], ?_, ?_⟩
    fun ds p hmounts => hmounts.of_unindexed known
  · intro file reply hx
    obtain hx | hx := List.mem_cons.1 hx
    · cases hx
      rfl
    · cases List.mem_singleton.1 hx
  · obtain ⟨old, hold⟩ := Option.ne_none_iff_exists'.1 fun hs : c.source? drive = none =>
      Nat.not_le.2 known (source?_eq_none_iff.1 hs)
    rw [mount, hold]
    exact Program.Run.bind (Program.run_request_iff.2 rfl)
      (Program.Run.bind (Program.run_request_iff.2 rfl) (.done _))

/-- **What is turned down changes nothing.**  Let the cache refuse an operation (`Refuses`): a read
of a sector that the drive does not have, a read ahead of one that is the last, a mount or an
unmount of a drive that is not there, or a mount of an image whose index cannot be built.  Each
comes to its `answer`, and cannot come to any other (`TurnsDown`).  The cached sector, the counts,
and what backs the drives are then what they were.  The medium and the images that are mounted have
been asked nothing, and of an image that was handed over only the index was tried before it was
closed. -/
theorem refused_unchanged {op : Operation} {answer : op.Result}
    (hrefuses : c.Refuses indexed op answer) : c.TurnsDown indexed op answer := by
  cases hrefuses with
  | read lacks => exact turnsDown_of_pure (read_of_lacks lacks)
  | readAhead lacks => exact turnsDown_of_pure (readAhead_of_lacks lacks)
  | readAheadLast => exact turnsDown_of_pure (readAhead_reserved c _)
  | mount unknown => exact turnsDown_of_unknown unknown _
  | mountUnindexed known failed =>
    rw [failed]
    exact turnsDown_of_unindexed known _
  | unmount unknown => exact turnsDown_of_pure (unmount_of_unknown unknown)

/-- The first drive has a medium of 64 sectors, the second an image of four, and sector 7 of the
first is cached. -/
def busy : Cache where
  medium := ⟨64, false⟩
  drives := #v[.medium, .image ⟨⟨3⟩, 2048⟩]
  entry := some ⟨0, 7, .replicate _ 0xa5⟩
  stats := ⟨5, 2, 1⟩

/-- The fifth sector of the image is not read, and an image that has no index does not take the
place of the one that is mounted. -/
theorem refused_unchanged_busy :
    busy.TurnsDown (.ok ()) (.read 1 4) (.error .outOfBounds) ∧
      busy.TurnsDown (.error .io) (.mount 1 ⟨⟨4⟩, 512⟩) (.error .io) := by
  refine ⟨refused_unchanged (.read ?_), refused_unchanged (.mountUnindexed ?_ rfl)⟩
  · exact .pastImage rfl (by decide)
  · decide

end Cache

end IoController.Disk
