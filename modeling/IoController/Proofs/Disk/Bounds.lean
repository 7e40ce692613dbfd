import IoController.Disk.Cache
import IoController.Proofs.Device.Journal

/-!
# Disk — Bounds

Which sectors there are, and what reads and writes do about those that there are not.

* `Cache.Reads`, `Cache.ReadsAhead`, `Cache.Writes`, `Cache.Mounts`: everything that is asked of
  what backs the drive, and what comes of it.
* `Cache.keepsBounds_iff`: a read of a sector that does not exist is refused without asking
  anything, and so is a write, but for one: the medium is asked to write any sector at all.
-/

namespace IoController.Disk

open Device (Deed Does)

/-- What closing the source, which was in a drive, asks. -/
def Source.closing : Source → List Deed
  | .medium => []
  | .image i => [.file (.close i.file) ()]

theorem Source.does_close (s : Source) : Does s.close fun ds _ => ds = s.closing := by
  cases s with
  | medium => exact .done rfl
  | image i => exact Device.does_file _

namespace Cache

variable {c : Cache} {drive : UInt8} {lba : UInt32}

theorem source?_eq_none_iff : c.source? drive = none ↔ driveCount ≤ drive.toNat :=
  Vector.getElem?_eq_none_iff

/-! ### What is asked -/

/-- What a load of the sector `lba` asks of what backs the drive, and what comes of it. -/
inductive Loads (lba : UInt32) : Source → List Deed → Except Error Sector → Prop where
  | medium {reply : Except Error Sector} : Loads lba .medium [.medium (.read lba) reply] reply
  | unsought {i : Image} {e : Error} :
      Loads lba (.image i) [.file (.seek i.file lba) (.error e)] (.error e)
  | image {i : Image} {reply : Except Error Sector} :
      Loads lba (.image i) [.file (.seek i.file lba) (.ok ()), .file (.read i.file) reply] reply

/-- What a read of the sector `lba` asks of what backs `drive`, and what comes of it. -/
inductive Reads (c : Cache) (drive : UInt8) (lba : UInt32) :
    List Deed → Except Error Sector → Prop where
  | nowhere (source : c.source? drive = none) : Reads c drive lba [] (.error .invalidDrive)
  | outside {s : Source} (source : c.source? drive = some s) (outside : c.covers s lba = false) :
      Reads c drive lba [] (.error .outOfBounds)
  | cached {s : Source} {data : Sector} (source : c.source? drive = some s)
      (inside : c.covers s lba = true) (cached : c.find? drive lba = some data) :
      Reads c drive lba [] (.ok data)
  | loaded {s : Source} {ds : List Deed} {reply : Except Error Sector}
      (source : c.source? drive = some s) (inside : c.covers s lba = true)
      (cached : c.find? drive lba = none) (loads : Loads lba s ds reply) :
      Reads c drive lba ds reply

/-- What reading ahead of the sector `lba` asks of what backs `drive`, and whether the next sector
was loaded. -/
inductive ReadsAhead (c : Cache) (drive : UInt8) (lba : UInt32) : List Deed → Bool → Prop where
  | nothing : ReadsAhead c drive lba [] false
  | failed {s : Source} {ds : List Deed} {e : Error} (source : c.source? drive = some s)
      (inside : c.covers s (lba + 1) = true) (loads : Loads (lba + 1) s ds (.error e)) :
      ReadsAhead c drive lba ds false
  | loaded {s : Source} {ds : List Deed} {data : Sector} (source : c.source? drive = some s)
      (inside : c.covers s (lba + 1) = true) (loads : Loads (lba + 1) s ds (.ok data)) :
      ReadsAhead c drive lba ds true

/-- What a write to the sector `lba` asks of what backs `drive`, and what comes of it. -/
inductive Writes (c : Cache) (drive : UInt8) (lba : UInt32) (data : Sector) :
    List Deed → Except Error Unit → Prop where
  | nowhere (source : c.source? drive = none) : Writes c drive lba data [] (.error .invalidDrive)
  | outside {i : Image} (source : c.source? drive = some (.image i))
      (outside : i.contains lba = false) : Writes c drive lba data [] (.error .outOfBounds)
  | unsought {i : Image} {e : Error} (source : c.source? drive = some (.image i))
      (inside : i.contains lba = true) :
      Writes c drive lba data [.file (.seek i.file lba) (.error e)] (.error e)
  | image {i : Image} {reply : Except Error Unit} (source : c.source? drive = some (.image i))
      (inside : i.contains lba = true) :
      Writes c drive lba data
        [.file (.seek i.file lba) (.ok ()), .file (.write i.file data) reply] reply
  | medium {reply : Except Error Unit} (source : c.source? drive = some .medium) :
      Writes c drive lba data [.medium (.write lba data) reply] reply

/-- What a mount asks of the `image`, and what comes of it.  An image that is not mounted is closed,
and so is one that makes way. -/
inductive Mounts (c : Cache) (drive : UInt8) (image : Image) :
    List Deed → Except Error Unit × Cache → Prop where
  | nowhere (source : c.source? drive = none) :
      Mounts c drive image [.file (.close image.file) ()] (.error .invalidDrive, c)
  | unindexed {old : Source} {e : Error} (source : c.source? drive = some old) :
      Mounts c drive image
        [.file (.index image.file) (.error e), .file (.close image.file) ()] (.error e, c)
  | mounted {old : Source} (source : c.source? drive = some old) :
      Mounts c drive image (.file (.index image.file) (.ok ()) :: old.closing)
        (.ok (), (c.back drive (.image image)).invalidate)

/-- Whether the deed asks something that stores sectors. -/
def isStorage : Deed → Bool
  | .medium .. | .file .. => true
  | _ => false

/-- Something that stores sectors is the `medium` or a `file`. -/
theorem of_isStorage {P : Deed → Prop} (medium : ∀ request reply, P (.medium request reply))
    (file : ∀ request reply, P (.file request reply)) {d : Deed} (h : isStorage d = true) :
    P d := by
  cases d with
  | medium request reply => exact medium request reply
  | file request reply => exact file request reply
  | _ => cases h

theorem Loads.isStorage {s : Source} {ds : List Deed} {reply : Except Error Sector}
    (h : Loads lba s ds reply) : ∀ d ∈ ds, isStorage d = true := by
  cases h <;> simp [Cache.isStorage]

theorem Reads.isStorage {ds : List Deed} {reply : Except Error Sector}
    (h : c.Reads drive lba ds reply) : ∀ d ∈ ds, isStorage d = true := by
  cases h with
  | loaded source inside cached loads => exact loads.isStorage
  | _ => exact fun d hd => absurd hd List.not_mem_nil

theorem ReadsAhead.isStorage {ds : List Deed} {loaded : Bool}
    (h : c.ReadsAhead drive lba ds loaded) : ∀ d ∈ ds, isStorage d = true := by
  cases h with
  | nothing => exact fun d hd => absurd hd List.not_mem_nil
  | failed source inside loads => exact loads.isStorage
  | loaded source inside loads => exact loads.isStorage

theorem Writes.isStorage {data : Sector} {ds : List Deed} {reply : Except Error Unit}
    (h : c.Writes drive lba data ds reply) : ∀ d ∈ ds, isStorage d = true := by
  cases h <;> simp [Cache.isStorage]

theorem Mounts.isStorage {image : Image} {ds : List Deed} {p : Except Error Unit × Cache}
    (h : c.Mounts drive image ds p) : ∀ d ∈ ds, isStorage d = true := by
  cases h with
  | nowhere source => simp [Cache.isStorage]
  | unindexed source => simp [Cache.isStorage]
  | @mounted old source => cases old <;> simp [Source.closing, Cache.isStorage]

/-- A sector is read from what backs a drive as `Loads` says. -/
theorem does_sourceRead (s : Source) (lba : UInt32) : Does (s.read lba) (Loads lba s) := by
  cases s with
  | medium =>
    refine (Device.does_medium _).mono fun ds reply hds => ?_
    rw [hds]
    exact .medium
  | image i =>
    refine .bind ((Device.does_file _).mono fun ds sought hseek => ?_)
    rw [hseek]
    cases sought with
    | error e => exact .done .unsought
    | ok u =>
      refine (Device.does_file _).mono fun ds' reply hread => ?_
      rw [hread]
      exact .image

/-- A sector is loaded as `Loads` says. -/
theorem does_load (c : Cache) (s : Source) (drive : UInt8) (lba : UInt32) :
    Does (c.load s drive lba) fun ds p => Loads lba s ds p.1 := by
  refine .bind ((does_sourceRead s lba).mono fun ds reply hloads => ?_)
  cases reply with
  | error e => exact .done (by rwa [List.append_nil])
  | ok data => exact .done (by rwa [List.append_nil])

/-- A sector is read as `Reads` says. -/
theorem does_read (c : Cache) (drive : UInt8) (lba : UInt32) :
    Does (c.read drive lba) fun ds p => c.Reads drive lba ds p.1 := by
  unfold read
  cases hs : c.source? drive with
  | none => exact .done (.nowhere hs)
  | some s =>
    dsimp only
    by_cases hcovers : c.covers s lba = true
    · rw [if_pos hcovers]
      cases hfind : c.find? drive lba with
      | some data => exact .done (.cached hs hcovers hfind)
      | none => exact (does_load _ s drive lba).mono fun ds p => .loaded hs hcovers hfind
    · rw [if_neg hcovers]
      exact .done (.outside hs (Bool.eq_false_iff.2 hcovers))

/-- A sector is read ahead as `ReadsAhead` says. -/
theorem does_readAhead (c : Cache) (drive : UInt8) (lba : UInt32) :
    Does (c.readAhead drive lba) fun ds p => c.ReadsAhead drive lba ds p.1 := by
  unfold readAhead
  cases hs : c.source? drive with
  | none => exact .done .nothing
  | some s =>
    dsimp only
    split
    · exact .done .nothing
    · split
      · next hinside =>
        refine .bind ((does_load c s drive _).mono fun ds p hloads => ?_)
        obtain ⟨reply, c'⟩ := p
        cases reply with
        | error e => exact .done (by simpa using .failed hs hinside hloads)
        | ok data => exact .done (by simpa using .loaded hs hinside hloads)
      · exact .done .nothing

/-- A sector is written as `Writes` says, and the cached one is kept if it survives that. -/
theorem does_write (c : Cache) (drive : UInt8) (lba : UInt32) (data : Sector) :
    Does (c.write drive lba data) fun ds p =>
      c.Writes drive lba data ds p.1 ∧
        p.2 = { c with entry := c.entry.filter (survivesWrite · drive lba) } := by
  unfold write
  have hsource : ({ c with entry := c.entry.filter (survivesWrite · drive lba) } : Cache).source?
      drive = c.source? drive := rfl
  dsimp only
  rw [hsource]
  cases hs : c.source? drive with
  | none => exact .done ⟨.nowhere hs, rfl⟩
  | some s =>
    cases s with
    | medium =>
      refine .bind ((Device.does_medium _).mono fun ds reply hds => .done ?_)
      rw [hds]
      exact ⟨.medium hs, rfl⟩
    | image i =>
      dsimp only
      by_cases hinside : i.contains lba = true
      · rw [if_pos hinside]
        refine .bind (.bind ((Device.does_file _).mono fun ds sought hseek => ?_))
        rw [hseek]
        cases sought with
        | error e => exact .done (.done ⟨.unsought hs hinside, rfl⟩)
        | ok u =>
          refine (Device.does_file _).mono fun ds' reply hwrite => .done ?_
          rw [hwrite]
          exact ⟨.image hs hinside, rfl⟩
      · rw [if_neg hinside]
        exact .done ⟨.outside hs (Bool.eq_false_iff.2 hinside), rfl⟩

/-- An image is mounted as `Mounts` says. -/
theorem does_mount (c : Cache) (drive : UInt8) (image : Image) :
    Does (c.mount drive image) fun ds p => c.Mounts drive image ds p := by
  unfold mount
  cases hs : c.source? drive with
  | none =>
    refine .bind ((Device.does_file _).mono fun ds _ hclose => .done ?_)
    rw [hclose]
    exact .nowhere hs
  | some old =>
    refine .bind ((Device.does_file _).mono fun ds indexed hindex => ?_)
    rw [hindex]
    cases indexed with
    | error e =>
      refine .bind ((Device.does_file _).mono fun closing _ hclose => .done ?_)
      rw [hclose]
      exact .unindexed hs
    | ok u =>
      refine .bind (old.does_close.mono fun closing _ hclose => .done ?_)
      rw [hclose, List.append_nil]
      exact .mounted hs

/-! ### Sectors that there are not -/

/-- Whether `drive` exists and has the sector `lba`. -/
def hasSector (c : Cache) (drive : UInt8) (lba : UInt32) : Bool :=
  (c.source? drive).any (c.covers · lba)

/-- The error for a sector that `drive` does not have. -/
def refusal (c : Cache) (drive : UInt8) : Error :=
  if (c.source? drive).isSome then .outOfBounds else .invalidDrive

/-- Whether the deed asks something that stores sectors to write. -/
def asksToWrite : Deed → Bool
  | .medium (.write ..) _ | .file (.write ..) _ => true
  | _ => false

/-- A write of `data` to a sector that does not exist is refused, and nothing is asked to write it.
-/
def KeepsBounds (c : Cache) (drive : UInt8) (lba : UInt32) (data : Sector) : Prop :=
  ∀ t reply c', (c.write drive lba data).Run t (reply, c') →
    ((∃ d ∈ Device.journal t, asksToWrite d = true) → c.hasSector drive lba = true) ∧
    (c.hasSector drive lba = false →
      reply = .error (c.refusal drive) ∧ ∀ d ∈ Device.journal t, asksToWrite d = false)

theorem hasSector_eq {s : Source} (hs : c.source? drive = some s) :
    c.hasSector drive lba = c.covers s lba := by
  rw [hasSector, hs, Option.any_some]

theorem refusal_of_some {s : Source} (hs : c.source? drive = some s) :
    c.refusal drive = .outOfBounds := by
  simp [refusal, hs]

theorem refusal_of_none (hs : c.source? drive = none) : c.refusal drive = .invalidDrive := by
  simp [refusal, hs]

/-- A read of a sector `lba` that does not exist is refused and asks nothing. -/
theorem Reads.refused {ds : List Deed} {reply : Except Error Sector}
    (h : c.Reads drive lba ds reply) (hnone : c.hasSector drive lba = false) :
    ds = [] ∧ reply = .error (c.refusal drive) := by
  cases h with
  | nowhere source => exact ⟨rfl, by rw [refusal_of_none source]⟩
  | outside source outside => exact ⟨rfl, by rw [refusal_of_some source]⟩
  | cached source inside _ =>
    rw [hasSector_eq source, inside] at hnone
    cases hnone
  | loaded source inside _ _ =>
    rw [hasSector_eq source, inside] at hnone
    cases hnone

/-- A write of a sector that does not exist is refused and asks nothing, unless it is to the
`medium`. -/
theorem Writes.refused {data : Sector} {ds : List Deed} {reply : Except Error Unit}
    (h : c.Writes drive lba data ds reply) (hnone : c.hasSector drive lba = false)
    (hmedium : c.source? drive ≠ some .medium) :
    ds = [] ∧ reply = .error (c.refusal drive) := by
  cases h with
  | nowhere source => exact ⟨rfl, by rw [refusal_of_none source]⟩
  | outside source outside => exact ⟨rfl, by rw [refusal_of_some source]⟩
  | unsought source inside =>
    rw [hasSector_eq source, covers, inside] at hnone
    cases hnone
  | image source inside =>
    rw [hasSector_eq source, covers, inside] at hnone
    cases hnone
  | medium source => exact absurd source hmedium

/-- Loading the sector `lba` asks for something. -/
theorem Loads.ne_nil {s : Source} {ds : List Deed} {reply : Except Error Sector}
    (h : Loads lba s ds reply) : Device.traces ds ≠ [] := by
  cases h <;> exact List.cons_ne_nil _ _

/-- The medium is asked to write whatever the sector `lba`. -/
theorem run_write_medium (hs : c.source? drive = some .medium) (lba : UInt32) (data : Sector)
    (reply : Except Error Unit) :
    (c.write drive lba data).Run [⟨.medium (.write lba data), reply⟩]
      (reply, { c with entry := c.entry.filter (survivesWrite · drive lba) }) := by
  unfold write
  have hsource : ({ c with entry := c.entry.filter (survivesWrite · drive lba) } : Cache).source?
      drive = some .medium := hs
  dsimp only
  rw [hsource]
  exact Program.Run.bind (Program.run_request_iff.2 rfl) (.done _)

/-- **Reads and writes, and the sectors that there are.**  A read of a sector that is none of the
drive's (`hasSector`), or of a drive that does not exist, is refused, by `refusal`, and nothing is
asked; no other read is.  A write keeps to the same bounds (`KeepsBounds`) in every case but one:
behind the drive is the medium, its size is known, and the sector is past its end.  A write to the
medium is always passed on. -/
theorem keepsBounds_iff (c : Cache) (drive : UInt8) (lba : UInt32) (data : Sector) :
    (∀ t reply c', (c.read drive lba).Run t (reply, c') →
      (c.hasSector drive lba = false ↔ t = [] ∧ reply = .error (c.refusal drive))) ∧
    (c.KeepsBounds drive lba data ↔
      ¬ (c.source? drive = some .medium ∧ c.medium.contains lba = false)) ∧
    (c.source? drive = some .medium → ∀ t reply c', (c.write drive lba data).Run t (reply, c') →
      Device.journal t = [.medium (.write lba data) reply]) := by
  refine ⟨fun t reply c' hrun => ?_, ⟨fun hkeeps => ?_, fun hfar t reply c' hrun => ?_⟩,
    fun hs t reply c' hrun => ?_⟩
  · obtain ⟨ht, hreads⟩ := (does_read c drive lba).journal hrun
    constructor
    · intro hnone
      obtain ⟨hds, hreply⟩ := hreads.refused hnone
      rw [hds] at ht
      exact ⟨ht, hreply⟩
    · rintro ⟨hempty, hreply⟩
      generalize Device.journal t = ds at ht hreads
      cases hreads with
      | nowhere source => rw [hasSector, source]; rfl
      | outside source outside => rw [hasSector_eq source, outside]
      | cached source inside cached => cases hreply
      | loaded source inside cached loads => exact absurd (ht.symm.trans hempty) loads.ne_nil
  · rintro ⟨hs, houtside⟩
    have hnone : c.hasSector drive lba = false := by
      rw [hasSector_eq hs]
      exact houtside
    -- the medium may take the sector, and then the write is not even refused
    obtain ⟨-, hrefused⟩ := hkeeps _ _ _ (run_write_medium hs lba data (.ok ()))
    cases (hrefused hnone).1
  · obtain ⟨-, hwrites, -⟩ := (does_write c drive lba data).journal hrun
    have hrefused : c.hasSector drive lba = false →
        Device.journal t = [] ∧ reply = .error (c.refusal drive) := by
      intro hnone
      refine hwrites.refused hnone fun hs => hfar ⟨hs, ?_⟩
      rw [hasSector_eq hs] at hnone
      exact hnone
    refine ⟨?_, fun hnone => ?_⟩
    · rintro ⟨d, hd, -⟩
      cases hhas : c.hasSector drive lba with
      | true => rfl
      | false =>
        rw [(hrefused hhas).1] at hd
        cases hd
    · obtain ⟨hempty, hreply⟩ := hrefused hnone
      refine ⟨hreply, fun d hd => ?_⟩
      rw [hempty] at hd
      cases hd
  · obtain ⟨-, hwrites, -⟩ := (does_write c drive lba data).journal hrun
    generalize Device.journal t = ds at hwrites ⊢
    cases hwrites with
    | medium source => rfl
    | nowhere source => cases hs.symm.trans source
    | outside source _ => cases hs.symm.trans source
    | unsought source _ => cases hs.symm.trans source
    | image source _ => cases hs.symm.trans source

/-- The medium has ten sectors, numbered from zero, and is asked to write number ten: `KeepsBounds`
fails. -/
theorem write_past_end :
    ¬ ({ medium := ⟨10, false⟩ } : Cache).KeepsBounds 0 10 (.replicate _ 0xa5) := by
  intro hkeeps
  have hs : ({ medium := ⟨10, false⟩ } : Cache).source? 0 = some .medium := rfl
  have hrun := run_write_medium hs 10 (.replicate _ 0xa5) (.error .outOfBounds)
  have hwritten := (hkeeps _ _ _ hrun).1 ⟨_, List.mem_singleton_self _, rfl⟩
  exact absurd hwritten (by decide)

end Cache

end IoController.Disk
