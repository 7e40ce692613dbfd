import IoController.Proofs.Disk.World

/-!
# Disk — PlainDisk

Two drives as their users think of them, without a cache.

* `PlainDisk.Step`: what each operation returns and what it leaves.  Drives that share the medium
  share its contents.
* `PlainDisk.Run.image_kept`: while an image stays mounted, each of its sectors holds what the
  last write to it left, or what it held when there was none.
-/

namespace IoController.Disk

/-- What is asked of the drives. -/
inductive Operation where
  | mount (drive : UInt8) (image : Image)
  | unmount (drive : UInt8)
  | read (drive : UInt8) (lba : UInt32)
  | readAhead (drive : UInt8) (lba : UInt32)
  | write (drive : UInt8) (lba : UInt32) (data : Sector)
  | invalidate

namespace Operation

/-- What an operation returns. -/
abbrev Result : Operation → Type
  | mount .. | write .. => Except Error Unit
  | unmount _ => Except Error (Option Image)
  | read .. => Except Error Sector
  | readAhead .. => Bool
  | invalidate => Unit

/-- The drive that the operation asks. -/
def drive? : Operation → Option UInt8
  | mount drive _ | unmount drive | read drive _ | readAhead drive _ | write drive _ _ => some drive
  | invalidate => none

/-- Whether something else may be behind `drive` after the operation. -/
def changes (drive : UInt8) : Operation → Bool
  | mount drive' _ | unmount drive' => drive' == drive
  | _ => false

/-- An operation on another `drive` changes nothing behind this one. -/
theorem changes_of_ne {op : Operation} {drive : UInt8} (h : op.drive? ≠ some drive) :
    op.changes drive = false := by
  cases op with
  | mount drive' image => exact beq_false_of_ne fun heq => h (congrArg some heq)
  | unmount drive' => exact beq_false_of_ne fun heq => h (congrArg some heq)
  | _ => rfl

/-- An image that is handed over is not mounted in the `drives` already: its owner gave it away
then. -/
def IsOwned (drives : Vector Source driveCount) : Operation → Prop
  | mount _ image => ∀ s ∈ drives, s.backing ≠ .file image.file
  | _ => True

end Operation

/-- The drives as an interface. -/
def Drives : Interface := ⟨Operation, Operation.Result⟩

/-- The mounted image. -/
def Source.image? : Source → Option Image
  | .medium => none
  | .image i => some i

/-- Whether a drive backed like this has the sector `lba`. -/
def Source.covers (s : Source) (medium : Medium) (lba : UInt32) : Bool :=
  match s with
  | .medium => medium.contains lba
  | .image i => i.contains lba

/-- Whether a write to the sector is passed on. -/
def Source.admits : Source → UInt32 → Bool
  | .medium, _ => true
  | .image i, lba => i.contains lba

/-- What backs each of the `drives`, and what is stored. -/
structure PlainDisk where
  medium : Medium
  drives : Vector Source driveCount
  contents : Contents

namespace PlainDisk

/-- What backs `drive`, if the drive exists. -/
def source? (d : PlainDisk) (drive : UInt8) : Option Source := d.drives[drive.toNat]?

/-- Puts `s` behind `drive`. -/
def back (d : PlainDisk) (drive : UInt8) (s : Source) : PlainDisk :=
  { d with drives := d.drives.setIfInBounds drive.toNat s }

/-- What a read of the sector `lba` of `drive` may return: what is stored, or an error of the
backing's; for a sector or a drive that does not exist, the error that says so. -/
def Answers (d : PlainDisk) (drive : UInt8) (lba : UInt32) (reply : Except Error Sector) : Prop :=
  match d.source? drive with
  | none => reply = .error .invalidDrive
  | some s =>
    if s.covers d.medium lba then ∀ data, reply = .ok data → data = d.contents s.backing lba
    else reply = .error .outOfBounds

section Answers

variable {d : PlainDisk} {drive : UInt8} {lba : UInt32} {s : Source}

theorem answers_nowhere (h : d.source? drive = none) :
    d.Answers drive lba (.error .invalidDrive) := by
  rw [Answers, h]

theorem answers_outside (hs : d.source? drive = some s) (h : s.covers d.medium lba = false) :
    d.Answers drive lba (.error .outOfBounds) := by
  rw [Answers, hs]
  dsimp only
  rw [h]
  exact rfl

theorem answers_stored {reply : Except Error Sector} (hs : d.source? drive = some s)
    (h : s.covers d.medium lba = true)
    (hdata : ∀ data, reply = .ok data → data = d.contents s.backing lba) :
    d.Answers drive lba reply := by
  rw [Answers, hs]
  dsimp only
  rw [if_pos h]
  exact hdata

theorem stored_of_answers {data : Sector} (h : d.Answers drive lba (.ok data)) :
    ∃ s, d.source? drive = some s ∧ data = d.contents s.backing lba := by
  unfold Answers at h
  cases hs : d.source? drive with
  | none =>
    rw [hs] at h
    cases h
  | some s =>
    rw [hs] at h
    dsimp only at h
    split at h
    · exact ⟨s, rfl, h data rfl⟩
    · cases h

end Answers

/-- An operation with its result, and the drives before and after it. -/
inductive Step (stores : Stores) : PlainDisk → Exchange Drives → PlainDisk → Prop where
  | mountNowhere {d : PlainDisk} {drive : UInt8} {image : Image}
      (nowhere : d.source? drive = none) :
      Step stores d ⟨.mount drive image, .error .invalidDrive⟩ d
  | mountFailed {d : PlainDisk} {drive : UInt8} {image : Image} {s : Source}
      (source : d.source? drive = some s) (e : Error) :
      Step stores d ⟨.mount drive image, .error e⟩ d
  | mounted {d : PlainDisk} {drive : UInt8} {image : Image} {s : Source}
      (source : d.source? drive = some s) :
      Step stores d ⟨.mount drive image, .ok ()⟩ (d.back drive (.image image))
  | unmountNowhere {d : PlainDisk} {drive : UInt8} (nowhere : d.source? drive = none) :
      Step stores d ⟨.unmount drive, .error .invalidDrive⟩ d
  | unmounted {d : PlainDisk} {drive : UInt8} {s : Source} (source : d.source? drive = some s) :
      Step stores d ⟨.unmount drive, .ok s.image?⟩ (d.back drive .medium)
  | read {d : PlainDisk} {drive : UInt8} {lba : UInt32} {reply : Except Error Sector}
      (answers : d.Answers drive lba reply) : Step stores d ⟨.read drive lba, reply⟩ d
  | readAhead {d : PlainDisk} {drive : UInt8} {lba : UInt32} (loaded : Bool) :
      Step stores d ⟨.readAhead drive lba, loaded⟩ d
  | writeNowhere {d : PlainDisk} {drive : UInt8} {lba : UInt32} {data : Sector}
      (nowhere : d.source? drive = none) :
      Step stores d ⟨.write drive lba data, .error .invalidDrive⟩ d
  | writeOutside {d : PlainDisk} {drive : UInt8} {lba : UInt32} {data : Sector} {s : Source}
      (source : d.source? drive = some s) (outside : s.admits lba = false) :
      Step stores d ⟨.write drive lba data, .error .outOfBounds⟩ d
  | written {d : PlainDisk} {drive : UInt8} {lba : UInt32} {data left : Sector} {s : Source}
      {reply : Except Error Unit} (source : d.source? drive = some s)
      (inside : s.admits lba = true) (stored : reply = .ok () → stores s.backing lba data left) :
      Step stores d ⟨.write drive lba data, reply⟩
        { d with contents := d.contents.put s.backing lba left }
  | invalidate {d : PlainDisk} : Step stores d ⟨.invalidate, ()⟩ d

/-- Whether a drive's sectors are stored in `b`, or may be once its image is unmounted. -/
def Uses (drives : Vector Source driveCount) (b : Backing) : Prop :=
  b = .medium ∨ ∃ s ∈ drives, s.backing = b

/-- What the drives live through from the `start`: operations, and whatever their owners do to files
that are not mounted. -/
inductive Run (stores : Stores) (start : PlainDisk) : Trace Drives → PlainDisk → Prop where
  | start : Run stores start [] start
  | operation {log : Trace Drives} {d d' : PlainDisk} {x : Exchange Drives}
      (before : Run stores start log d) (owned : x.request.IsOwned d.drives)
      (step : Step stores d x d') : Run stores start (log ++ [x]) d'
  | elsewhere {log : Trace Drives} {d : PlainDisk} (before : Run stores start log d)
      (contents : Contents) (same : ∀ b, Uses d.drives b → contents b = d.contents b) :
      Run stores start log { d with contents }

/-! ### A mounted image -/

/-- No file is mounted twice in the `drives`. -/
def Apart (drives : Vector Source driveCount) : Prop :=
  ∀ (a b : Nat) (i j : Image), drives[a]? = some (.image i) → drives[b]? = some (.image j) →
    i.file = j.file → a = b

theorem source?_back_of_ne {d : PlainDisk} {drive other : UInt8} (h : other ≠ drive) (s : Source) :
    (d.back drive s).source? other = d.source? other :=
  Vector.getElem?_setIfInBounds_ne fun heq => h (UInt8.toNat_inj.1 heq).symm

theorem Apart.unmount {drives : Vector Source driveCount} (h : Apart drives) (n : Nat) :
    Apart (drives.setIfInBounds n .medium) := by
  have hold : ∀ {a : Nat} {i : Image}, (drives.setIfInBounds n .medium)[a]? = some (.image i) →
      drives[a]? = some (.image i) := by
    intro a i ha
    rw [Vector.getElem?_setIfInBounds] at ha
    split at ha
    · split at ha <;> cases ha
    · exact ha
  intro a b i j ha hb hfile
  exact h a b i j (hold ha) (hold hb) hfile

/-- An `image` that was not mounted may be put in any drive. -/
theorem Apart.mount {drives : Vector Source driveCount} (h : Apart drives) {image : Image}
    (hfree : ∀ s ∈ drives, s.backing ≠ .file image.file) (n : Nat) :
    Apart (drives.setIfInBounds n (.image image)) := by
  have hcases : ∀ {a : Nat} {i : Image},
      (drives.setIfInBounds n (.image image))[a]? = some (.image i) →
        n = a ∧ i = image ∨ n ≠ a ∧ drives[a]? = some (.image i) := by
    intro a i ha
    rw [Vector.getElem?_setIfInBounds] at ha
    by_cases hn : n = a
    · rw [if_pos hn] at ha
      split at ha <;> cases ha
      exact .inl ⟨hn, rfl⟩
    · rw [if_neg hn] at ha
      exact .inr ⟨hn, ha⟩
  have hother : ∀ {a : Nat} {i : Image}, drives[a]? = some (.image i) → i.file ≠ image.file := by
    intro a i ha hfile
    exact hfree _ (Vector.mem_of_getElem? ha) (congrArg Backing.file hfile)
  intro a b i j ha hb hfile
  rcases hcases ha with ⟨hna, rfl⟩ | ⟨-, hai⟩
  · rcases hcases hb with ⟨hnb, -⟩ | ⟨-, hbj⟩
    · exact hna.symm.trans hnb
    · exact absurd hfile.symm (hother hbj)
  · rcases hcases hb with ⟨-, rfl⟩ | ⟨-, hbj⟩
    · exact absurd hfile (hother hai)
    · exact h a b i j hai hbj hfile

/-- The data that an operation writes to the sector `lba` of `drive`, with the result. -/
def writes? (drive : UInt8) (lba : UInt32) : Exchange Drives → Option (Sector × Except Error Unit)
  | ⟨.write drive' lba' data, reply⟩ =>
    if drive' = drive ∧ lba' = lba then some (data, reply) else none
  | _ => none

/-- An operation on another `drive` writes nothing to this one. -/
theorem writes?_of_ne {drive : UInt8} {x : Exchange Drives} (h : x.request.drive? ≠ some drive)
    (lba : UInt32) : writes? drive lba x = none := by
  obtain ⟨op, reply⟩ := x
  cases op with
  | write drive' lba' data =>
    have hne : drive' ≠ drive := fun heq => h (congrArg some heq)
    simp only [writes?, hne, false_and, if_false]
  | _ => rfl

/-- The last write in `log` to the sector `lba` of `drive`. -/
def lastWrite? (drive : UInt8) (lba : UInt32) (log : Trace Drives) :
    Option (Sector × Except Error Unit) :=
  log.reverse.findSome? (writes? drive lba)

/-- If the operation `x` that comes last writes there, that is the last write. -/
theorem lastWrite?_snoc (drive : UInt8) (lba : UInt32) (log : Trace Drives) (x : Exchange Drives) :
    lastWrite? drive lba (log ++ [x]) = (writes? drive lba x).or (lastWrite? drive lba log) := by
  rw [lastWrite?, List.reverse_append, List.reverse_singleton, List.singleton_append,
    List.findSome?_cons]
  cases writes? drive lba x <;> rfl

/-- What the sector `lba` holds after a write, if there was one: a failed write may leave anything.
-/
def Leaves (stores : Stores) (b : Backing) (lba : UInt32) (old new : Sector) :
    Option (Sector × Except Error Unit) → Prop
  | none => new = old
  | some (data, reply) => reply = .ok () → stores b lba data new

/-- An image's sectors before and after, `old` and `new`: those that it has are as the last write
left them, and there are no others. -/
def ImageKept (stores : Stores) (image : Image) (old new : UInt32 → Sector)
    (last? : UInt32 → Option (Sector × Except Error Unit)) : Prop :=
  ∀ lba, Leaves stores (.file image.file) lba (old lba) (new lba) (last? lba) ∧
    (image.contains lba = false → new lba = old lba)

variable {stores : Stores} {d d' : PlainDisk} {drive : UInt8} {image : Image}

/-- Sectors that stay as they are in `contents`, because there was no write or because it failed. -/
theorem ImageKept.same {contents : UInt32 → Sector}
    {last? : UInt32 → Option (Sector × Except Error Unit)}
    (h : ∀ lba data, last? lba ≠ some (data, .ok ())) :
    ImageKept stores image contents contents last? := by
  refine fun lba => ⟨?_, fun _ => rfl⟩
  cases hlast : last? lba with
  | none => rfl
  | some write =>
    obtain ⟨data, reply⟩ := write
    rintro rfl
    exact absurd hlast (h lba data)

theorem ImageKept.of_none {old new : UInt32 → Sector}
    {last? : UInt32 → Option (Sector × Except Error Unit)}
    (h : ImageKept stores image old new last?) {lba : UInt32} (hlast : last? lba = none) :
    new lba = old lba := by
  have hleaves := (h lba).1
  rw [hlast] at hleaves
  exact hleaves

/-- What is behind `drive` tells its image from everything that is behind another. -/
theorem Apart.backing_ne (h : Apart d.drives) {other : UInt8} {s : Source} (hne : other ≠ drive)
    (hother : d.source? other = some s) (hs : d.source? drive = some (.image image)) :
    Backing.file image.file ≠ s.backing := by
  intro heq
  cases s with
  | medium => cases heq
  | image j =>
    have hfile : j.file = image.file := (Backing.file.inj heq).symm
    exact hne (UInt8.toNat_inj.1 (h _ _ j image hother hs hfile))

/-- A write to the drive `other`, seen from a drive that has an image. -/
theorem image_kept_of_written (h : Apart d.drives) (hs : d.source? drive = some (.image image))
    {other : UInt8} {lba : UInt32} {data left : Sector} {s : Source} {reply : Except Error Unit}
    (hother : d.source? other = some s) (hinside : s.admits lba = true)
    (hstored : reply = .ok () → stores s.backing lba data left) :
    ImageKept stores image (d.contents (.file image.file))
      (d.contents.put s.backing lba left (.file image.file))
      (writes? drive · ⟨.write other lba data, reply⟩) := by
  by_cases hdrive : other = drive
  · subst hdrive
    obtain rfl : s = .image image := Option.some.inj (hother.symm.trans hs)
    intro lba'
    by_cases hlba : lba = lba'
    · subst hlba
      refine ⟨?_, fun houtside => ?_⟩
      · simp only [writes?, and_self, if_true, Leaves]
        intro hok
        rw [Source.backing, Contents.put_self]
        exact hstored hok
      · rw [Source.admits, houtside] at hinside
        cases hinside
    · have hsame : d.contents.put (Source.image image).backing lba left (.file image.file) lba' =
          d.contents (.file image.file) lba' := Contents.put_of_ne_lba (Ne.symm hlba)
      refine ⟨?_, fun _ => hsame⟩
      simp only [writes?, hlba, and_false, if_false, Leaves]
      exact hsame
  · -- a write to another drive is to something else, because no file is mounted twice
    have hne : Backing.file image.file ≠ s.backing := h.backing_ne hdrive hother hs
    rw [Contents.put_of_ne hne]
    refine .same fun lba' data' hwrite => ?_
    simp only [writes?, hdrive, false_and, if_false] at hwrite
    cases hwrite

/-- Only what its owner hands over is mounted, so no file is mounted twice (`Apart`). -/
theorem Step.apart {x : Exchange Drives} (h : Step stores d x d')
    (howned : x.request.IsOwned d.drives) (hapart : Apart d.drives) : Apart d'.drives := by
  cases h with
  | mounted source => exact hapart.mount howned _
  | unmounted source => exact hapart.unmount _
  | _ => exact hapart

/-- No operation but a mount or an unmount changes what is behind `drive`, and an image there is
changed by the writes to that drive alone. -/
theorem Step.image_kept {x : Exchange Drives} (h : Step stores d x d') (hapart : Apart d.drives)
    (hs : d.source? drive = some (.image image)) (hx : x.request.changes drive = false) :
    d'.source? drive = some (.image image) ∧
      ImageKept stores image (d.contents (.file image.file)) (d'.contents (.file image.file))
        (writes? drive · x) := by
  -- most operations write nothing and leave every image alone
  have hnone : ∀ {x : Exchange Drives}, (∀ lba, writes? drive lba x = none) →
      ∀ contents, ImageKept stores image contents contents (writes? drive · x) := by
    intro x hx contents
    refine .same fun lba data hwrite => ?_
    rw [hx lba] at hwrite
    cases hwrite
  cases h with
  | mountNowhere nowhere => exact ⟨hs, hnone (fun _ => rfl) _⟩
  | mountFailed source e => exact ⟨hs, hnone (fun _ => rfl) _⟩
  | mounted source =>
    have hne : drive ≠ _ := Ne.symm (beq_eq_false_iff_ne.1 hx)
    exact ⟨(source?_back_of_ne hne _).trans hs, hnone (fun _ => rfl) _⟩
  | unmountNowhere nowhere => exact ⟨hs, hnone (fun _ => rfl) _⟩
  | unmounted source =>
    have hne : drive ≠ _ := Ne.symm (beq_eq_false_iff_ne.1 hx)
    exact ⟨(source?_back_of_ne hne _).trans hs, hnone (fun _ => rfl) _⟩
  | read answers => exact ⟨hs, hnone (fun _ => rfl) _⟩
  | readAhead loaded => exact ⟨hs, hnone (fun _ => rfl) _⟩
  | writeNowhere nowhere =>
    refine ⟨hs, .same fun lba data hwrite => ?_⟩
    simp only [writes?] at hwrite
    split at hwrite <;> cases hwrite
  | writeOutside source outside =>
    refine ⟨hs, .same fun lba data hwrite => ?_⟩
    simp only [writes?] at hwrite
    split at hwrite <;> cases hwrite
  | written source inside stored =>
    exact ⟨hs, image_kept_of_written hapart hs source inside stored⟩
  | invalidate => exact ⟨hs, hnone (fun _ => rfl) _⟩

theorem ImageKept.trans {old mid new : UInt32 → Sector} {log : Trace Drives} {x : Exchange Drives}
    (h : ImageKept stores image old mid (lastWrite? drive · log))
    (h' : ImageKept stores image mid new (writes? drive · x)) :
    ImageKept stores image old new (lastWrite? drive · (log ++ [x])) := by
  intro lba
  obtain ⟨hbefore, hfar⟩ := h lba
  obtain ⟨hstep, hfar'⟩ := h' lba
  refine ⟨?_, fun houtside => (hfar' houtside).trans (hfar houtside)⟩
  dsimp only at hbefore hstep ⊢
  rw [lastWrite?_snoc]
  cases hwrite : writes? drive lba x with
  | some write =>
    rw [hwrite] at hstep
    exact hstep
  | none =>
    rw [hwrite] at hstep
    have hsame : new lba = mid lba := hstep
    rw [Option.none_or, hsame]
    exact hbefore

/-- Over any number of operations the drives stay `Apart`. -/
theorem Run.apart {log : Trace Drives} (h : Run stores d log d') (hapart : Apart d.drives) :
    Apart d'.drives := by
  induction h with
  | start => exact hapart
  | operation before owned step ih => exact step.apart owned ih
  | elsewhere before contents same ih => exact ih

/-- While an `image` stays mounted, each of its sectors holds what the last write to it left, or
what it held when there was none. -/
theorem Run.image_kept {log : Trace Drives} (h : Run stores d log d') (hapart : Apart d.drives)
    (hs : d.source? drive = some (.image image))
    (hlog : ∀ x ∈ log, x.request.changes drive = false) :
    d'.source? drive = some (.image image) ∧
      ImageKept stores image (d.contents (.file image.file)) (d'.contents (.file image.file))
        (lastWrite? drive · log) := by
  induction h with
  | start => exact ⟨hs, .same fun lba data hwrite => nomatch hwrite⟩
  | operation before owned step ih =>
    obtain ⟨hmid, hbefore⟩ := ih fun x hx => hlog x (List.mem_append_left _ hx)
    obtain ⟨hsource, hstep⟩ := step.image_kept (before.apart hapart) hmid
      (hlog _ (List.mem_append_right _ List.mem_cons_self))
    exact ⟨hsource, hbefore.trans hstep⟩
  | elsewhere before contents same ih =>
    obtain ⟨hmid, hbefore⟩ := ih hlog
    have hmem : Source.image image ∈ _ := Vector.mem_of_getElem? hmid
    refine ⟨hmid, ?_⟩
    dsimp only
    rw [same (.file image.file) (.inr ⟨_, hmem, rfl⟩)]
    exact hbefore

end PlainDisk

end IoController.Disk
