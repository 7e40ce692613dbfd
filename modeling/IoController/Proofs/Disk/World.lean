import IoController.Disk.Cache
import IoController.Proofs.Program.Ensures
import Mathlib.Logic.Function.Basic

/-!
# Disk — World

What stores sectors, and what reading and writing do to it.

* `World.Step`: a read that succeeds returns what is stored, one that fails changes nothing, and
  a write changes at most the sector that it is addressed to, whether it succeeds or not.
* `Source.ensures_read`, `Image.ensures_write`: what the medium and a mounted image come to in
  such a world, with I/O failing at any point.
-/

namespace IoController.Disk

/-- Something that stores sectors. -/
inductive Backing where
  | medium
  | file (file : File)
  deriving DecidableEq

/-- What a drive's sectors are stored in. -/
def Source.backing : Source → Backing
  | .medium => .medium
  | .image i => .file i.file

/-- What every sector holds. -/
abbrev Contents := Backing → UInt32 → Sector

/-- The contents `c` with `data` in one place. -/
def Contents.put (c : Contents) (b : Backing) (lba : UInt32) (data : Sector) : Contents :=
  Function.update c b (Function.update (c b) lba data)

namespace Contents

variable {c : Contents} {b b' : Backing} {lba lba' : UInt32} {data : Sector}

@[simp] theorem put_self : c.put b lba data b lba = data := by simp [put]

theorem put_of_ne_lba (h : lba' ≠ lba) : c.put b lba data b lba' = c b lba' := by
  simp [put, Function.update_of_ne h]

theorem put_of_ne (h : b' ≠ b) : c.put b lba data b' = c b' := Function.update_of_ne h _ _

/-- Putting back what is there (`put`) changes nothing. -/
theorem put_eq_self : c.put b lba (c b lba) = c := by simp [put]

end Contents

/-- What is stored, and at what `position` in each file the next sector is read or written. -/
structure World where
  contents : Contents
  position : File → UInt32

/-- What a successful write of some data may leave in a sector. -/
abbrev Stores := Backing → UInt32 → Sector → Sector → Prop

namespace World

/-- A read of the sector `lba` of `b`: nothing changes, and what it returns is what is there. -/
def Reads (w : World) (b : Backing) (lba : UInt32) (reply : Except Error Sector) (w' : World) :
    Prop :=
  w'.contents = w.contents ∧ ∀ data, reply = .ok data → data = w.contents b lba

/-- A write to the sector `lba` of `b`: the sector changes and nothing else does.  If it fails there
may be anything. -/
def Writes (stores : Stores) (w : World) (b : Backing) (lba : UInt32) (data : Sector)
    (reply : Except Error Unit) (w' : World) : Prop :=
  ∃ left, w'.contents = w.contents.put b lba left ∧ (reply = .ok () → stores b lba data left)

/-- What an exchange does to the world `w`. -/
def Step (stores : Stores) (w : World) : Exchange Device → World → Prop
  | ⟨.medium (.read lba), reply⟩, w' => w.Reads .medium lba reply w'
  | ⟨.medium (.write lba data), reply⟩, w' => w.Writes stores .medium lba data reply w'
  | ⟨.file (.seek f lba), reply⟩, w' =>
    w'.contents = w.contents ∧ (reply = .ok () → w'.position f = lba)
  | ⟨.file (.read f), reply⟩, w' => w.Reads (.file f) (w.position f) reply w'
  | ⟨.file (.write f data), reply⟩, w' => w.Writes stores (.file f) (w.position f) data reply w'
  | _, w' => w'.contents = w.contents

end World

/-! ### What backs a drive -/

variable {stores : Stores} {w : World}

/-- To build the index of the image `i` changes nothing that is stored. -/
theorem Image.ensures_buildIndex (i : Image) :
    i.buildIndex.Ensures (World.Step stores) w fun _ w' => w'.contents = w.contents :=
  .request fun _ _ h => h

/-- To close the image `i` changes nothing that is stored. -/
theorem Image.ensures_close (i : Image) :
    i.close.Ensures (World.Step stores) w fun _ w' => w'.contents = w.contents :=
  .request fun _ _ h => h

/-- To close the source `s` that was behind a drive changes nothing that is stored. -/
theorem Source.ensures_close (s : Source) :
    s.close.Ensures (World.Step stores) w fun _ w' => w'.contents = w.contents := by
  cases s with
  | medium => exact .done rfl
  | image i => exact i.ensures_close

/-- To read a sector of the image `i` is to read it from its file. -/
theorem Image.ensures_read (i : Image) (lba : UInt32) :
    (i.read lba).Ensures (World.Step stores) w fun reply w' =>
      w.Reads (.file i.file) lba reply w' := by
  refine .bind (.request fun sought w' hseek => ?_)
  obtain ⟨hcontents, hposition⟩ := hseek
  -- where the file stands is known only if moving there succeeded
  cases sought with
  | error e => exact .done ⟨hcontents, fun _ h => nomatch h⟩
  | ok u =>
    refine .request fun reply w'' hread => ?_
    obtain ⟨hsame, hdata⟩ := hread
    refine ⟨hsame.trans hcontents, fun data hok => ?_⟩
    rw [hdata data hok, hposition rfl, hcontents]

/-- An image `i` whose position cannot be moved is not written. -/
theorem Image.ensures_write (i : Image) (lba : UInt32) (data : Sector) :
    (i.write lba data).Ensures (World.Step stores) w fun reply w' =>
      w.Writes stores (.file i.file) lba data reply w' := by
  refine .bind (.request fun sought w' hseek => ?_)
  obtain ⟨hcontents, hposition⟩ := hseek
  cases sought with
  | error e =>
    refine .done ⟨w.contents (.file i.file) lba, ?_, fun h => nomatch h⟩
    rw [hcontents, Contents.put_eq_self]
  | ok u =>
    refine .request fun reply w'' hwrite => ?_
    obtain ⟨left, hput, hstores⟩ := hwrite
    rw [hposition rfl] at hput hstores
    exact ⟨left, by rw [hput, hcontents], hstores⟩

/-- To read a sector of the source `s` that backs a drive is to read it from there. -/
theorem Source.ensures_read (s : Source) (lba : UInt32) :
    (s.read lba).Ensures (World.Step stores) w fun reply w' => w.Reads s.backing lba reply w' := by
  cases s with
  | medium => exact .request fun _ _ h => h
  | image i => exact i.ensures_read lba

end IoController.Disk
