import IoController.Board.Volume
import IoController.Core.Name
import IoController.Proofs.Board.StatusLight
import Mathlib.Data.List.DropRight

/-!
# Board — Volume

The card and the files on it, as the controller's requests come to them.

* `volumeName?_fileName?`: every file that belongs to a core has a name on the volume, the core's
  name without the blanks after it, a dot and the extension.
* `abides_serveMedium`: an access to the medium is one access to the same block of the card, and
  nothing at all if there is no medium.
* `abides_openImage`: a file is opened by its name on the volume, and none has four gigabytes.
* `abides_serveFile`: what is asked of files, with offsets that are those of sectors.
-/

namespace IoController

/-! ### Names -/

namespace Text

/-- What `trimRight` leaves is a beginning of the text. -/
theorem trimRight_prefix (cs : List Char) : trimRight cs <+: cs := List.rdropWhile_prefix isBlank cs

/-- The `blanks` at the end do not count. -/
theorem trimRight_append_of_blank (cs : List Char) {blanks : List Char}
    (h : ∀ c ∈ blanks, isBlank c = true) : trimRight (cs ++ blanks) = trimRight cs := by
  unfold trimRight
  rw [List.reverse_append, List.dropWhile_append_of_pos]
  exact fun c hc => h c (List.mem_reverse.1 hc)

end Text

namespace Board

variable {name ext file : String}

/-- One of the `Core.extensions` has no blanks. -/
theorem trimRight_extension (h : ext ∈ Core.extensions) :
    Text.trimRight ext.toList = ext.toList := by
  simp only [Core.extensions, List.mem_cons, List.not_mem_nil, or_false] at h
  rcases h with rfl | rfl | rfl <;> rfl

/-- The padding of a `base` is not seen in the name of a file on the volume. -/
theorem trimRight_padded (base : List Char) :
    Text.trimRight (Core.padded base) = Text.trimRight base := by
  refine Text.trimRight_append_of_blank base fun c hc => ?_
  rw [List.eq_of_mem_replicate hc]
  rfl

/-- **A core's files are on the volume by the core's name.**  Whatever name `Core.fileName?` makes
for the file of a core, the volume has a name for it: the `stem` of the core's name without the
blanks it ends with, a dot, and the extension. -/
theorem volumeName?_fileName? (hext : ext ∈ Core.extensions)
    (h : Core.fileName? name ext = some file) :
    volumeName? file =
      some (String.ofList (Text.trimRight (Core.stem name) ++ '.' :: ext.toList)) := by
  obtain ⟨-, height, rfl⟩ := (Core.fileName?_eq_some_iff hext).1 h
  have hcut : Text.cut? 8 (String.ofList (Core.padded (Core.stem name) ++ ext.toList)).toList =
      some (Core.padded (Core.stem name), ext.toList) := by
    rw [String.toList_ofList, ← height]
    exact Text.cut?_append _ _
  have hstem : Text.byteSize (Text.trimRight (Core.stem name)) ≤ 8 := by
    rw [← trimRight_padded, ← height]
    exact Text.byteSize_le_of_prefix (Text.trimRight_prefix _)
  have hdot : Text.byteSize ('.' :: ext.toList) = 4 := by
    rw [Text.byteSize_cons, (Core.take_extension hext).2]
    rfl
  have hfits : Text.byteSize (Text.trimRight (Core.stem name) ++ '.' :: ext.toList) ≤
      maxVolumeName := by
    rw [Text.byteSize_append, hdot]
    exact Nat.add_le_add_right hstem 4
  simp only [volumeName?, hcut, trimRight_padded, trimRight_extension hext, if_pos hfits]

/-! ### The medium -/

/-- The access to a block of the card that an access to a sector of the medium is. -/
def blockRequest : Disk.MediumRequest → Request
  | .read lba => .readBlock lba
  | .write lba data => .writeBlock lba data

/-- The access to the medium that a request for a block of the card is. -/
def access? : Request → Option Disk.MediumRequest
  | .readBlock lba => some (.read lba)
  | .writeBlock lba data => some (.write lba data)
  | _ => none

/-- The blocks of the card that are read and written in `w`, in order. -/
def blocks (w : Trace Board) : List Disk.MediumRequest := w.filterMap (access? ·.request)

theorem blocks_append (w w' : Trace Board) : blocks (w ++ w') = blocks w ++ blocks w' :=
  List.filterMap_append

/-- An access to the medium is one access to the same block, by `blockRequest`, and none if there is
no medium. -/
theorem abides_serveMedium (medium : Disk.Medium) (r : Disk.MediumRequest) :
    Program.Abides (fun _ r' => medium.sectors ≠ 0 ∧ r' = blockRequest r)
      (fun w _ => blocks w = if medium.sectors = 0 then [] else [r]) (serveMedium medium r) := by
  cases r <;>
  · unfold serveMedium
    split
    · exact .done rfl
    · next hsome => exact .ask ⟨hsome, rfl⟩ fun x => .done rfl

/-! ### Files -/

/-- What is asked of the volume for the controller, if one is `mounted`. -/
inductive UsesFiles (mounted : Bool) : Request → Prop where
  /-- A file is opened by its name on the volume, if there is a volume. -/
  | openFile {file dotted : String} (volume : mounted = true)
      (name : volumeName? file = some dotted) : UsesFiles mounted (.openFile dotted)
  | fileLength (file : Disk.File) : UsesFiles mounted (.fileLength file)
  /-- The offset is that of a sector, and does not wrap around. -/
  | seekFile (file : Disk.File) {lba offset : UInt32}
      (whole : offset.toNat = lba.toNat * Disk.sectorSize) :
      UsesFiles mounted (.seekFile file offset)
  | readFileBlock (file : Disk.File) : UsesFiles mounted (.readFileBlock file)
  | writeFileBlock (file : Disk.File) (data : Disk.Sector) :
      UsesFiles mounted (.writeFileBlock file data)
  | closeFile (file : Disk.File) : UsesFiles mounted (.closeFile file)

/-- The name on the volume by which a request opens a file. -/
def opened? : Request → Option String
  | .openFile dotted => some dotted
  | _ => none

/-- The names on the volume by which files are opened in `w`, in order. -/
def opened (w : Trace Board) : List String := w.filterMap (opened? ·.request)

theorem opened_append (w w' : Trace Board) : opened (w ++ w') = opened w ++ opened w' :=
  List.filterMap_append

/-- The name on the volume of the file that is to be opened, its `volumeName?`. -/
def volumeNames (mounted : Bool) : Disk.FileRequest → List String
  | .openFile file => if mounted then (volumeName? file).toList else []
  | _ => []

/-- A file is opened by its `volumeName?`, and its length is one of 32 bits. -/
theorem abides_openImage (mounted : Bool) (file : String) :
    Program.Abides (fun _ => UsesFiles mounted)
      (fun w image? => opened w = volumeNames mounted (.openFile file) ∧
        ∀ image ∈ image?, image.length.toNat < UInt32.size) (openImage mounted file) := by
  unfold openImage
  cases mounted with
  | false => exact .done ⟨rfl, nofun⟩
  | true =>
    cases hname : volumeName? file with
    | none =>
      have hnames : volumeNames true (.openFile file) = [] := congrArg Option.toList hname
      exact .done ⟨hnames.symm, nofun⟩
    | some dotted =>
      have hnames : volumeNames true (.openFile file) = [dotted] := congrArg Option.toList hname
      rw [hnames]
      refine .bind (abides_ask (r := .openFile dotted) (.openFile rfl hname) fun file? => ?_)
      cases file? with
      | none => exact .done ⟨rfl, nofun⟩
      | some found =>
        refine .bind (abides_ask (r := .fileLength found) (.fileLength found) fun length => ?_)
        refine .done ⟨rfl, fun image himage => ?_⟩
        obtain rfl := Option.mem_some.1 himage
        change (length.getD 0).toUInt64.toNat < UInt32.size
        rw [UInt32.toNat_toUInt64]
        exact UInt32.toNat_lt _

/-- The offset of the sector `lba` is asked for only if it is one that the volume can have. -/
theorem abides_seekSector (mounted : Bool) (file : Disk.File) (lba : UInt32) :
    Program.Abides (fun _ => UsesFiles mounted) (fun w _ => opened w = [])
      (seekSector file lba) := by
  unfold seekSector
  dsimp only
  split
  · exact .done rfl
  · next hfits =>
    have hsize : UInt32.size = 0xffffffff + 1 := rfl
    have hwhole : (UInt32.ofNat (lba.toNat * Disk.sectorSize)).toNat =
        lba.toNat * Disk.sectorSize := UInt32.toNat_ofNat_of_lt' (by omega)
    exact .map (abides_ask (.seekFile file hwhole) fun moved => rfl)

/-- Whatever is asked of a file comes to what `UsesFiles` says, and only `openFile` opens one, by
its `volumeName?`, if it has one and there is a volume. -/
theorem abides_serveFile (mounted : Bool) (r : Disk.FileRequest) :
    Program.Abides (fun _ => UsesFiles mounted) (fun w _ => opened w = volumeNames mounted r)
      (serveFile mounted r) := by
  cases r with
  | openFile name =>
    exact (abides_openImage mounted name).imp fun _ _ h => h.1
  | index file => exact .done rfl
  | seek file lba => exact abides_seekSector mounted file lba
  | read file => exact .map (abides_ask (.readFileBlock file) fun _ => rfl)
  | write file data => exact .map (abides_ask (.writeFileBlock file data) fun _ => rfl)
  | close file => exact .map (abides_ask (.closeFile file) fun _ => rfl)

end Board

end IoController
