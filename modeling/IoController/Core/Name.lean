import IoController.Text

/-!
# Core — Name

A core's name, and the names of the files that belong to the core.  A directory entry names a
file by eight and three characters without a dot.

* `fileName?`: the name of a core's file with a given extension, made from the core's name.
* `withExtension`: the same file name with another extension in place of its own.
* `truncate?_fileName?`: the name of a core's file can be cut in front of its extension.
* `fileName?_withExtension`: with another extension it is the name of the core's file with that.
-/

namespace IoController.Core

/-- The most UTF-8 bytes of a core's name. -/
def maxName : Nat := 16

/-- The most UTF-8 bytes of a file's name. -/
def fileNameSize : Nat := 11

/-- The extensions of a core's files, in the order in which `loadFiles` looks for them. -/
def extensions : List String := ["CFG", "ROM", "VHD"]

/-- Adds the character `c` to a name if there is room for it. -/
def addToName (name : List Char) (c : Char) : List Char :=
  if Text.byteSize (name ++ [c]) ≤ maxName then name ++ [c] else name

/-- The name that a config string's first `item` gives a core.  Characters for which there is no
room are left out. -/
def nameOf (item : String) : String :=
  String.ofList ((item.toList.take maxName).foldl addToName [])

/-! ### Names of files -/

/-- The part of a core's `name` that its files are named by: the first eight bytes, or all of a
shorter name.  If the eighth byte is in the middle of a character it is empty. -/
def stem (name : String) : List Char := (Text.truncate? 8 name.toList).getD []

/-- The characters `base`, and spaces up to eight characters. -/
def padded (base : List Char) : List Char := base ++ List.replicate (8 - base.length) ' '

/-- The padded `stem`, then at most three characters of the extension. -/
def paddedName (name ext : String) : List Char := padded (stem name) ++ ext.toList.take 3

/-- The name of a core's file with the extension `ext`.  A core without a name has no files, and a
`paddedName` that does not fit a directory entry is no file name. -/
def fileName? (name ext : String) : Option String :=
  if name.isEmpty then none
  else if Text.byteSize (paddedName name ext) ≤ fileNameSize then
    some (String.ofList (paddedName name ext))
  else none

/-- A file's name with the extension `ext` instead: cut down to eight bytes by `truncate?`, with the
extension after them if there is room for it.  A name cannot be cut in the middle of a character, so
that it has to be known that it can be cut. -/
def withExtension (file ext : String) (cuts : (Text.truncate? 8 file.toList).isSome = true) :
    String :=
  let base := (Text.truncate? 8 file.toList).get cuts
  String.ofList (if Text.byteSize (base ++ ext.toList) ≤ fileNameSize then base ++ ext.toList
    else base)

variable {name ext ext' file : String}

/-- One of the `extensions` is three bytes, and none of them is lost. -/
theorem take_extension (h : ext ∈ extensions) :
    ext.toList.take 3 = ext.toList ∧ Text.byteSize ext.toList = 3 := by
  simp only [extensions, List.mem_cons, List.not_mem_nil, or_false] at h
  rcases h with rfl | rfl | rfl <;> exact ⟨rfl, rfl⟩

/-- A `padded` base is never too short. -/
theorem le_byteSize_padded (base : List Char) : 8 ≤ Text.byteSize (padded base) := by
  have hlength := Text.length_le_byteSize (padded base)
  rw [padded, List.length_append, List.length_replicate] at hlength
  exact Nat.le_trans (by omega) hlength

/-- A core has the file exactly if it has a name, and its `padded` stem takes eight bytes. -/
theorem fileName?_eq_some_iff (hext : ext ∈ extensions) :
    fileName? name ext = some file ↔ name.isEmpty = false ∧
      Text.byteSize (padded (stem name)) = 8 ∧
        file = String.ofList (padded (stem name) ++ ext.toList) := by
  obtain ⟨htake, hthree⟩ := take_extension hext
  have hlong := le_byteSize_padded (stem name)
  have hfits : Text.byteSize (padded (stem name) ++ ext.toList) ≤ fileNameSize ↔
      Text.byteSize (padded (stem name)) = 8 := by
    rw [Text.byteSize_append, hthree, fileNameSize]
    omega
  unfold fileName? paddedName
  simp only [htake, hfits]
  cases name.isEmpty <;> simp [eq_comm]

/-- The name of a core's file, cut down to eight bytes, is its `padded` stem. -/
theorem truncate?_fileName? (hext : ext ∈ extensions) (h : fileName? name ext = some file) :
    Text.truncate? 8 file.toList = some (padded (stem name)) := by
  obtain ⟨-, height, rfl⟩ := (fileName?_eq_some_iff hext).1 h
  rw [String.toList_ofList, ← height]
  exact Text.truncate?_append _ _

/-- The name of a core's file can be cut in front of its extension `ext`. -/
theorem cuts_of_fileName? (hext : ext ∈ extensions) (h : fileName? name ext = some file) :
    (Text.truncate? 8 file.toList).isSome = true := by
  rw [truncate?_fileName? hext h]
  rfl

/-- With another extension, the name of a core's `file` is the name of the core's file with that. -/
theorem fileName?_withExtension (hext : ext ∈ extensions) (hext' : ext' ∈ extensions)
    (h : fileName? name ext = some file) :
    fileName? name ext' = some (withExtension file ext' (cuts_of_fileName? hext h)) := by
  obtain ⟨hname, height, -⟩ := (fileName?_eq_some_iff hext).1 h
  refine (fileName?_eq_some_iff hext').2 ⟨hname, height, ?_⟩
  have hbase := truncate?_fileName? hext h
  have hfits : Text.byteSize (padded (stem name) ++ ext'.toList) ≤ fileNameSize := by
    rw [Text.byteSize_append, height, (take_extension hext').2]
    exact Nat.le_refl fileNameSize
  simp only [withExtension, hbase, Option.get_some, if_pos hfits]

end IoController.Core
