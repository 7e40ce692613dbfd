import IoController.Keyboard.Report
import IoController.Text

/-!
# Keyboard — Remap

The user's table of keys that stand for other keys.  It is looked at before anything else sees a
report.
-/

namespace IoController.Keyboard

/-- Why an entry is refused. -/
inductive RemapError where
  /-- The text is not two bytes in hexadecimal with a comma between them. -/
  | malformed
  /-- Usage zero is no key. -/
  | noKey
  | full
  deriving DecidableEq

/-- The remapped keys, each with the key that it stands for. -/
structure Remap where
  entries : List (UInt8 × UInt8) := []
  deriving DecidableEq

namespace Remap

/-- How many entries a table has room for. -/
def maxEntries : Nat := 16

/-- Adds an entry: how that ends, and the table it leaves.  If the key `source` is remapped already,
its first entry goes on being the one used. -/
def push (t : Remap) (source target : UInt8) : Except RemapError Unit × Remap :=
  if source = 0 then (.error .noKey, t)
  else if t.entries.length < maxEntries then (.ok (), ⟨t.entries ++ [(source, target)]⟩)
  else (.error .full, t)

/-- The table with one more entry, if `push` takes the entry. -/
def add (t : Remap) (source target : UInt8) : Except RemapError Remap :=
  (t.push source target).1.map fun _ => (t.push source target).2

/-- A byte written as two UTF-8 bytes of hexadecimal text `cs`. -/
def hexByte? (cs : List Char) : Option UInt8 :=
  if Text.byteSize cs = 2 then Text.byte? 16 cs else none

/-- The two keys of an entry such as `39,e0`, parted at the first comma. -/
def entry? (text : String) : Option (UInt8 × UInt8) :=
  let cs := Text.trim text.toList
  match cs.dropWhile (· != ',') with
  | [] => none
  | _ :: target =>
    match hexByte? (cs.takeWhile (· != ',')), hexByte? target with
    | some a, some b => some (a, b)
    | _, _ => none

/-- Adds the entry that `text` writes: how that ends, and the table it leaves. -/
def pushText (t : Remap) (text : String) : Except RemapError Unit × Remap :=
  match entry? text with
  | some (a, b) => t.push a b
  | none => (.error .malformed, t)

/-- The table with the entry that `text` writes, if `pushText` takes the entry. -/
def addText (t : Remap) (text : String) : Except RemapError Remap :=
  (t.pushText text).1.map fun _ => (t.pushText text).2

/-- The key that `key` stands for, itself if it is not remapped. -/
def map (t : Remap) (key : UInt8) : UInt8 := (t.entries.lookup key).getD key

/-- The report `r` with every key replaced by the one it stands for.  Modifiers and empty places
stay. -/
def apply (t : Remap) (r : Report) : Report :=
  { r with keys := r.keys.map fun key => if key = 0 then 0 else t.map key }

end Remap

end IoController.Keyboard
