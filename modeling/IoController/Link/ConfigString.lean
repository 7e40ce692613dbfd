import IoController.Link.Command
import IoController.Text

/-!
# Link — ConfigString

The config string of a core: items parted by semicolons.  An item is read byte by byte as it
comes, and reading stops as soon as the item is complete.  The first item is complete after 130
bytes at most; for any other a core could send bytes without end, so the reader is given a limit.
-/

namespace IoController.Link.ConfigString

/-- The most UTF-8 bytes of an item. -/
def maxItem : Nat := 128

/-- The byte between two items, a semicolon. -/
def separator : UInt8 := 0x3b

/-- How many bytes are read before a core that comes to no end is given up. -/
def readLimit : Nat := 1048576

/-- Whether a reply that begins with `first` is one without a config string.  The Atari 800 core
answers with its identification. -/
def isAbsent (first : UInt8) : Bool := first == 0xff || first == 0xa4

/-- Whether `b` ends a config string. -/
def isEnd (b : UInt8) : Bool := b == 0x00 || b == 0xff

/-- The byte `b` as the character with that number. -/
def char (b : UInt8) : Char := Char.ofNat b.toNat

/-- Reads on from `byte`, which belongs to item number `current`, until item number `wanted` is
complete or full.  Numbers stop at 255.  Without an end within the limit there is no item. -/
def readItem (wanted : Nat) : (limit : Nat) → UInt8 → (current : Nat) → List Char →
    Action (Option (List Char))
  | 0, _, _, _ => pure none
  | limit + 1, byte, current, item =>
    if isEnd byte || decide (wanted < current) then pure (some item)
    else if byte = separator then do
      let byte ← receive
      readItem wanted limit byte (min 255 (current + 1)) item
    else if current = wanted then
      let item' := item ++ [char byte]
      if Text.byteSize item' ≤ maxItem then do
        let byte ← receive
        readItem wanted limit byte current item'
      else pure (some item)
    else do
      let byte ← receive
      readItem wanted limit byte current item

/-- What an item comes to: an empty one counts as missing. -/
def nonempty? : Option (List Char) → Option String
  | some (c :: cs) => some (String.ofList (c :: cs))
  | _ => none

/-- Asks the core for item number `index` of its config string, and gives it up after `limit` bytes.
-/
def itemWithin? (limit : Nat) (index : UInt8) : Action (Option String) :=
  query Opcode.configString do
    let first ← receive
    if isAbsent first then pure none
    else nonempty? <$> readItem index.toNat limit first 0 []

/-- Asks the core for item number `index` of its config string. -/
def item? (index : UInt8) : Action (Option String) := itemWithin? readLimit index

end IoController.Link.ConfigString
