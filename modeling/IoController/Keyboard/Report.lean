import IoController.Bits

/-!
# Keyboard — Report

What a USB keyboard says: its modifier keys as one byte, and the usages of up to six other keys.
A usage of zero is an empty place, and may stand anywhere.
-/

namespace IoController.Keyboard

/-- The modifier keys, in the order of their bits. -/
inductive Modifier where
  | leftCtrl | leftShift | leftAlt | leftGui | rightCtrl | rightShift | rightAlt | rightGui
  deriving DecidableEq

instance : Flag Modifier where
  mask
    | .leftCtrl => 0x01
    | .leftShift => 0x02
    | .leftAlt => 0x04
    | .leftGui => 0x08
    | .rightCtrl => 0x10
    | .rightShift => 0x20
    | .rightAlt => 0x40
    | .rightGui => 0x80

/-- The modifier keys that are down. -/
abbrev Modifiers := Flags Modifier

/-- How many keys a report has room for. -/
def maxKeys : Nat := 6

/-- A keyboard's report: the `modifiers` and the `keys` that are down.  A place with 0 is empty. -/
structure Report where
  modifiers : Modifiers := ∅
  keys : Vector UInt8 maxKeys := .replicate maxKeys 0
  deriving DecidableEq

namespace Report

/-- The report with `keys`: the first six count, and missing ones are empty places. -/
def ofKeys (modifiers : Modifiers) (keys : List UInt8) : Report :=
  { modifiers, keys := .ofFn fun i => keys.getD i 0 }

/-- The keys that are down in the report `r`, in the order of their places. -/
def pressed (r : Report) : List UInt8 := r.keys.toList.filter (· != 0)

/-- Whether nothing is down in the report `r`. -/
def isIdle (r : Report) : Bool := r.modifiers.isEmpty && r.pressed.isEmpty

/-- Whether `key` is in a place of the report. -/
def contains (r : Report) (key : UInt8) : Bool := r.pressed.contains key

/-- Empties every place of the report `r` whose key also stands in an earlier place. -/
def dedup (r : Report) : Report :=
  { r with keys := .ofFn fun i =>
      if (r.keys.toList.take i).contains r.keys[i] then 0 else r.keys[i] }

end Report

end IoController.Keyboard
