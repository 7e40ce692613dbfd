import IoController.Bits

/-!
# Joystick — State

The digital state of a joystick, and what it comes to as a mouse movement, as a pair of analog
axes and as an Atari joystick byte.
-/

namespace IoController.Joystick

/-- The switches of a joystick, in the order of their bits. -/
inductive Switch where
  | right | left | down | up | button1 | button2 | button3 | button4
  deriving DecidableEq

instance : Flag Switch where
  mask
    | .right => 0x01
    | .left => 0x02
    | .down => 0x04
    | .up => 0x08
    | .button1 => 0x10
    | .button2 => 0x20
    | .button3 => 0x40
    | .button4 => 0x80

/-- The switches that are closed. -/
abbrev State := Flags Switch

namespace State

/-- The four directions. -/
def directions : State := .ofList [.right, .left, .down, .up]

/-- The four buttons. -/
def buttons : State := .ofList [.button1, .button2, .button3, .button4]

/-- The mouse buttons that the first two buttons of the state `s` stand for: bit 0 left, bit 1
right. -/
def mouseButtons (s : State) : UInt8 :=
  (if s.has .button1 then 0x01 else 0) ||| (if s.has .button2 then 0x02 else 0)

/-- One axis of movement, by whether the `negative` and the `positive` direction are held; both
together cancel. -/
def axisStep (negative positive : Bool) : Int8 :=
  match negative, positive with
  | true, false => -1
  | false, true => 1
  | _, _ => 0

/-- The mouse movement that the directions of the state `s` stand for, right and down being
positive. -/
def mouseStep (s : State) : Int8 × Int8 :=
  (axisStep (s.has .left) (s.has .right), axisStep (s.has .up) (s.has .down))

/-- One analog axis at an end or in the middle; `low` and `high` together cancel. -/
def axisPosition (low high : Bool) : Int8 :=
  match low, high with
  | true, false => -128
  | false, true => 127
  | _, _ => 0

/-- The analog position that the directions of the state `s` stand for, on both axes. -/
def analog (s : State) : Int8 × Int8 :=
  (axisPosition (s.has .left) (s.has .right), axisPosition (s.has .up) (s.has .down))

/-- The switches an Atari joystick byte can carry, each with its bit. -/
def ikbdBits : List (Switch × UInt8) :=
  [(.up, 0x01), (.down, 0x02), (.left, 0x04), (.right, 0x08), (.button1, 0x80)]

/-- The Atari joystick byte of the state `s`: the directions in the low bits and the fire button on
top. -/
def ikbd (s : State) : UInt8 :=
  ikbdBits.foldl (fun b (k, bit) => if s.has k then b ||| bit else b) 0

end State

end IoController.Joystick
