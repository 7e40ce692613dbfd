import IoController.Event
import IoController.Keyboard.Report

/-!
# Keyboard — Emulation

A mouse or a joystick driven from the keyboard.  The cursor keys are directions and the left
hand modifiers are buttons.  As a joystick every change of state is reported at once; as a mouse
a step is made at regular intervals while a direction is held.
-/

namespace IoController.Keyboard

/-- What the keyboard stands in for. -/
inductive Emulation.Mode where
  | none | mouse | joystick0 | joystick1
  deriving DecidableEq

namespace Emulation.Mode

/-- The mode after `m` in the cycle. -/
def next : Mode → Mode
  | .none => .mouse
  | .mouse => .joystick0
  | .joystick0 => .joystick1
  | .joystick1 => .none

/-- The mode that `selector` picks: 1 to 4 name one, anything else moves on in the cycle. -/
def select (m : Mode) (selector : UInt8) : Mode :=
  match selector with
  | 1 => .mouse
  | 2 => .joystick0
  | 3 => .joystick1
  | 4 => .none
  | _ => m.next

/-- The physical port of an emulated joystick. -/
def port? : Mode → Option UInt8
  | .joystick0 => some 0
  | .joystick1 => some 1
  | _ => Option.none

/-- Whether the num lock LED is lit to show the mode. -/
def numLed : Mode → Bool
  | .mouse | .joystick0 => true
  | _ => false

/-- Whether the scroll lock LED is lit to show the mode. -/
def scrollLed : Mode → Bool
  | .mouse | .joystick1 => true
  | _ => false

end Emulation.Mode

/-- The `mode`, the directions and buttons that are held, and when the mouse moves next. -/
structure Emulation where
  mode : Emulation.Mode := .none
  state : Joystick.State := ∅
  nextStep : Deadline := none

namespace Emulation

open Joystick (State Switch)

/-- How often the emulated mouse moves. -/
def mouseInterval : Duration := .milliseconds 5

/-- The usages of the cursor keys, each with its direction. -/
def cursorKeys : List (UInt8 × Switch) :=
  [(0x4f, .right), (0x50, .left), (0x51, .down), (0x52, .up)]

/-- The modifiers that are buttons, in the order of the buttons. -/
def buttonKeys : List (Modifier × Switch) :=
  [(.leftCtrl, .button1), (.leftShift, .button2), (.leftAlt, .button3), (.leftGui, .button4)]

/-- The modifiers that are buttons. -/
def buttonModifiers : Modifiers := .ofList (buttonKeys.map (·.1))

/-- The buttons that the mouse has. -/
def mouseButtons : State := .ofList [.button1, .button2]

/-- Whether the keyboard stands in for something, so that the `mode` is on. -/
def isActive (e : Emulation) : Bool := e.mode != .none

/-- The report of the emulated joystick's `state`, if a joystick is emulated. -/
def stateEvent? (e : Emulation) : Option Event :=
  e.mode.port?.map fun port => .joystick port e.state

/-- Changes the mode by `selector`.  The emulated mouse does not move before an interval has passed.
-/
def select (e : Emulation) (selector : UInt8) (now : Instant) : Emulation :=
  let mode := e.mode.select selector
  { e with mode, nextStep := if mode = .mouse then some (now + mouseInterval) else e.nextStep }

/-- After a change from the mode `old`, the event that lets go of what it still held. -/
def leaveEvent? (e : Emulation) (old : Mode) : Option Event :=
  if old = e.mode then Option.none
  else
    match old with
    | .mouse => if e.state.meets mouseButtons then some (.mouse 0 0 0) else Option.none
    | _ =>
      match old.port? with
      | some port => if e.state.isEmpty then Option.none else some (.joystick port ∅)
      | Option.none => Option.none

/-- The direction that the key `usage` stands for while something is emulated. -/
def claimed? (e : Emulation) (usage : UInt8) : Option State :=
  if e.isActive then (cursorKeys.lookup usage).map Flags.single else Option.none

/-- A claimed key goes down, which stands for `directions`. -/
def press (e : Emulation) (directions : State) : Option Event × Emulation :=
  let e := { e with state := e.state ∪ directions }
  (e.stateEvent?, e)

/-- A key that was claimed for `directions` goes up.  This counts also for a key claimed before the
mode changed. -/
def release (e : Emulation) (directions : State) : Option Event × Emulation :=
  let e := { e with state := e.state \ directions }
  (e.stateEvent?, e)

/-- The buttons that `modifiers` are. -/
def buttonsOf (modifiers : Modifiers) : State :=
  .ofList ((buttonKeys.filter fun (m, _) => modifiers.has m).map (·.2))

/-- Sets the buttons to those that `modifiers` are.  A mouse event and a joystick event are returned
if there is a change to report. -/
def setButtons (e : Emulation) (modifiers : Modifiers) :
    Option Event × Option Event × Emulation :=
  let new := { e with state := (e.state \ State.buttons) ∪ buttonsOf modifiers }
  let changed := fun (mask : State) => e.state ∩ mask != new.state ∩ mask
  (if e.mode = .mouse && changed mouseButtons then some (.mouse new.state.mouseButtons 0 0)
    else Option.none,
   if changed State.buttons then new.stateEvent? else Option.none,
   new)

/-- Moves the emulated mouse if it is time to, by `nextStep`. -/
def tick (e : Emulation) (now : Instant) : Option Event × Emulation :=
  if e.mode = .mouse && e.nextStep.reached now then
    let (dx, dy) := e.state.mouseStep
    (if e.state.meets State.directions then some (.mouse e.state.mouseButtons dx dy)
      else Option.none,
     { e with nextStep := some (now + mouseInterval) })
  else (Option.none, e)

end Emulation

end IoController.Keyboard
