import IoController.Bits
import IoController.Time

/-!
# Panel — Buttons

The buttons and switches of the front panel, and the video options that they control.  The core
is sent their state as one byte whenever it changes.  Holding the menu button toggles the
scandoubler, pressing the user button meanwhile toggles YPbPr output, and a short click of the
menu button opens the OSD.
-/

namespace IoController.Panel

/-- The panel's buttons and switches, in the order of their input channels. -/
inductive Switch where
  | switch2 | switch1 | menu | user
  deriving DecidableEq

instance : Flag Switch where
  mask
    | .switch2 => 0x01
    | .switch1 => 0x02
    | .menu => 0x04
    | .user => 0x08

/-- The buttons that are pressed and the switches that are on. -/
abbrev State := Flags Switch

namespace State

/-- The switch of the input `channel`; channels repeat every four. -/
def channelSwitch (channel : Nat) : Switch :=
  match channel % 4 with
  | 0 => .switch2
  | 1 => .switch1
  | 2 => .menu
  | _ => .user

/-- Takes in a `sample` of a channel.  Low means pressed, and a sample in the very middle changes
nothing. -/
def withSample (s : State) (channel : Nat) (sample : UInt8) : State :=
  if sample = 128 then s else s.put (.single (channelSwitch channel)) (sample < 128)

end State

/-- What the core is told. -/
inductive Line where
  | button1 | button2 | switch1 | switch2 | scandoublerDisable | ypbpr
  deriving DecidableEq

instance : Flag Line where
  mask
    | .button1 => 0x01
    | .button2 => 0x02
    | .switch1 => 0x04
    | .switch2 => 0x08
    | .scandoublerDisable => 0x10
    | .ypbpr => 0x20

/-- The byte that tells the core about the panel and the video options. -/
abbrev Map := Flags Line

/-- How long the menu button is held to toggle the scandoubler. -/
def longPress : Duration := .seconds 1

/-- The video options, the map that was `sent` last, and how the menu button is being used. -/
structure Buttons where
  scandoublerDisable : Bool
  ypbpr : Bool
  sent : Option Map := none
  menuDown : Option Instant := none
  /-- Whether this press of the menu button has toggled an option. -/
  menuUsed : Bool := false
  /-- Whether the user button is down together with the menu button. -/
  ypbprLatch : Bool := false

/-- What is to be done after an update: whether a map is to be sent, and whether the menu button was
clicked. -/
structure Update where
  send : Option Map
  menuClick : Bool

namespace Buttons

/-- Has the next update tell the core, whatever was `sent`. -/
def resend (b : Buttons) : Buttons := { b with sent := none }

/-- What the core is to be told.  The keyboard's reset combination counts as `button2`. -/
def map (b : Buttons) (panel : State) (keyboardReset : Bool) : Map :=
  .ofList <|
    (if panel.has .switch2 then [.switch2] else []) ++
    (if panel.has .switch1 then [.switch1] else []) ++
    (if panel.has .menu then [.button1] else if panel.has .user then [.button2] else []) ++
    (if keyboardReset then [.button2] else []) ++
    (if b.scandoublerDisable then [.scandoublerDisable] else []) ++
    (if b.ypbpr then [.ypbpr] else [])

/-- The menu button is down: toggles the scandoubler once when it was down for `longPress`.  The
first component says whether that happened. -/
def longPressed (b : Buttons) (now : Instant) : Bool × Buttons :=
  let down := b.menuDown.getD now
  let b := { b with menuDown := some down }
  if !b.menuUsed && down + longPress ≤ now then
    (true, { b with scandoublerDisable := !b.scandoublerDisable, menuUsed := true })
  else (false, b)

/-- The menu button is down: toggles YPbPr each time the `user` button goes down.  The first
component says whether that happened. -/
def userPressed (b : Buttons) (user : Bool) : Bool × Buttons :=
  if user && !b.ypbprLatch then
    (true, { b with ypbpr := !b.ypbpr, ypbprLatch := true, menuUsed := true })
  else (false, { b with ypbprLatch := user })

/-- The menu button is up: the first component says whether that ends a click of the buttons `b`. -/
def released (b : Buttons) : Bool × Buttons :=
  (b.menuDown.isSome && !b.menuUsed,
    { b with menuDown := none, menuUsed := false, ypbprLatch := false })

/-- Tells the core `map` if it is `force`d or other than what was `sent`. -/
def announce (b : Buttons) (map : Map) (force : Bool) : Option Map × Buttons :=
  if force || b.sent != some map then (some map, { b with sent := some map }) else (none, b)

/-- Takes in the state of the `panel`, and whether the keyboard holds the core's reset. -/
def update (b : Buttons) (panel : State) (keyboardReset : Bool) (now : Instant) :
    Update × Buttons :=
  if panel.has .menu then
    let (long, b) := b.longPressed now
    let (user, b) := b.userPressed (panel.has .user)
    let (send, b) := b.announce (b.map panel keyboardReset) (long || user)
    (⟨send, false⟩, b)
  else
    let (click, b) := b.released
    let (send, b) := b.announce (b.map panel keyboardReset) false
    (⟨send, click⟩, b)

end Buttons

end IoController.Panel
