import IoController.Board.Pins
import IoController.Board.SpiBus
import IoController.Board.StatusLight
import IoController.Board.Volume

/-!
# Board — Peripherals

The surroundings of the controller, made of what the board offers.  The OSD's menu runs
elsewhere, so what the OSD is told goes nowhere.
-/

namespace IoController.Board

/-- An analog input `pin` and the `channel` of the front panel that it feeds. -/
structure PanelInput where
  pin : UInt8
  channel : Nat

/-- What the board is set up with, and what it remembers for the controller. -/
structure Peripherals where
  pins : PinMap := .standard
  panelInputs : List PanelInput := []
  medium : Disk.Medium := ⟨0, false⟩
  /-- Whether the root directory of a volume is open. -/
  mounted : Bool := false
  light : Option StatusLight := none
  /-- The last state of the front panel. -/
  panel : Panel.State := ∅
  leds : Keyboard.Locks := ∅

namespace Peripherals

/-- The lines of a joystick port in the order of its pins. -/
def db9Switches : List Joystick.Switch := [.up, .down, .left, .right, .button1]

/-- Has the light show `status`, if there is one. -/
def setStatus (p : Peripherals) (status : Status) : Procedure Peripherals := do
  match p.light with
  | none => pure p
  | some light =>
    let light ← light.display status
    pure { p with light := some light }

/-- What the link asks of the hardware, on the board's `pins`. -/
def serveBus (pins : PinMap) : (r : SpiBus.Request) → Procedure (SpiBus.Reply r)
  | .setSelect target high => do
    ask (.setPin (pins.linkSelect target) high)
    pure true
  | .exchange byte => ask (.exchange byte)
  | .flush => ask .flush

/-- Samples joystick lines, which are low when a switch is closed. -/
def readLines : List (UInt8 × Joystick.Switch) → Procedure Joystick.State
  | [] => pure ∅
  | (pin, switch) :: lines => do
    let high ← ask (.readPin pin)
    let rest ← readLines lines
    pure (if high then rest else .single switch ∪ rest)

/-- Samples the joystick port `port`.  One that does not exist has no switch closed. -/
def readDb9 (pins : PinMap) (port : Nat) : Procedure Joystick.State :=
  match pins.db9[port]? with
  | some lines => readLines (lines.toList.zip db9Switches)
  | none => pure ∅

/-- Samples analog inputs into `panel`; the upper eight of twelve bits count.  One that cannot be
read changes nothing. -/
def readInputs (panel : Panel.State) : List PanelInput → Procedure Panel.State
  | [] => pure panel
  | input :: inputs => do
    match ← ask (.readAnalog input.pin) with
    | some sample => readInputs (panel.withSample input.channel (sample >>> 4).toUInt8) inputs
    | none => readInputs panel inputs

/-- Serves what the controller asks of the services around it, as far as the board `p` has them. -/
def serveHost (p : Peripherals) : (r : Host.Request) → Procedure (Host.Reply r × Peripherals)
  | .setLeds locks on => do
    let leds := p.leds.put locks on
    let _ ← ask (.sendLine (Bridge.Frame.ofLeds leds).bytes)
    pure ((), { p with leds })
  | .osdKey _ | .osdVisible _ | .osdReset | .showError _ => pure ((), p)
  | .diskActivity active => do
    let p ← p.setStatus (if active then .disk else .ready)
    pure ((), p)
  | .readDb9 port => do
    let state ← readDb9 p.pins port
    pure (state, p)
  | .readPanel => do
    let panel ← readInputs p.panel p.panelInputs
    pure (panel, { p with panel })

/-- Serves what the controller asks of a device: of the link by `serveLink`, of the SD card by
`serveMedium` and `serveFile`, and of everything else by `serveHost`. -/
def serve (p : Peripherals) : (r : Device.Request) → Procedure (Device.Reply r × Peripherals)
  | .link r => do
    let (reply, _) ← (SpiBus.serveLink r).simulate
      (fun (_ : Unit) r => (·, ()) <$> serveBus p.pins r) ()
    pure (reply, p)
  | .medium r => do
    let reply ← serveMedium p.medium r
    pure (reply, p)
  | .file r => do
    let reply ← serveFile p.mounted r
    pure (reply, p)
  | .host r => p.serveHost r

/-- Runs a program of the controller on the board, each request being carried out by `serve`. -/
def perform {α : Type} (p : Peripherals) (action : Action α) : Procedure (α × Peripherals) :=
  action.simulate serve p

end Peripherals

end IoController.Board
