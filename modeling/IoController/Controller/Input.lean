import IoController.Controller.Basic

/-!
# Controller — Input

What a report from a USB device does.
-/

namespace IoController.Controller

/-- Grants what a reset `request` asks for.  A core's own reset is held through the panel's buttons;
only where the OSD resets the core is it told. -/
def reset (c : Controller) (request : Reset) : Action Controller :=
  match request with
  | .firmware => pure { c with restart := true }
  | .core held => do
    if held && c.profile?.any (·.osdReset) then Host.request .osdReset
    pure c

/-- Sets the firmware's own `locks`, and tells the keyboard what has changed. -/
def setLeds (c : Controller) (locks : Keyboard.Locks) (on : Bool) : Action Controller := do
  let (forward, leds) := c.leds.set locks on
  if !forward.isEmpty then Host.request (.setLeds forward on)
  pure { c with leds }

/-- Makes `event` happen.  Events for the core do nothing without a profile. -/
def handleEvent (c : Controller) (event : Event) (now : Instant) : Action Controller :=
  match event with
  | .reset request => c.reset request
  | .osdKey code => do
    Host.request (.osdKey code)
    pure c
  | .osdVisible visible => do
    Host.request (.osdVisible visible)
    pure c
  | .leds locks on => c.setLeds locks on
  | .key code make =>
    match c.profile? with
    | some profile => c.sendKey profile code make now
    | none => pure c
  | .mouse buttons dx dy =>
    match c.profile? with
    | some profile => c.moveMouse profile buttons dx dy now
    | none => pure c
  | .joystick port state =>
    match c.profile? with
    | some profile => c.sendJoystick profile (c.portSlot port) state now
    | none => pure c

/-- Makes events happen, one after another (`handleEvent`). -/
def handleEvents (c : Controller) (now : Instant) : List Event → Action Controller
  | [] => pure c
  | event :: events => do
    let c ← c.handleEvent event now
    c.handleEvents now events

/-- Takes in the `input` of a USB device. -/
def handle (c : Controller) (input : UsbReport) (now : Instant) : Action Controller :=
  match input with
  | .keyboard priority report =>
    let (events, router) := c.router.receive report priority now
    { c with router }.handleEvents now events
  | .mouse buttons dx dy => c.handleEvent (.mouse buttons dx dy) now
  | .joystick index state =>
    match c.profile? with
    | some profile => c.sendJoystick profile (Joystick.usbSlot index) state now
    | none => pure c
  | .joystickCount count => pure { c with usbJoysticks := count }

/-- Records that the OSD was opened or closed, as `visible` says, by the menu system. -/
def setOsdVisible (c : Controller) (visible : Bool) : Controller :=
  { c with router := c.router.setOsdVisible visible }

end IoController.Controller
