import IoController.Controller.Input

/-!
# Controller — Poll

One round of the controller's loop: the core is checked, its SD card served, what waited for its
time is sent, and the joystick ports, the front panel and the core's LEDs are looked at.
-/

namespace IoController.Controller

/-- What the loop is to make of a round. -/
inductive Phase where
  /-- A core runs that takes input. -/
  | running
  /-- There is no core to talk to. -/
  | idle
  /-- A new core is being loaded. -/
  | reloading
  /-- The firmware is to start over. -/
  | restart
  deriving DecidableEq

/-- How often the front panel is sampled. -/
def panelInterval : Duration := .milliseconds 25

/-- Serves the core's virtual SD card, if the core has one (`sdEmulation`). -/
def pollDisk (c : Controller) (profile : Profile) : Action Controller :=
  if profile.sdEmulation then do
    let (_, disk) ← c.disk.poll
    pure { c with disk }
  else pure c

/-- Sends the next value that waited for the keyboard link in the `limiter`. -/
def pollLimiter (c : Controller) (profile : Profile) (now : Instant) : Action Controller := do
  let (ready, limiter) := c.limiter.poll now
  match ready with
  | some value => sendLimited profile value
  | none => pure ()
  pure { c with limiter }

/-- Moves the emulated mouse on to `now`, and makes happen what comes of it. -/
def pollEmulation (c : Controller) (now : Instant) : Action Controller :=
  let (event, router) := c.router.tick now
  { c with router }.handleEvents now event.toList

/-- Sends a mouse packet if `Accumulator.poll` finds it time for one. -/
def pollMouse (c : Controller) (profile : Profile) (now : Instant) : Action Controller :=
  match c.mouse with
  | none => pure c
  | some mouse =>
    let (packet, mouse) := mouse.poll now
    let c := { c with mouse := some mouse }
    match packet with
    | some packet => c.sendMouse profile packet now
    | none => pure c

/-- Notes whether the OSD is open.  When it has closed every joystick port is reported anew
(`Db9.resend`), because changes were held back meanwhile. -/
def noteOsd (c : Controller) : Controller :=
  let visible := c.router.osdVisible
  let closed := c.osdWasVisible && !visible
  { c with db9 := if closed then c.db9.resend else c.db9, osdWasVisible := visible }

/-- Samples the physical joystick port `port`, and sends its state if it is to be reported. -/
def samplePort (c : Controller) (profile : Profile) (now : Instant) (port : Nat) :
    Action Controller := do
  let state ← Host.request (.readDb9 port)
  let (report, db9) := c.db9.sample port state
  let c := { c with db9 }
  match report with
  | some state => c.sendJoystick profile (c.portSlot (UInt8.ofNat port)) state now
  | none => pure c

/-- Samples both physical joystick ports (`samplePort`). -/
def pollPorts (c : Controller) (profile : Profile) (now : Instant) : Action Controller := do
  let c ← c.noteOsd.samplePort profile now 0
  let c ← c.samplePort profile now 1
  pure { c with db9 := c.db9.sampled }

/-- A click of the menu button opens or closes the OSD. -/
def menuClick (c : Controller) : Action Controller := do
  let visible := !c.router.osdVisible
  Host.request (.osdVisible visible)
  pure (c.setOsdVisible visible)

/-- Samples the front panel if it is time to, by `nextPanel`. -/
def pollPanel (c : Controller) (profile : Profile) (now : Instant) : Action Controller :=
  if c.nextPanel.reached now then do
    let panel ← Host.request .readPanel
    let held := c.router.resetHeld && !profile.osdReset
    let (update, buttons) := c.buttons.update panel held now
    let c := { c with nextPanel := some (now + panelInterval), buttons }
    match update.send with
    | some map => Link.command Link.Opcode.buttons [map.bits]
    | none => pure ()
    if update.menuClick then c.menuClick else pure c
  else pure c

/-- Tells the keyboard about LED changes, by a `setLeds` for each. -/
def showLeds : List (Keyboard.Lock × Bool) → Action Unit
  | [] => pure ()
  | (lock, on) :: rest => do
    Host.request (.setLeds (.single lock) on)
    showLeds rest

/-- Asks the core for its LEDs if they are `due`. -/
def pollLeds (c : Controller) (now : Instant) : Action Controller := do
  let (due, leds) := c.leds.due now
  if due then do
    let byte ← Link.ledStatus
    let (changes, leds) := leds.update byte
    showLeds changes
    pure { c with leds }
  else pure { c with leds }

/-- The part of a round that talks to a core that runs, in the order of the firmware's loop. -/
def pollInput (c : Controller) (profile : Profile) (now : Instant) : Action Controller := do
  let c ← c.pollDisk profile
  let c ← c.pollLimiter profile now
  let c ← c.pollEmulation now
  let c ← c.pollMouse profile now
  let c ← c.pollPorts profile now
  let c ← c.pollPanel profile now
  c.pollLeds now

/-- One round of the loop at `now`: whether the core is still there, and if it is, `pollInput`.  The
phase says what the loop is to make of the round. -/
def poll (c : Controller) (now : Instant) : Action (Phase × Controller) := do
  if c.restart then pure (.restart, c)
  else do
    let (check, monitor) ← c.monitor.poll
    let c := { c with monitor }
    match check with
    | .reloading => pure (.reloading, c)
    | .restart => pure (.restart, c)
    | .active | .mismatch _ =>
      match c.profile? with
      | none => pure (.idle, c)
      | some profile => do
        let c ← c.pollInput profile now
        pure (if c.restart then .restart else .running, c)

end IoController.Controller
