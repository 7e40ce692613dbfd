import IoController.Bridge.Frame
import IoController.Core.Monitor
import IoController.Joystick.Ports
import IoController.Keyboard.KeyCode
import IoController.Keyboard.Limiter
import IoController.Keyboard.Router
import IoController.Mouse

/-!
# Controller — Basic

The state of the whole controller, and how it talks to the core that was identified: keys, mouse
packets and joysticks, each as the core's profile has it.
-/

namespace IoController

/-- The controller's state: the core that runs, the input on its way to it, and its disks. -/
structure Controller where
  /-- Port 0 keeps slot 0 when there are USB joysticks. -/
  joystick0PreferDb9 : Bool
  monitor : Core.Monitor := {}
  router : Keyboard.Router
  limiter : Keyboard.Limiter := { interval := Keyboard.keyInterval }
  mouse : Option Mouse.Accumulator := none
  mouseKeys : Mouse.ButtonKeys := {}
  db9 : Joystick.Db9 := {}
  /-- Whether the OSD was open when the joystick ports were sampled last. -/
  osdWasVisible : Bool := false
  usbJoysticks : UInt8 := 0
  buttons : Panel.Buttons
  /-- When the front panel is sampled again. -/
  nextPanel : Deadline := none
  leds : Keyboard.Leds := {}
  disk : Disk.VirtualCard
  /-- Whether the user asked for the firmware to start over. -/
  restart : Bool := false

namespace Controller

/-- The controller with the settings `s` and the `medium`, before a core was identified. -/
def ofSettings (s : Settings) (medium : Disk.Medium) : Controller where
  joystick0PreferDb9 := s.joystick0PreferDb9
  router := .ofSettings s
  buttons := { scandoublerDisable := s.scandoublerDisable, ypbpr := s.ypbpr }
  disk := { cache := { medium } }

/-- What the core that `c` runs takes, if one is known. -/
def profile? (c : Controller) : Option Profile := c.monitor.profile?

/-- Readies everything for the core that `monitor` has identified. -/
def adopt (c : Controller) : Controller :=
  let profile := c.profile?
  let ikbd := profile.any fun p => p.keyboard = .ikbd
  { c with
    router := c.router.adoptProfile profile
    limiter := { interval := if ikbd then Keyboard.ikbdInterval else Keyboard.keyInterval }
    mouse := profile.bind fun p => p.mouse.map fun protocol => { protocol }
    mouseKeys := {}
    buttons := c.buttons.resend }

/-- Identifies the core and readies everything for it (`Monitor.detect`). -/
def start (c : Controller) : Action Controller := do
  let (monitor, disk) ← c.monitor.detect c.disk
  pure { c with monitor, disk }.adopt

/-! ### Keys -/

/-- Sends a `value` that has come through the limiter, by the command for the core's keyboard. -/
def sendLimited (profile : Profile) (value : UInt16) : Action Unit :=
  let opcode :=
    match profile.keyboard with
    | .amiga =>
      if Keyboard.KeyCode.goesToOsd value then Link.Opcode.osdKeyboard
      else Link.Opcode.keyboard
    | .ikbd => Link.Opcode.ikbd
    | _ => Link.Opcode.keyboard
  Link.command opcode [value.toUInt8]

/-- Sends `value` over the limited keyboard link as soon as it may go. -/
def submit (c : Controller) (profile : Profile) (value : UInt16) (now : Instant) :
    Action Controller := do
  let (ready, limiter) := c.limiter.submit value now
  match ready with
  | some value => sendLimited profile value
  | none => pure ()
  pure { c with limiter }

/-- Sends the press or release of the key `code` in the encoding that the core's keyboard takes.
What a PS/2 keyboard sends is not limited, and a core without a keyboard is sent nothing. -/
def sendKey (c : Controller) (profile : Profile) (code : Keyboard.KeyCode) (make : Bool)
    (now : Instant) : Action Controller :=
  match profile.keyboard with
  | .amiga => c.submit profile (code.minimig make) now
  | .ikbd | .archie => c.submit profile (code.serial make).toUInt16 now
  | .ps2 => do
    let bytes := code.ps2 make
    if bytes.isEmpty then pure c
    else do
      Link.command Link.Opcode.keyboard bytes
      pure c
  | .none => pure c

/-- Sends bytes one by one, as `submit` does over the limited keyboard link. -/
def submitBytes (c : Controller) (profile : Profile) (now : Instant) : Bytes → Action Controller
  | [] => pure c
  | b :: bs => do
    let c ← c.submit profile b.toUInt16 now
    c.submitBytes profile now bs

/-! ### Mouse -/

/-- Sends a mouse `packet`: over the limited keyboard link if the mouse hangs on it, and else by a
command of its own. -/
def sendMouse (c : Controller) (profile : Profile) (packet : Bytes) (now : Instant) :
    Action Controller :=
  if profile.mouse = some .ikbd then c.submitBytes profile now packet
  else do
    Link.command Link.Opcode.mouse packet
    pure c

/-- Sends the mouse buttons that go as keys, by `sendKey`. -/
def sendMouseKeys (c : Controller) (profile : Profile) (now : Instant) :
    List (UInt8 × Bool) → Action Controller
  | [] => pure c
  | (key, make) :: keys => do
    let c ← c.sendKey profile ⟨key.toUInt16⟩ make now
    c.sendMouseKeys profile now keys

/-- Takes in a mouse report, to be sent with the next packet.  On Archie `buttons` go as keys at
once. -/
def moveMouse (c : Controller) (profile : Profile) (buttons : UInt8) (dx dy : Int8)
    (now : Instant) : Action Controller := do
  let c ←
    if profile.mouse = some .archie then
      let (keys, mouseKeys) := c.mouseKeys.update buttons
      { c with mouseKeys }.sendMouseKeys profile now keys
    else pure c
  pure { c with mouse := c.mouse.map (·.add buttons dx dy) }

/-! ### Joysticks -/

/-- The header of a joystick's state on the Atari keyboard link, for slot 0. -/
def ikbdJoystickHeader : UInt8 := 0xfe

/-- The command that carries the digital state of `slot`. -/
def joystickOpcode (slot : UInt8) : UInt8 :=
  if slot < 2 then Link.Opcode.joystick0 + slot else Link.Opcode.joystick2 + (slot - 2)

/-- The first command with a joystick's `state`: over the keyboard link, or a command of its own. -/
def sendJoystickState (c : Controller) (profile : Profile) (slot : UInt8) (state : Joystick.State)
    (now : Instant) : Action Controller :=
  if profile.ikbdJoysticks && slot < 2 then
    c.submitBytes profile now [ikbdJoystickHeader + slot, state.ikbd]
  else do
    Link.command (joystickOpcode slot) [state.bits]
    pure c

/-- Sends the analog position that the directions of `state` come to. -/
def sendAnalog (slot : UInt8) (state : Joystick.State) : Action Unit :=
  let (x, y) := state.analog
  Link.command Link.Opcode.analogJoystick [slot, x.toUInt8, y.toUInt8]

/-- Sends the `state` of `slot`.  Nothing is sent for a slot that no core has, or while the OSD is
open. -/
def sendJoystick (c : Controller) (profile : Profile) (slot : UInt8) (state : Joystick.State)
    (now : Instant) : Action Controller :=
  if Joystick.slotCount ≤ slot ∨ c.router.osdVisible then pure c
  else do
    let c ← c.sendJoystickState profile slot state now
    Link.command (Link.Opcode.joystickExtended + slot)
      (Bytes.littleEndian state.bits.toUInt32)
    if profile.analogJoystick then sendAnalog slot state
    pure c

/-- The slot of the physical joystick port `port`. -/
def portSlot (c : Controller) (port : UInt8) : UInt8 :=
  Joystick.portSlot port c.usbJoysticks c.joystick0PreferDb9

end Controller

end IoController
