import IoController.Board.Peripherals
import IoController.Bridge.Decoder
import IoController.Controller.Poll

/-!
# Board — Firmware

The tasks of the firmware.  A task runs until it has to wait, says what for, and is woken when
that has come.  All state is in one value, because no two tasks ever run at once.
-/

namespace IoController.Board

/-- What a task waits for. -/
inductive Wait where
  | forever
  | time (due : Instant)
  /-- A byte from the USB host, or a point in time if none comes before. -/
  | byte (due : Instant)
  deriving DecidableEq

/-- Why a task is woken. -/
inductive Wake where
  | start
  | time
  | byte (b : UInt8)
  /-- The line to the USB host failed. -/
  | lineError

/-- Whether a wait is over at `now` and why, with the `next` thing to be had from the USB host: a
byte or a failure of the line, which come before the time. -/
def Wait.over? (now : Instant) (next : Option (Option UInt8)) : Wait → Option Wake
  | .forever => none
  | .time due => if due ≤ now then some .time else none
  | .byte due =>
    match next with
    | some (some b) => some (.byte b)
    | some none => some .lineError
    | none => if due ≤ now then some .time else none

/-- The state of all tasks. -/
structure Firmware where
  peripherals : Peripherals
  controller : Controller
  /-- The last state of the controller's loop. -/
  phase : Controller.Phase := .running
  decoder : Bridge.Decoder := .idle
  /-- What the USB devices have reported and the controller has not taken in. -/
  inbox : List UsbReport := []

namespace Firmware

/-- How many reports can wait in `inbox`. -/
def inboxSize : Nat := 16

/-- How long the controller's loop pauses so that other tasks can run. -/
def loopPause : Duration := 100

/-- The longest wait for a byte from the USB host. -/
def lineTimeout : Duration := .milliseconds 250

/-- Puts `input` into the `inbox`, for the controller.  Without room it is lost. -/
def post (f : Firmware) (input : UsbReport) : Firmware :=
  if f.inbox.length < inboxSize then { f with inbox := f.inbox ++ [input] } else f

/-- Runs a program of the controller, by `Peripherals.perform`. -/
def perform (f : Firmware) (action : Action Controller) : Procedure Firmware := do
  let (controller, peripherals) ← f.peripherals.perform action
  pure { f with controller, peripherals }

/-- Has the status light show `status`. -/
def setStatus (f : Firmware) (status : Status) : Procedure Firmware := do
  let peripherals ← f.peripherals.setStatus status
  pure { f with peripherals }

/-- Has the watchdog police `task` from now on. -/
def police (task : Policed) : Procedure Unit := ask (.police task task.interval)

/-! ### The status light -/

/-- A round of the status task: it shows that it lives, sees to the light, and waits no longer than
`StatusLight.workInterval`. -/
def statusRound (f : Firmware) : Procedure (Wait × Firmware) := do
  ask (.feed .status)
  match f.peripherals.light with
  | none =>
    let now ← clock
    pure (.time (now + StatusLight.workInterval), f)
  | some light =>
    let (pause, light) ← light.work
    let now ← clock
    pure (.time (now + min pause StatusLight.workInterval),
      { f with peripherals.light := some light })

/-! ### The controller -/

/-- Has the controller `c` take in all reports, the first one first. -/
def handleAll (c : Controller) (now : Instant) : List UsbReport → Action Controller
  | [] => pure c
  | input :: inputs => do
    let c ← c.handle input now
    handleAll c now inputs

/-- Acts on a change of the loop's `state`: on `restart` the board restarts, and else the light
shows how the core is. -/
def follow (f : Firmware) (state : Controller.Phase) : Procedure Firmware :=
  if state = f.phase then pure f
  else
    let f := { f with phase := state }
    match state with
    | .restart => Board.restart
    | .reloading => f.setStatus .detecting
    | .running | .idle => f.setStatus .ready

/-- A round of the controller's task: it empties the `inbox`, handles what was in it, and polls
once. -/
def ioRound (f : Firmware) : Procedure (Wait × Firmware) := do
  let now ← clock
  ask (.feed .io)
  let f ← { f with inbox := [] }.perform (handleAll f.controller now f.inbox)
  let ((state, controller), peripherals) ← f.peripherals.perform (f.controller.poll now)
  let f ← { f with controller, peripherals }.follow state
  let now ← clock
  pure (.time (now + loopPause), f)

/-- The start of the controller's task: the core is identified before the first `ioRound`. -/
def ioStart (f : Firmware) : Procedure (Wait × Firmware) := do
  police .io
  let f ← f.perform f.controller.start
  let f ← f.setStatus .ready
  f.ioRound

/-! ### The line to the USB host -/

/-- The end of a round of the bridge's task: it waits for the next byte, until `lineTimeout`. -/
def bridgeWait (f : Firmware) : Procedure (Wait × Firmware) := do
  ask (.feed .bridge)
  let now ← clock
  pure (.byte (now + lineTimeout), f)

/-- Takes in the byte `b` from the USB host.  A report that it ends is posted. -/
def receive (f : Firmware) (b : UInt8) : Firmware :=
  let (report, decoder) := f.decoder.push b
  let f := { f with decoder }
  report.elim f f.post

/-! ### All tasks -/

/-- Runs `task`, woken by `wake`, until it has to wait again. -/
def step (f : Firmware) (task : Task) (wake : Wake) : Procedure (Wait × Firmware) :=
  match task, wake with
  | .watchdog, _ => do
    ask .watch
    pure (.forever, f)
  | .status, .start => do
    police .status
    f.statusRound
  | .status, _ => f.statusRound
  | .io, .start => f.ioStart
  | .io, _ => f.ioRound
  | .bridge, .start => do
    police .bridge
    f.bridgeWait
  | .bridge, .byte b => (f.receive b).bridgeWait
  | .bridge, _ => f.bridgeWait

end Firmware

end IoController.Board
