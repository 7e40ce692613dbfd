import IoController.Board.Firmware

/-!
# Board — Startup

Sets up the board and starts the tasks.  If something is not to be had the firmware starts over.
-/

namespace IoController.Board.Startup

/-- How long the hardware waits before the watchdog resets the board. -/
def watchdogTimeout : Duration := .seconds 4

/-- How often the watchdog looks at the tasks. -/
def watchdogCheck : Duration := .milliseconds 500

/-- The clock of the link to the FPGA, in Hz. -/
def linkFrequency : Nat := 16000000

/-- The clock of the SD card until it is initialised, in Hz. -/
def cardInitFrequency : Nat := 400000

/-- The clock of the SD card, in Hz. -/
def cardFrequency : Nat := 16000000

/-- The speed of the line to the USB host. -/
def lineBaud : Nat := 115200

/-- The analog inputs of the front panel: menu button, user button and first switch. -/
def panelInputs : List PanelInput := [⟨26, 2⟩, ⟨27, 3⟩, ⟨28, 1⟩]

/-- Starts `task`, or else the firmware over. -/
def spawn (task : Task) : Procedure Unit := do
  if ← ask (.spawn task) then pure () else restart

/-- Takes `pin` out of the stock.  If it is not there the firmware starts over. -/
def takePin (stock : PinStock) (pin : UInt8) : Procedure PinStock :=
  match stock.take? pin with
  | some stock => pure stock
  | none => restart

/-- Makes a plain pin an output with the level `high`. -/
def takeOutput (stock : PinStock) (pin : UInt8) (high : Bool) : Procedure PinStock := do
  let stock ← takePin stock pin
  ask (.createOutput pin high)
  pure stock

/-- Makes plain pins of the `stock` inputs that are high unless something pulls them low. -/
def takeInputs (stock : PinStock) : List UInt8 → Procedure PinStock
  | [] => pure stock
  | pin :: pins => do
    let stock ← takePin stock pin
    ask (.createInput pin true)
    takeInputs stock pins

/-- Sets up the front panel's analog inputs. -/
def createAnalogs : List PanelInput → Procedure Unit
  | [] => pure ()
  | input :: inputs => do
    ask (.createAnalog input.pin)
    createAnalogs inputs

/-- Sets up the watchdog, with room for every task that it polices. -/
def createWatchdog : Procedure Unit :=
  ask (.createWatchdog Policed.all.length watchdogTimeout watchdogCheck)

/-- Sets up the SD card: slow until it is initialised, then fast.  The result is the medium, and
whether its root directory is open. -/
def createCard : Procedure (Disk.Medium × Bool) := do
  ask (.createBus .card 10 11 12 cardInitFrequency)
  ask (.createOutput 13 true)
  let medium ← findMedium
  ask (.setFrequency .card cardFrequency)
  let mounted ← openRoot
  pure (medium, mounted)

/-- Sets everything up and starts the tasks, the status light's first and the controller's last. -/
def boot : Procedure Firmware := do
  createWatchdog
  spawn .watchdog
  let pins := PinMap.standard
  let stock ← takeOutput .standard pins.statusLight false
  let now ← clock
  let light : StatusLight := { pin := pins.statusLight, lastToggle := now }
  spawn .status
  ask (.createBus .link 18 19 16 linkFrequency)
  let stock ← takeOutput stock (pins.linkSelect .io) true
  let stock ← takeOutput stock (pins.linkSelect .fpga) true
  let stock ← takeOutput stock (pins.linkSelect .osd) true
  let (medium, mounted) ← createCard
  ask (.createLine 0 1 lineBaud)
  let _ ← takeInputs stock (pins.db9.toList.flatMap Vector.toList)
  createAnalogs panelInputs
  let peripherals : Peripherals := { pins, panelInputs, medium, mounted, light := some light }
  spawn .io
  spawn .bridge
  pure { peripherals, controller := .ofSettings {} medium }

/-- What is done about a failed assertion: the firmware starts over. -/
def panic {α : Type} : Procedure α := restart

end IoController.Board.Startup
