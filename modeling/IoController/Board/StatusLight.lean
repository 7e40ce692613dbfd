import IoController.Board.Hardware

/-!
# Board — StatusLight

The status light blinks while a core is looked for, is off while one runs, and is on while the
SD card is used.
-/

namespace IoController.Board

/-- What the light shows. -/
inductive Status where
  /-- A core is looked for: the light blinks. -/
  | detecting
  /-- A core runs: the light is off. -/
  | ready
  /-- The SD card is used: the light is on. -/
  | disk
  deriving DecidableEq

/-- The light on `pin`, and when it changed last. -/
structure StatusLight where
  pin : UInt8
  status : Status := .detecting
  lastToggle : Instant
  on : Bool := true

namespace StatusLight

/-- How long the light stays on, and how long off, when it blinks. -/
def blinkInterval : Duration := .milliseconds 100

/-- The longest pause between two looks at the light. -/
def workInterval : Duration := .milliseconds 50

/-- Turns the light `l` on or off. -/
def switch (l : StatusLight) (on : Bool) : Procedure StatusLight := do
  ask (.setPin l.pin on)
  let now ← clock
  pure { l with on, lastToggle := now }

/-- Has the light show `status`.  Nothing happens if it shows it already. -/
def display (l : StatusLight) (status : Status) : Procedure StatusLight :=
  if l.status = status then pure l
  else
    let l := { l with status }
    match status with
    | .ready => l.switch false
    | .disk => l.switch true
    | .detecting => pure l

/-- Blinks if it is time to, while the status is `detecting`.  The result says how long nothing
needs to be done. -/
def work (l : StatusLight) : Procedure (Duration × StatusLight) :=
  if l.status = .detecting then do
    let now ← clock
    let elapsed := now - l.lastToggle
    if blinkInterval ≤ elapsed then
      let l ← l.switch !l.on
      pure (blinkInterval, l)
    else pure (blinkInterval - elapsed, l)
  else pure (blinkInterval, l)

end StatusLight

end IoController.Board
