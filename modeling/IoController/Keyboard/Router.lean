import IoController.Core.Profile
import IoController.Keyboard.Emulation
import IoController.Settings

/-!
# Keyboard — Router

Every report is compared with the one before, and the differences become events.  Where a key
goes (to the core, to the OSD, to the emulated mouse or joystick, or nowhere) is decided when it
goes down and remembered until it comes up, so that its release goes where its press went even
if the OSD or the emulation mode changes in between.

A report is taken in by passes, each of which returns its events and the new state:

* `resetPass` looks for the reset combination;
* `modifiersPass` compares the modifiers;
* `breakPass` releases the keys that came up;
* `makePass` routes the keys that went down.
-/

namespace IoController.Keyboard

/-- Where a key's press went. -/
inductive Route where
  /-- To the core, and to the OSD under the code given. -/
  | core (code : KeyCode) (osd : Option UInt8)
  /-- To the emulated mouse or joystick. -/
  | emulation (directions : Joystick.State)
  | osd (code : UInt8)
  /-- It opened or closed the OSD. -/
  | osdOpen
  | nowhere
  deriving DecidableEq

/-- The keys that reset the core; the left shift key makes it the firmware. -/
structure ResetCombination where
  modifiers : Modifiers
  delete : Bool
  deriving DecidableEq

namespace ResetCombination

/-- The usage of the delete key. -/
def deleteUsage : UInt8 := 0x4c

/-- The combination number `n`.  A number too high stands for the first. -/
def ofNumber (n : UInt8) : ResetCombination :=
  match n with
  | 1 => ⟨.ofList [.leftCtrl, .leftGui, .rightGui], false⟩
  | 2 => ⟨.ofList [.leftCtrl, .leftAlt], true⟩
  | _ => ⟨.ofList [.leftCtrl, .leftAlt, .rightAlt], false⟩

/-- What `r` holds down, the left shift key apart. -/
def ofReport (r : Report) : ResetCombination :=
  ⟨r.modifiers \ .single .leftShift, r.contains deleteUsage⟩

end ResetCombination

/-- The keyboard: how it is set up, what the core takes, and what is held where. -/
structure Router where
  remap : Remap
  menuAsRightGui : Bool
  resetCombination : ResetCombination
  profile : Option Profile := none
  /-- The priority of the keyboard whose report was taken in last. -/
  lastPriority : UInt8 := 255
  /-- The last report, after remapping. -/
  pressed : Report := {}
  /-- Where each pressed key went. -/
  routes : List (UInt8 × Route) := []
  /-- The modifiers that the core believes to be down. -/
  sentModifiers : Modifiers := ∅
  /-- What the reset combination that is held asked for. -/
  resetPending : Option Reset := none
  osdVisible : Bool := false
  capsLock : Bool := false
  emulation : Emulation := {}

namespace Router

/-- The most events that one report may make happen. -/
def maxEvents : Nat := 48

/-- The keyboard with the settings `s`, before any core and any report. -/
def ofSettings (s : Settings) : Router where
  remap := s.remap
  menuAsRightGui := s.menuAsRightGui
  resetCombination := .ofNumber s.resetCombo

/-- Turns to a core with another `profile`.  What was pressed is forgotten without being released,
because the new core never saw it go down. -/
def adoptProfile (r : Router) (profile : Option Profile) : Router :=
  { r with
    profile
    pressed := {}
    routes := []
    sentModifiers := ∅
    lastPriority := 255
    osdVisible := false }

/-- Records that the OSD was opened or closed, as `visible` says, by something other than a key. -/
def setOsdVisible (r : Router) (visible : Bool) : Router :=
  { r with osdVisible := visible }

/-- Whether the combination that resets the core is held, as `resetPending` has it. -/
def resetHeld (r : Router) : Bool := r.resetPending == some (.core true)

/-- Moves the emulated mouse if it is time to (`Emulation.tick`) and the OSD is closed. -/
def tick (r : Router) (now : Instant) : Option Event × Router :=
  if r.osdVisible then (none, r)
  else
    let (event, emulation) := r.emulation.tick now
    (event, { r with emulation })

/-- Runs `pass` over the keys of a list, one after the other. -/
def forKeys (pass : Router → UInt8 → List Event × Router) (r : Router) :
    List UInt8 → List Event × Router
  | [] => ([], r)
  | key :: keys =>
    let (events, r) := pass r key
    let (rest, r) := forKeys pass r keys
    (events ++ rest, r)

/-! ### The reset combination -/

/-- Looks for the `resetCombination`.  It is reported when it goes down, and a held core reset also
when it comes up. -/
def resetPass (r : Router) (report : Report) : List Event × Router :=
  if ResetCombination.ofReport report = r.resetCombination then
    match r.resetPending with
    | some _ => ([], r)
    | none =>
      let request : Reset :=
        if report.modifiers.has .leftShift then .firmware else .core true
      ([.reset request], { r with resetPending := some request })
  else
    (if r.resetHeld then [.reset (.core false)] else [], { r with resetPending := none })

/-! ### Modifiers -/

/-- The key event of the modifier numbered `bit`, if `wanted` has it and `sentModifiers` has not, or
the other way round. -/
def modifierEdge? (layout : Layout) (sentModifiers wanted : Modifiers) (bit : Nat) : Option Event :=
  let mask : Modifiers := ⟨1 <<< bit.toUInt8⟩
  let was := sentModifiers.meets mask
  let now := wanted.meets mask
  let code := layout.modifier bit
  if was = now ∨ code.isMiss then none else some (.key code now)

/-- The `modifiers` that are buttons of the emulated mouse or joystick. -/
def emulationButtons (r : Router) (modifiers : Modifiers) : Modifiers :=
  if r.emulation.isActive && !r.osdVisible then modifiers ∩ Emulation.buttonModifiers else ∅

/-- Compares `modifiers` with those that the core believes to be down.  While the OSD is open
modifiers are released, and none is pressed. -/
def modifiersPass (r : Router) (layout : Layout) (modifiers : Modifiers) :
    List Event × Router :=
  let buttons := r.emulationButtons modifiers
  let (mouse, joystick, emulation) := r.emulation.setButtons buttons
  let wanted := if r.osdVisible then r.sentModifiers ∩ modifiers else modifiers \ buttons
  (mouse.toList ++ joystick.toList ++
      (List.range 8).filterMap (modifierEdge? layout r.sentModifiers wanted),
    { r with emulation, sentModifiers := wanted })

/-! ### Keys that come up -/

/-- The release of a key, by the `Route` of its press. -/
def release (r : Router) : Route → List Event × Router
  | .core code osd =>
    (.key code false :: (osd.map fun c => .osdKey (c ||| osdReleased)).toList, r)
  | .emulation directions =>
    let (event, emulation) := r.emulation.release directions
    (event.toList, { r with emulation })
  | .osd code => ([.osdKey (code ||| osdReleased)], r)
  | .osdOpen => ([.osdKey (osdMenuKey ||| osdReleased)], r)
  | .nowhere => ([], r)

/-- A `key` goes up: its route is forgotten, and the release goes where the press went. -/
def breakKey (r : Router) (key : UInt8) : List Event × Router :=
  let route := (r.routes.lookup key).getD .nowhere
  ({ r with routes := r.routes.eraseP (·.1 == key) }).release route

/-- Releases the keys that `report` no longer has. -/
def breakPass (r : Router) (report : Report) : List Event × Router :=
  r.forKeys breakKey (r.pressed.pressed.filter fun k => !report.contains k)

/-! ### Keys that go down -/

/-- The OSD key opens or closes the OSD, and is sent to it as `osdMenuKey`. -/
def toggleOsd (r : Router) : List Event × Route × Router :=
  let visible := !r.osdVisible
  ([.osdVisible visible, .osdKey osdMenuKey], .osdOpen, { r with osdVisible := visible })

/-- A key with a `selector` changes the emulation mode, which the LEDs show. -/
def selectEmulation (r : Router) (selector : UInt8) (now : Instant) :
    List Event × Route × Router :=
  let emulation := r.emulation.select selector now
  ((emulation.leaveEvent? r.emulation.mode).toList ++
      [.leds (.single .num) emulation.mode.numLed,
        .leds (.single .scroll) emulation.mode.scrollLed],
    .nowhere, { r with emulation })

/-- A key goes to the core under `code`, with the OSD told under the code `osd`.  Caps lock is seen
by the core as make and break by turns, and is never released. -/
def sendKey (r : Router) (code : KeyCode) (osd : Option UInt8) :
    List Event × Route × Router :=
  let echo : List Event := (osd.map .osdKey).toList
  let osdRoute : Route := osd.elim .nowhere .osd
  if code.togglesCaps then
    let caps := !r.capsLock
    (echo ++ [.key code caps, .leds (.single .caps) caps], osdRoute, { r with capsLock := caps })
  else if code.isMiss then (echo, osdRoute, r)
  else (echo ++ [.key code true], .core code osd, r)

/-- Where a `key` that the emulation does not claim goes. -/
def routeKey (r : Router) (layout : Layout) (captures : Bool) (key : UInt8) (now : Instant) :
    List Event × Route × Router :=
  let code := layout.lookup key r.menuAsRightGui
  if code.opensOsd && code.code == 0 then r.toggleOsd
  else
    match code.emulationSelector? with
    | some selector => r.selectEmulation selector now
    | none =>
      let osd := if r.osdVisible then osdCode? key else none
      if r.osdVisible && captures then
        ((osd.map .osdKey).toList, osd.elim .nowhere .osd, r)
      else r.sendKey code osd

/-- The direction that `key` stands for.  While the OSD is open it stands for none. -/
def claimed? (r : Router) (key : UInt8) : Option Joystick.State :=
  if r.osdVisible then none else r.emulation.claimed? key

/-- A `key` goes down: its events, and where it goes. -/
def press (r : Router) (layout : Layout) (captures : Bool) (key : UInt8) (now : Instant) :
    List Event × Route × Router :=
  match r.claimed? key with
  | some directions =>
    let (event, emulation) := r.emulation.press directions
    (event.toList, .emulation directions, { r with emulation })
  | none => r.routeKey layout captures key now

/-- A `key` goes down and its route is remembered.  Without room for the route nothing happens. -/
def makeKey (layout : Layout) (captures : Bool) (now : Instant) (r : Router) (key : UInt8) :
    List Event × Router :=
  if r.routes.length < maxKeys then
    let (events, route, r) := r.press layout captures key now
    (events, { r with routes := r.routes ++ [(key, route)] })
  else ([], r)

/-- Routes the keys of `report` that the last report did not have. -/
def makePass (r : Router) (layout : Layout) (captures : Bool) (report : Report)
    (now : Instant) : List Event × Router :=
  r.forKeys (makeKey layout captures now)
    (report.pressed.filter fun k => !r.pressed.contains k)

/-! ### A report -/

/-- Whether `report` is passed over: an idle keyboard must not release the keys of one that goes
first. -/
def ignores (r : Router) (report : Report) (priority : UInt8) : Bool :=
  report.isIdle && r.lastPriority < priority

/-- Takes in the keys of a `report` that was remapped: first modifiers, then releases, then presses.
-/
def passes (r : Router) (report : Report) (now : Instant) : List Event × Router :=
  match r.profile with
  | some { layout := some layout, osdCapturesKeys, .. } =>
    let (modifiers, r) := r.modifiersPass layout report.modifiers
    let (breaks, r) := r.breakPass report
    let (makes, r) := r.makePass layout osdCapturesKeys report now
    (modifiers ++ breaks ++ makes, { r with pressed := report })
  | _ => ([], { r with pressed := report })

/-- Everything that `report` makes happen, however much it is. -/
def process (r : Router) (report : Report) (priority : UInt8) (now : Instant) :
    List Event × Router :=
  if r.ignores report priority then ([], r)
  else
    let (reset, r) := { r with lastPriority := priority }.resetPass report
    let (events, r) := r.passes (r.remap.apply report).dedup now
    (reset ++ events, r)

/-- Takes in `report`.  There is room for `maxEvents` events. -/
def receive (r : Router) (report : Report) (priority : UInt8) (now : Instant) :
    List Event × Router :=
  let (events, r) := r.process report priority now
  (events.take maxEvents, r)

end Router

end IoController.Keyboard
