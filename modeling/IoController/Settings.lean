import IoController.Keyboard.Remap

/-!
# Settings

The user's settings.  They are applied one by one as pairs of texts; what is not set keeps its
default.
-/

namespace IoController

/-- Why a setting is refused. -/
inductive SettingError where
  /-- There is no setting of that name. -/
  | unknownKey
  /-- The setting cannot have that value. -/
  | invalidValue
  deriving DecidableEq

/-- The settings that the user can make. -/
structure Settings where
  /-- The mouse port stays joystick 0 when there are USB joysticks. -/
  joystick0PreferDb9 : Bool := false
  /-- The menu key is the right GUI key and does not open the OSD. -/
  menuAsRightGui : Bool := false
  /-- Which key combination resets the core. -/
  resetCombo : UInt8 := 0
  scandoublerDisable : Bool := false
  ypbpr : Bool := false
  remap : Keyboard.Remap := {}
  deriving DecidableEq

namespace Settings

/-- How many reset combinations there are. -/
def resetCombos : UInt8 := 3

/-- The switch that `value` writes, in one of eight ways. -/
def bool? (value : String) : Option Bool :=
  let text := String.ofList (Text.trim value.toList)
  if text ∈ ["1", "true", "yes", "on"] then some true
  else if text ∈ ["0", "false", "no", "off"] then some false
  else none

/-- The number of a reset combination that `value` writes. -/
def resetCombo? (value : String) : Option UInt8 :=
  match Text.byte? 10 (Text.trim value.toList) with
  | some n => if n < resetCombos then some n else none
  | none => none

/-- Assigns a `value` that has been read by `set`.  One that could not be read is refused. -/
def put {α : Type} (s : Settings) (value : Option α) (set : α → Settings) :
    Except SettingError Unit × Settings :=
  match value with
  | some v => (.ok (), set v)
  | none => (.error .invalidValue, s)

/-- Adds the entry for a remapped key that `value` writes.  A full table ignores the entry. -/
def addRemap (s : Settings) (value : String) : Except SettingError Unit × Settings :=
  let (r, remap) := s.remap.pushText value
  let s := { s with remap }
  match r with
  | .ok () | .error .full => (.ok (), s)
  | .error _ => (.error .invalidValue, s)

/-- Assigns `value` to the setting named `key`: how that ends, and the settings it leaves. -/
def assign (s : Settings) (key value : String) : Except SettingError Unit × Settings :=
  match String.ofList (Text.trim key.toList) with
  | "joystick0_prefer_db9" => s.put (bool? value) ({ s with joystick0PreferDb9 := · })
  | "key_menu_as_rgui" => s.put (bool? value) ({ s with menuAsRightGui := · })
  | "scandoubler_disable" => s.put (bool? value) ({ s with scandoublerDisable := · })
  | "ypbpr" => s.put (bool? value) ({ s with ypbpr := · })
  | "reset_combo" => s.put (resetCombo? value) ({ s with resetCombo := · })
  | "key_remap" => s.addRemap value
  | _ => (.error .unknownKey, s)

/-- The settings with `value` assigned to `key`, if `assign` does not refuse it. -/
def apply (s : Settings) (key value : String) : Except SettingError Settings :=
  (s.assign key value).1.map fun _ => (s.assign key value).2

end Settings

end IoController
