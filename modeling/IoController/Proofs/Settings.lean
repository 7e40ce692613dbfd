import IoController.Settings
import IoController.Proofs.Keyboard.RemapTable

/-!
# Settings

Settings are applied whole or not at all, and one at a time.

* `Setting`: the settings there are, by name, and `Settings.get` for what they are set to.
* `Settings.addsRemap`: what an entry for a remapped key comes to.
* `Settings.assigns`: the three ways a setting can go.  `Settings.assign_error`: one that is refused
  leaves all of them as they are, so that a caller of `Settings.apply` is told everything
  (`Settings.handsBack_apply`).
* `Settings.remap_after`: the table after any row of settings is what the texts given to `key_remap`
  make of it, one after another.
* `Settings.applied_whole`: all of this, with what a key stands for in the end.
-/

namespace IoController

open Keyboard (Remap)

/-- The settings there are. -/
inductive Setting where
  | joystick0PreferDb9
  | menuAsRightGui
  | resetCombo
  | scandoublerDisable
  | ypbpr
  | remap
  deriving DecidableEq

namespace Setting

/-- The name by which the setting is known. -/
def name : Setting → String
  | joystick0PreferDb9 => "joystick0_prefer_db9"
  | menuAsRightGui => "key_menu_as_rgui"
  | resetCombo => "reset_combo"
  | scandoublerDisable => "scandoubler_disable"
  | ypbpr => "ypbpr"
  | remap => "key_remap"

/-- What the setting can be set to. -/
def Value : Setting → Type
  | resetCombo => UInt8
  | remap => Remap
  | _ => Bool

/-- The `key` names the setting, with blanks around the name or not. -/
def Named (setting : Setting) (key : String) : Prop :=
  String.ofList (Text.trim key.toList) = setting.name

instance (setting : Setting) (key : String) : Decidable (setting.Named key) :=
  inferInstanceAs (Decidable (_ = _))

end Setting

namespace Settings

/-- What a `setting` is set to. -/
def get (s : Settings) : (setting : Setting) → setting.Value
  | .joystick0PreferDb9 => s.joystick0PreferDb9
  | .menuAsRightGui => s.menuAsRightGui
  | .resetCombo => s.resetCombo
  | .scandoublerDisable => s.scandoublerDisable
  | .ypbpr => s.ypbpr
  | .remap => s.remap

/-- The settings `s` with one of them set. -/
def set (s : Settings) : (setting : Setting) → setting.Value → Settings
  | .joystick0PreferDb9, on => { s with joystick0PreferDb9 := on }
  | .menuAsRightGui, on => { s with menuAsRightGui := on }
  | .resetCombo, n => { s with resetCombo := n }
  | .scandoublerDisable, on => { s with scandoublerDisable := on }
  | .ypbpr, on => { s with ypbpr := on }
  | .remap, t => { s with remap := t }

/-- To set one `setting` leaves every `other` as it is. -/
theorem get_set_of_ne {setting other : Setting} (h : other ≠ setting) (s : Settings)
    (v : setting.Value) : (s.set setting v).get other = s.get other := by
  cases setting <;> cases other <;> first | rfl | exact absurd rfl h

variable {s : Settings} {key value : String}

/-! ### An entry for a remapped key -/

/-- What the entry `value` for a remapped key comes to: it is taken while there is room, ignored
when there is none, and refused, whether there is room or not, if it is no entry or has no key. -/
inductive AddsRemap (s : Settings) (value : String) : Prop
  | taken {entry : UInt8 × UInt8} (hspells : Remap.Spells value entry) (hkey : entry.1 ≠ 0)
      (hroom : s.remap.entries.length < Remap.maxEntries)
      (heq : s.addRemap value = (.ok (), s.set .remap ⟨s.remap.entries ++ [entry]⟩))
  | ignored {entry : UInt8 × UInt8} (hspells : Remap.Spells value entry) (hkey : entry.1 ≠ 0)
      (hfull : Remap.maxEntries ≤ s.remap.entries.length) (heq : s.addRemap value = (.ok (), s))
  | refused (hnone : ∀ entry, Remap.Spells value entry → entry.1 = 0)
      (heq : s.addRemap value = (.error .invalidValue, s))

theorem addsRemap (s : Settings) (value : String) : AddsRemap s value := by
  have heq := addRemap.eq_def s value
  have hoffer : s.remap.pushText value = s.remap.offer (.text value) := rfl
  rw [hoffer] at heq
  cases Remap.ends s.remap (.text value) with
  | taken hwrites hkey hroom hoffer =>
    rw [hoffer] at heq
    exact .taken hwrites hkey hroom heq
  | full hwrites hkey hfull hoffer =>
    rw [hoffer] at heq
    exact .ignored hwrites hkey hfull heq
  | noKey hwrites hkey hoffer =>
    rw [hoffer] at heq
    exact .refused (fun entry h => hwrites.unique h ▸ hkey) heq
  | malformed hnone hoffer =>
    rw [hoffer] at heq
    exact .refused (fun entry h => absurd h (hnone entry)) heq

/-- An `entry` is taken while there is room. -/
theorem addRemap_of_room {entry : UInt8 × UInt8} (hspells : Remap.Spells value entry)
    (hkey : entry.1 ≠ 0) (hroom : s.remap.entries.length < Remap.maxEntries) :
    s.addRemap value = (.ok (), s.set .remap ⟨s.remap.entries ++ [entry]⟩) := by
  cases addsRemap s value with
  | taken hspells' _ _ heq => rw [heq, hspells.unique hspells']
  | ignored _ _ hfull => exact absurd hroom (Nat.not_lt.2 hfull)
  | refused hnone => exact absurd (hnone entry hspells) hkey

/-- An `entry` is ignored when there is none. -/
theorem addRemap_of_full {entry : UInt8 × UInt8} (hspells : Remap.Spells value entry)
    (hkey : entry.1 ≠ 0) (hfull : Remap.maxEntries ≤ s.remap.entries.length) :
    s.addRemap value = (.ok (), s) := by
  cases addsRemap s value with
  | taken _ _ hroom => exact absurd hroom (Nat.not_lt.2 hfull)
  | ignored _ _ _ heq => exact heq
  | refused hnone => exact absurd (hnone entry hspells) hkey

theorem addRemap_of_none (hnone : ∀ entry, Remap.Spells value entry → entry.1 = 0) :
    s.addRemap value = (.error .invalidValue, s) := by
  cases addsRemap s value with
  | taken hspells hkey | ignored hspells hkey => exact absurd (hnone _ hspells) hkey
  | refused _ heq => exact heq

/-! ### One setting -/

/-- The ways it can go to assign `value` to `key`: there is no such setting, the value is refused,
or it is assigned. -/
inductive Assigns (s : Settings) (key value : String) : Prop
  | unknown (hnone : ∀ setting : Setting, ¬ setting.Named key)
      (heq : s.assign key value = (.error .unknownKey, s))
  | refused {setting : Setting} (hnamed : setting.Named key)
      (heq : s.assign key value = (.error .invalidValue, s))
  | assigned {setting : Setting} (hnamed : setting.Named key) {v : setting.Value}
      (heq : s.assign key value = (.ok (), s.set setting v))

/-- A `value` that can be read is assigned, any other refused. -/
theorem Assigns.of_put (setting : Setting) (hnamed : setting.Named key)
    {read : Option setting.Value} (heq : s.assign key value = s.put read (s.set setting)) :
    Assigns s key value := by
  cases read with
  | none => exact .refused hnamed heq
  | some v => exact .assigned hnamed heq

/-- A `value` that is to be an entry for a remapped key is refused or assigned. -/
theorem Assigns.of_addRemap (hnamed : Setting.remap.Named key)
    (heq : s.assign key value = s.addRemap value) : Assigns s key value := by
  cases addsRemap s value with
  | taken _ _ _ h | ignored _ _ _ h => exact .assigned hnamed (heq.trans h)
  | refused _ h => exact .refused hnamed (heq.trans h)

/-- The table is the setting of the name `key`. -/
theorem assign_remap (hnamed : Setting.remap.Named key) :
    s.assign key value = s.addRemap value := by
  unfold assign
  rw [hnamed]
  rfl

/-- Whatever `value` is assigned, it goes one of these ways. -/
theorem assigns (s : Settings) (key value : String) : Assigns s key value := by
  have heq := assign.eq_def s key value
  split at heq
  · next hname => exact .of_put .joystick0PreferDb9 hname heq
  · next hname => exact .of_put .menuAsRightGui hname heq
  · next hname => exact .of_put .scandoublerDisable hname heq
  · next hname => exact .of_put .ypbpr hname heq
  · next hname => exact .of_put .resetCombo hname heq
  · next hname => exact .of_addRemap hname heq
  · next hprefer hmenu hscandoubler hypbpr hreset hremap =>
    refine .unknown (fun setting hnamed => ?_) heq
    cases setting with
    | joystick0PreferDb9 => exact hprefer hnamed
    | menuAsRightGui => exact hmenu hnamed
    | resetCombo => exact hreset hnamed
    | scandoublerDisable => exact hscandoubler hnamed
    | ypbpr => exact hypbpr hnamed
    | remap => exact hremap hnamed

/-- A setting that is refused leaves all of them as they are. -/
theorem assign_error {e : SettingError} (h : (s.assign key value).1 = .error e) :
    (s.assign key value).2 = s := by
  cases assigns s key value with
  | unknown _ heq | refused _ heq => rw [heq]
  | assigned _ heq =>
    rw [heq] at h
    cases h

theorem get_assign (h : (s.assign key value).1 = .ok ()) :
    ∃ setting : Setting, setting.Named key ∧
      ∀ other ≠ setting, (s.assign key value).2.get other = s.get other := by
  cases assigns s key value with
  | unknown _ heq | refused _ heq =>
    rw [heq] at h
    cases h
  | assigned hnamed heq =>
    refine ⟨_, hnamed, fun other hother => ?_⟩
    rw [heq]
    exact get_set_of_ne hother s _

/-- `Settings.apply` hands back what `Settings.assign` comes to. -/
theorem handsBack_apply (s : Settings) (key value : String) :
    HandsBack (s.apply key value) (s.assign key value) s := .of_map fun _ => assign_error

/-! ### Rows of settings -/

/-- The settings after a row of keys with their values, each assigned by `assign`. -/
def after (s : Settings) (changes : List (String × String)) : Settings :=
  changes.foldl (fun s change => (s.assign change.1 change.2).2) s

/-- A caller who keeps the settings when `apply` refuses one comes to the same settings. -/
theorem after_eq_foldl_apply (s : Settings) (changes : List (String × String)) :
    s.after changes =
      changes.foldl (fun s change => (s.apply change.1 change.2).toOption.getD s) s := by
  simp only [after, (handsBack_apply _ _ _).getD]

/-- The values in `changes` that are given to the table. -/
def remapOffers (changes : List (String × String)) : List Remap.Offer :=
  changes.filterMap fun change =>
    if Setting.remap.Named change.1 then some (.text change.2) else none

theorem remapOffers_cons (change : String × String) (changes : List (String × String)) :
    remapOffers (change :: changes) =
      if Setting.remap.Named change.1 then .text change.2 :: remapOffers changes
      else remapOffers changes := by
  by_cases hnamed : Setting.remap.Named change.1 <;> simp [remapOffers, hnamed]

/-- Only the setting `Setting.remap` changes the table. -/
theorem remap_assign (s : Settings) (key value : String) :
    (s.assign key value).2.remap =
      if Setting.remap.Named key then (s.remap.pushText value).2 else s.remap := by
  split
  · next hnamed =>
    rw [assign_remap hnamed, addRemap]
    split
    next r remap h =>
    rw [h]
    dsimp only
    split <;> rfl
  · next hother =>
    cases assigns s key value with
    | unknown _ heq | refused _ heq => rw [heq]
    | @assigned setting hnamed v heq =>
      have hne : .remap ≠ setting := fun h => hother (h ▸ hnamed)
      rw [heq]
      exact get_set_of_ne hne s v

/-- The table after a row of `changes` is the one after the entries among them. -/
theorem remap_after (s : Settings) (changes : List (String × String)) :
    (s.after changes).remap = s.remap.after (remapOffers changes) := by
  induction changes generalizing s with
  | nil => rfl
  | cons change changes ih =>
    have hafter : s.after (change :: changes) = (s.assign change.1 change.2).2.after changes := rfl
    rw [hafter, ih, remap_assign, remapOffers_cons]
    by_cases hnamed : Setting.remap.Named change.1
    · rw [if_pos hnamed, if_pos hnamed]
      rfl
    · rw [if_neg hnamed, if_neg hnamed]

/-- **Settings are applied whole or not at all.**  One that `assign` refuses changes nothing, and
one that it does not changes no other.  Whether an entry for a remapped key is taken, ignored or
refused is told from its text, by `Remap.Spells`, and from the room there is; and after any row of
entries a key stands for the target of the first one that was taken for it (`Remap.StandsFor`).  The
entry points that return the new settings or table, or only the error, `Settings.apply`, `Remap.add`
and `Remap.addText`, hand back just that (`HandsBack`), and a caller who keeps what he had when one
is refused comes to the same settings and table. -/
theorem applied_whole :
    (∀ (s : Settings) (key value : String),
      (∀ e, (s.assign key value).1 = .error e → (s.assign key value).2 = s) ∧
      ((s.assign key value).1 = .ok () → ∃ setting : Setting, setting.Named key ∧
        ∀ other ≠ setting, (s.assign key value).2.get other = s.get other) ∧
      (Setting.remap.Named key →
        (∀ entry, Remap.Spells value entry → entry.1 ≠ 0 → s.remap.entries.length < 16 →
          s.assign key value = (.ok (), s.set .remap ⟨s.remap.entries ++ [entry]⟩)) ∧
        (∀ entry, Remap.Spells value entry → entry.1 ≠ 0 → 16 ≤ s.remap.entries.length →
          s.assign key value = (.ok (), s)) ∧
        ((∀ entry, Remap.Spells value entry → entry.1 = 0) →
          s.assign key value = (.error .invalidValue, s)))) ∧
    (∀ (t : Remap) (text : String),
      (∀ entry, t.pushText text = (.ok (), ⟨t.entries ++ [entry]⟩) ↔
        Remap.Spells text entry ∧ entry.1 ≠ 0 ∧ t.entries.length < 16) ∧
      ((∃ entry, (t.pushText text).2 = ⟨t.entries ++ [entry]⟩) ∨
        ∃ e, t.pushText text = (.error e, t))) ∧
    (∀ (t : Remap) (offers : List Remap.Offer),
      t.taken offers = (offers.filterMap Remap.Offer.offered?).take (16 - t.entries.length) ∧
      ∀ key target, (t.after offers).map key = target ↔
        Remap.StandsFor (t.entries ++ t.taken offers) key target) ∧
    (∀ (s : Settings) (changes : List (String × String)),
      (s.after changes).remap = s.remap.after (remapOffers changes)) ∧
    (∀ (s : Settings) (key value : String),
      HandsBack (s.apply key value) (s.assign key value) s) ∧
    (∀ (s : Settings) (changes : List (String × String)), s.after changes =
      changes.foldl (fun s change => (s.apply change.1 change.2).toOption.getD s) s) ∧
    (∀ (t : Remap) (source target : UInt8),
      HandsBack (t.add source target) (t.push source target) t) ∧
    (∀ (t : Remap) (text : String), HandsBack (t.addText text) (t.pushText text) t) ∧
    ∀ (t : Remap) (offers : List Remap.Offer),
      t.after offers = offers.foldl (fun t o => (t.accept o).toOption.getD t) t := by
  refine ⟨fun s key value => ⟨fun e => assign_error, get_assign, fun hnamed => ?_⟩,
    fun t text => ⟨fun entry => Remap.offer_eq_ok_iff (o := .text text), ?_⟩,
    fun t offers => ⟨t.taken_eq_take offers, fun key target => ?_⟩, remap_after,
    handsBack_apply, after_eq_foldl_apply, fun t source target => t.handsBack_accept (.keys _ _),
    fun t text => t.handsBack_accept (.text text), Remap.after_eq_foldl_accept⟩
  · rw [assign_remap hnamed]
    exact ⟨fun entry => addRemap_of_room, fun entry => addRemap_of_full, addRemap_of_none⟩
  · cases Remap.ends t (.text text) with
    | taken _ _ _ heq => exact .inl ⟨_, congrArg Prod.snd heq⟩
    | full _ _ _ heq | noKey _ _ heq | malformed _ heq => exact .inr ⟨_, heq⟩
  · rw [Remap.map_eq_iff, Remap.entries_after]

/-- Settings whose table has no room. -/
def crowded : Settings := { remap := ⟨List.replicate 16 (0x04, 0x05)⟩ }

/-- A `key` and its entry with blanks and a sign are read, a full table ignores an entry, and what
is no key or no switch is refused. -/
theorem applied_whole_crowded :
    assign {} " key_remap" "+4,4C\t" = (.ok (), set {} .remap ⟨[(0x04, 0x4c)]⟩) ∧
      crowded.assign "key_remap" "06,07" = (.ok (), crowded) ∧
      crowded.assign "key_remap" "00,07" = (.error .invalidValue, crowded) ∧
      (crowded.assign "ypbpr" "maybe").2 = crowded ∧
      ∃ setting : Setting, setting.Named "ypbpr" ∧
        ∀ other ≠ setting, (crowded.assign "ypbpr" "on").2.get other = crowded.get other := by
  have taken : Remap.Spells "+4,4C\t" (0x04, 0x4c) := Remap.spells_iff.2 (by decide)
  have ignored : Remap.Spells "06,07" (0x06, 0x07) := Remap.spells_iff.2 (by decide)
  have keyless : Remap.Spells "00,07" (0x00, 0x07) := Remap.spells_iff.2 (by decide)
  refine ⟨?_, ?_, ?_, ?_, ?_⟩
  · exact ((applied_whole.1 {} " key_remap" "+4,4C\t").2.2 (by decide)).1 _ taken (by decide)
      (by decide)
  · exact ((applied_whole.1 crowded "key_remap" "06,07").2.2 (by decide)).2.1 _ ignored (by decide)
      (by decide)
  · exact ((applied_whole.1 crowded "key_remap" "00,07").2.2 (by decide)).2.2
      fun entry h => congrArg Prod.fst (h.unique keyless)
  · exact (applied_whole.1 crowded "ypbpr" "maybe").1 .invalidValue (by decide)
  · exact (applied_whole.1 crowded "ypbpr" "on").2.1 (by decide)

end Settings

end IoController
