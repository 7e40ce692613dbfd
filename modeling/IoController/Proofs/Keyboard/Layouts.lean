import IoController.Core.Profile

/-!
# Keyboard — Layouts

What the four layouts have in common, read off their tables.

* `osdCode?_lt`: the OSD knows every key by a code that leaves the top bit free.
* `Layout.OfCore`: in the layout of a core, caps lock is the one key that the core sees make and
  break by turns, and no modifier key is.  `Core.layout_ofCore`: every core's layout is so.
-/

namespace IoController.Keyboard

namespace Layout

/-- What holds of a missing key, of a table's entries and of the menu key's other meaning holds of
every key code that `Layout.lookup` finds. -/
theorem lookup_induction {P : KeyCode → Prop} [DecidablePred P] {l : Layout} (hmiss : P .miss)
    (hkeys : l.keys.toList.all (P ⟨·⟩)) (hmenu : l.menuAsRightGui.all (P ·)) (usage : UInt8)
    (menuAsRightGui : Bool) : P (l.lookup usage menuAsRightGui) := by
  -- a table is given by `List.all`, which is decided entry by entry: a bounded quantifier may be
  -- decided over every key code there is
  rw [List.all_eq_true] at hkeys
  have htable : P ((l.keys[usage.toNat]?).elim KeyCode.miss KeyCode.mk) := by
    cases hkey : l.keys[usage.toNat]? with
    | none => exact hmiss
    | some k =>
      exact of_decide_eq_true (hkeys k (Array.mem_toList_iff.2 (Array.mem_of_getElem? hkey)))
  unfold lookup
  by_cases h : usage == menuUsage && menuAsRightGui
  · rw [if_pos h]
    cases hgui : l.menuAsRightGui with
    | none => exact htable
    | some k =>
      rw [hgui] at hmenu
      exact of_decide_eq_true hmenu
  · rw [if_neg h]
    exact htable

/-- What holds of a missing key and of the modifiers' entries holds of the key of every modifier
`bit`. -/
theorem modifier_induction {P : KeyCode → Prop} [DecidablePred P] {l : Layout} (hmiss : P .miss)
    (hmodifiers : l.modifiers.toList.all (P ⟨·⟩)) (bit : Nat) : P (l.modifier bit) := by
  rw [List.all_eq_true] at hmodifiers
  unfold modifier
  cases hkey : l.modifiers[bit]? with
  | none => exact hmiss
  | some k =>
    exact of_decide_eq_true (hmodifiers k (Array.mem_toList_iff.2 (Array.mem_of_getElem? hkey)))

/-- The code of caps lock where the core sees it make and break by turns. -/
def capsLock : KeyCode := ⟨0x0462⟩

/-- If the key `k` is seen to make and break by turns, it is caps lock. -/
abbrev CapsOnly (k : KeyCode) : Prop := k.togglesCaps = true → k = capsLock

/-- The key `k` is seen to make when it goes down and to break when it comes up. -/
abbrev Plain (k : KeyCode) : Prop := k.togglesCaps = false

/-- Of the keys of the layout `l`, only caps lock is seen to make and break by turns, and no
modifier key is. -/
structure OfCore (l : Layout) : Prop where
  caps : ∀ usage menu, CapsOnly (l.lookup usage menu)
  modifier : ∀ bit, Plain (l.modifier bit)

/-- It is enough to look at the tables. -/
theorem OfCore.of_tables {l : Layout} (hkeys : l.keys.toList.all (CapsOnly ⟨·⟩))
    (hmenu : l.menuAsRightGui.all (CapsOnly ·)) (hmodifiers : l.modifiers.toList.all (Plain ⟨·⟩)) :
    l.OfCore where
  caps := lookup_induction (P := CapsOnly) (by decide) hkeys hmenu
  modifier := modifier_induction (P := Plain) (by decide) hmodifiers

theorem amiga_ofCore : amiga.OfCore :=
  .of_tables (by decide +kernel) (by decide) (by decide +kernel)

theorem atari_ofCore : atari.OfCore :=
  .of_tables (by decide +kernel) (by decide) (by decide +kernel)

theorem ps2_ofCore : ps2.OfCore :=
  .of_tables (by decide +kernel) (by decide) (by decide +kernel)

theorem archie_ofCore : archie.OfCore :=
  .of_tables (by decide +kernel) (by decide) (by decide +kernel)

end Layout

/-- Every `code` of the OSD leaves the bit free that says that a key went up. -/
theorem osdCode?_lt {usage code : UInt8} (h : osdCode? usage = some code) : code < 0x80 := by
  have hlow : ¬ (Layout.amiga.lookup usage false).isMiss = true →
      (Layout.amiga.lookup usage false).code < 0x80 :=
    Layout.lookup_induction (P := fun k => ¬ k.isMiss = true → k.code < 0x80)
      (by decide) (by decide +kernel) (by decide) usage false
  change (if (Layout.amiga.lookup usage false).isMiss then none
    else some (Layout.amiga.lookup usage false).code) = some code at h
  by_cases hmiss : (Layout.amiga.lookup usage false).isMiss = true
  · rw [if_pos hmiss] at h
    cases h
  · rw [if_neg hmiss] at h
    obtain rfl := Option.some.inj h
    exact hlow hmiss

end IoController.Keyboard

namespace IoController.Core
open Keyboard (Layout)

/-- Every `layout` of a `core` is one of the four. -/
theorem layout_ofCore {core : Core} {profile : Profile} {layout : Layout}
    (hprofile : core.profile? = some profile) (hlayout : profile.layout = some layout) :
    layout.OfCore := by
  cases core with
  | unknown | dumb => cases hprofile
  | minimig1 | minimig2 => cases hprofile; cases hlayout; exact Layout.amiga_ofCore
  | pace => cases hprofile; cases hlayout
  | atariSt => cases hprofile; cases hlayout; exact Layout.atari_ofCore
  | generic8Bit => cases hprofile; cases hlayout; exact Layout.ps2_ofCore
  | archimedes => cases hprofile; cases hlayout; exact Layout.archie_ofCore

end IoController.Core
