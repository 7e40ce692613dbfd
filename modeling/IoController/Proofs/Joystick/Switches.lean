import IoController.Joystick.State
import IoController.Proofs.Bits

/-!
# Joystick — Switches

A joystick's state, switch by switch.

* `State.ext_has`: a state is known by its closed switches.
* `State.meets_iff`: two states meet in a switch that is closed in both.
* `Switch.isDirection`: a switch is a direction or a button.
-/

namespace IoController.Joystick

/-- The switches fill the state's byte. -/
instance : Placed Switch where
  place
    | .right => 0
    | .left => 1
    | .down => 2
    | .up => 3
    | .button1 => 4
    | .button2 => 5
    | .button3 => 6
    | .button4 => 7
  place_lt k := by cases k <;> decide
  mask_eq k := by cases k <;> rfl
  place_injective j k h := by cases j <;> cases k <;> first | rfl | cases h

/-- Whether the switch is one of the stick's, and not a button. -/
def Switch.isDirection : Switch → Bool
  | .right | .left | .down | .up => true
  | .button1 | .button2 | .button3 | .button4 => false

namespace State

/-- States `s` and `t` with the same switches closed are the same. -/
theorem ext_has {s t : State} (h : ∀ k : Switch, s.has k = t.has k) : s = t := by
  obtain ⟨a⟩ := s
  obtain ⟨b⟩ := t
  simp only [Flags.has_eq] at h
  refine congrArg Flags.mk (UInt8.toBitVec_inj.1 (BitVec.eq_of_getLsbD_eq fun i hi => ?_))
  match i, hi with
  | 0, _ => exact h .right
  | 1, _ => exact h .left
  | 2, _ => exact h .down
  | 3, _ => exact h .up
  | 4, _ => exact h .button1
  | 5, _ => exact h .button2
  | 6, _ => exact h .button3
  | 7, _ => exact h .button4

@[simp] theorem has_directions (k : Switch) : directions.has k = k.isDirection := by cases k <;> rfl

@[simp] theorem has_buttons (k : Switch) : buttons.has k = !k.isDirection := by cases k <;> rfl

/-- The states `s` and `t` meet in a switch that is closed in both. -/
theorem meets_iff (s t : State) : s.meets t = true ↔ ∃ k, s.has k = true ∧ t.has k = true := by
  have hsame : s.meets t = true ↔ s ∩ t ≠ ∅ := by
    rw [Flags.meets, bne_iff_ne]
    exact not_congr ⟨congrArg Flags.mk, congrArg Flags.bits⟩
  rw [hsame]
  constructor
  · refine fun hne => Classical.byContradiction fun hnone => hne (ext_has fun k => ?_)
    rw [Flags.has_inter, Flags.has_empty, ← Bool.not_eq_true, Bool.and_eq_true]
    exact fun hk => hnone ⟨k, hk⟩
  · rintro ⟨k, hs, ht⟩ hempty
    have hk : (s ∩ t).has k = true := by rw [Flags.has_inter, hs, ht, Bool.and_self]
    rw [hempty, Flags.has_empty] at hk
    cases hk

end State

end IoController.Joystick
