import IoController.Keyboard.Leds
import IoController.Proofs.Bits
import Mathlib.Data.List.Induction

/-!
# Keyboard — LedOwners

What the keyboard's LEDs show, when the core and the firmware change them by turns.

* `Leds.Act`: the firmware asks for LEDs, or the core's status byte comes in.
* `Leds.owed`: what a history owes an LED: the status that its owner gave it last.
* `Leds.keyboard`: what the keyboard shows that has been told of every change.
* `Leds.keyboard_has`: after every history the keyboard shows what is owed.
-/

namespace IoController.Keyboard

/-- The LEDs have a bit each. -/
instance : Placed Lock where
  place
    | .num => 0
    | .caps => 1
    | .scroll => 2
  place_lt k := by cases k <;> decide
  mask_eq k := by cases k <;> rfl
  place_injective j k h := by cases j <;> cases k <;> first | rfl | cases h

/-- `Lock.all` has every LED. -/
theorem Lock.mem_all (k : Lock) : k ∈ Lock.all := by cases k <;> decide

namespace Leds

/-! ### A history -/

/-- Something that may change what the LEDs show. -/
inductive Act where
  /-- The firmware wants LEDs on or off. -/
  | set (locks : Locks) (on : Bool)
  /-- The core's status byte, valid or not. -/
  | update (byte : UInt8)

namespace Act

/-- What the firmware asks of the LED `k`. -/
def wish? (k : Lock) : Act → Option Bool
  | set locks on => if locks.has k then some on else none
  | update _ => none

/-- The status byte of the core, valid or not. -/
def byte? : Act → Option UInt8
  | set _ _ => none
  | update byte => some byte

/-- The changes that an `Act` returns for the keyboard, in order, and the LEDs after them. -/
def apply (l : Leds) : Act → List (Locks × Bool) × Leds
  | set locks on => ([((l.set locks on).1, on)], (l.set locks on).2)
  | update byte => ((l.update byte).1.map fun (k, on) => (.single k, on), (l.update byte).2)

end Act

/-- The changes that a history that begins with `l` comes to, and the LEDs at its end. -/
def run (l : Leds) : List Act → List (Locks × Bool) × Leds
  | [] => ([], l)
  | a :: as => ((a.apply l).1 ++ ((a.apply l).2.run as).1, ((a.apply l).2.run as).2)

/-- What a keyboard shows after `changes`. -/
def after (locks : Locks) (changes : List (Locks × Bool)) : Locks :=
  changes.foldl (fun locks (change, on) => locks.put change on) locks

/-- What a keyboard whose LEDs were off shows after the history `as`. -/
def keyboard (as : List Act) : Locks := after ∅ (run {} as).1

/-- What the firmware wants of the LED `k`: what it asked for last, or that it is off. -/
def wish (as : List Act) (k : Lock) : Bool := ((as.filterMap (Act.wish? k)).getLast?).getD false

/-- Whether a status byte is valid and takes charge of the LED `k`. -/
def claims (byte : UInt8) (k : Lock) : Bool := byte &&& 0xc0 == 0x40 && k.controlled byte

/-- What the LED `k` is to show: the core's status if the last byte takes charge of it, and
otherwise what the firmware wants. -/
def owed (as : List Act) (k : Lock) : Bool :=
  match (as.filterMap Act.byte?).getLast? with
  | some byte => if claims byte k then k.lit byte else wish as k
  | none => wish as k

theorem run_snoc (l : Leds) (as : List Act) (a : Act) :
    l.run (as ++ [a]) =
      ((l.run as).1 ++ (a.apply (l.run as).2).1, (a.apply (l.run as).2).2) := by
  induction as generalizing l with
  | nil => simp only [List.nil_append, run, List.append_nil]
  | cons b as ih => simp only [List.cons_append, run, ih, List.append_assoc]

theorem after_append (locks : Locks) (changes changes' : List (Locks × Bool)) :
    after locks (changes ++ changes') = after (after locks changes) changes' := List.foldl_append

/-- The keyboard is told of the changes of one more act `a`. -/
theorem keyboard_snoc (as : List Act) (a : Act) :
    keyboard (as ++ [a]) = after (keyboard as) (a.apply (run {} as).2).1 := by
  rw [keyboard, run_snoc, after_append, keyboard]

/-! ### What is remembered -/

/-- The last that was said of something, after one more act `a`. -/
theorem getLast?_filterMap_snoc {α : Type} (f : Act → Option α) (as : List Act) (a : Act) :
    ((as ++ [a]).filterMap f).getLast? = (f a).or (as.filterMap f).getLast? := by
  rw [List.filterMap_append, List.getLast?_append]
  cases h : f a <;> simp [h]

/-- What the firmware wants is what the last act asks, if it asks anything. -/
theorem wish_snoc (as : List Act) (a : Act) (k : Lock) :
    wish (as ++ [a]) k = (a.wish? k).getD (wish as k) := by
  rw [wish, getLast?_filterMap_snoc, wish]
  cases a.wish? k <;> rfl

/-- The firmware's state is what it asked for last (`wish`). -/
theorem firmware_has (as : List Act) (k : Lock) :
    (run {} as).2.firmware.has k = wish as k := by
  induction as using List.reverseRecOn with
  | nil => exact Flags.has_empty k
  | append_singleton as a ih =>
    rw [run_snoc, wish_snoc, ← ih]
    cases a with
    | set locks on =>
      refine (Flags.has_put _ _ _ _).trans ?_
      rw [Act.wish?]
      cases locks.has k <;> rfl
    | update byte => rfl

/-- The core's status is its last byte, as far as it is `effective`. -/
theorem core_eq (as : List Act) :
    (run {} as).2.core = (((as.filterMap Act.byte?).getLast?).map effective).getD 0 := by
  induction as using List.reverseRecOn with
  | nil => rfl
  | append_singleton as a ih =>
    rw [run_snoc, getLast?_filterMap_snoc]
    cases a with
    | set locks on => exact ih
    | update byte => rfl

/-- A byte has charge of an LED just if it `claims` it. -/
theorem controlled_effective (byte : UInt8) (k : Lock) :
    k.controlled (effective byte) = claims byte k := by
  rw [effective, claims]
  split
  · next hvalid => rw [hvalid, Bool.true_and]
  · next hvalid =>
    rw [Bool.eq_false_iff.2 hvalid, Bool.false_and]
    cases k <;> rfl

/-- A `byte` that takes charge of an LED is valid. -/
theorem effective_of_claims {byte : UInt8} {k : Lock} (h : claims byte k = true) :
    effective byte = byte := if_pos (Bool.and_eq_true_iff.1 h).1

/-- What an LED is to show by what is remembered is what it is `owed`. -/
theorem shown_eq (as : List Act) (k : Lock) :
    (run {} as).2.shown (run {} as).2.core k = owed as k := by
  rw [shown, core_eq, firmware_has, owed]
  cases (as.filterMap Act.byte?).getLast? with
  | none => cases k <;> rfl
  | some byte =>
    rw [Option.map_some, Option.getD_some, controlled_effective]
    dsimp only
    cases hclaims : claims byte k with
    | true => rw [effective_of_claims hclaims]
    | false => rfl

/-! ### What is changed -/

/-- The keyboard after every LED of the list `ks` has been set. -/
theorem has_after_map (locks : Locks) (ks : List Lock) (f : Lock → Bool) (k : Lock) :
    (after locks (ks.map fun j => (.single j, f j))).has k =
      if k ∈ ks then f k else locks.has k := by
  induction ks generalizing locks with
  | nil => rfl
  | cons j ks ih =>
    rw [List.map_cons, after, List.foldl_cons, ← after, ih, Flags.has_put, Flags.has_single]
    by_cases hk : k = j
    · subst hk
      by_cases hmem : k ∈ ks <;> simp [hmem]
    · have hj : (j == k) = false := beq_false_of_ne (Ne.symm hk)
      simp [hj, hk]

/-- An LED that a status `byte` does not affect shows the same under it. -/
theorem shown_of_not_affected {l : Leds} {byte : UInt8} {k : Lock}
    (h : l.affected byte k = false) : l.shown byte k = l.shown l.core k := by
  have hsame : (l.core ^^^ byte) &&& (k.controlBit ||| k.statusBit) = 0 := by
    simpa [affected] using h
  have hcontrolled : k.controlled l.core = k.controlled byte :=
    congrArg (· != 0) (and_eq_of_xor hsame (by cases k <;> rfl))
  have hlit : k.lit l.core = k.lit byte :=
    congrArg (· != 0) (and_eq_of_xor hsame (by cases k <;> rfl))
  rw [shown, shown, hcontrolled, hlit]

/-- A status `byte` has every LED show what it is to show under it. -/
theorem has_after_update {l : Leds} {locks : Locks} {k : Lock}
    (h : locks.has k = l.shown l.core k) (byte : UInt8) :
    (after locks (Act.apply l (.update byte)).1).has k =
      l.shown (effective byte) k := by
  have hchanges : (Act.apply l (.update byte)).1 =
      (Lock.all.filter (l.affected (effective byte))).map fun j =>
        (Flags.single j, l.shown (effective byte) j) := List.map_map
  rw [hchanges, has_after_map]
  cases haffected : l.affected (effective byte) k with
  | true => rw [if_pos (List.mem_filter.2 ⟨k.mem_all, haffected⟩)]
  | false =>
    rw [if_neg fun hmem => Bool.false_ne_true (haffected.symm.trans (List.mem_filter.1 hmem).2), h,
      shown_of_not_affected haffected]

/-- What the firmware asks for, a `change`, reaches the LEDs that the core is not in charge of. -/
theorem has_after_set {l : Leds} {locks : Locks} {k : Lock}
    (h : locks.has k = l.shown l.core k) (change : Locks) (on : Bool) :
    (after locks (Act.apply l (.set change on)).1).has k =
      (l.set change on).2.shown l.core k := by
  have hforward : (l.set change on).1.has k = (change.has k && !k.controlled l.core) := by
    rw [set, Flags.has_ofList, Bool.eq_iff_iff, List.contains_iff_mem, List.mem_filter]
    exact and_iff_right k.mem_all
  have hfirmware : (l.set change on).2.firmware.has k =
      if change.has k then on else l.firmware.has k := Flags.has_put ..
  have hput : (after locks (Act.apply l (.set change on)).1).has k =
      if (l.set change on).1.has k then on else locks.has k := Flags.has_put ..
  rw [hput, hforward, h, shown, shown, hfirmware]
  cases k.controlled l.core <;> cases change.has k <;> rfl

/-- **The LEDs show what their owners say.**  After every history a `keyboard` whose LEDs were off,
and that has been told of every change, shows of each LED what it is `owed`: the core's status if
the last byte was valid and takes charge of the LED (`claims`), and otherwise what the firmware
asked for last (`wish`). -/
theorem keyboard_has (as : List Act) (k : Lock) : (keyboard as).has k = owed as k := by
  induction as using List.reverseRecOn with
  | nil => exact Flags.has_empty k
  | append_singleton as a ih =>
    have hshown : (keyboard as).has k = (run {} as).2.shown (run {} as).2.core k :=
      ih.trans (shown_eq as k).symm
    rw [keyboard_snoc, ← shown_eq, run_snoc]
    cases a with
    | set change on => exact has_after_set hshown change on
    | update byte => exact has_after_update hshown byte

end Leds

end IoController.Keyboard
