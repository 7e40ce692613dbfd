import IoController.Proofs.Controller.Joysticks
import Mathlib.Logic.Function.Basic

/-!
# Controller — UsbJoysticks

What the core knows of the USB joysticks.  A report that comes while the OSD is open is not kept.

* `Controller.heard`: the state in the last report that came while the OSD was closed.
* `Controller.usb_catches_up_iff`: this is what the core knows; it is the state in the last report
  just if that report was heard, or says nothing new.
-/

namespace IoController

namespace Joystick

/-- The first two USB joysticks change places. -/
theorem usbSlot_involutive : Function.Involutive usbSlot := fun index =>
  (by decide +kernel : ∀ i : Fin 256, usbSlot (usbSlot (.ofFin i)) = .ofFin i) index.toFin

/-- Without the preference every `port` moves out of the way of the USB joysticks. -/
theorem portSlot_ne_usbSlot {count index : UInt8} (hindex : index < count) (port : UInt8) :
    portSlot port count false ≠ usbSlot index := by
  unfold portSlot usbSlot
  grind

end Joystick

namespace Controller

variable {c c' : Controller} {turns : List Turn} {turn : Turn} {index : UInt8}

/-! ### What was reported -/

/-- The state that the turn reports of the USB joystick `index`. -/
def Turn.reported? (index : UInt8) (turn : Turn) : Option Joystick.State :=
  match turn.call with
  | .handle (.joystick reporting state) _ => if reporting = index then some state else none
  | _ => none

/-- The state that the turn reports of the USB joystick `index`, if the core is to hear of it. -/
def Turn.heard? (index : UInt8) (turn : Turn) : Option Joystick.State :=
  if turn.before.profile?.isSome && !turn.before.router.osdVisible then turn.reported? index
  else none

/-- The last state among those that turns report, by `report?`, or none pressed if there is none. -/
def lastState (report? : Turn → Option Joystick.State) (turns : List Turn) : Joystick.State :=
  turns.foldl (fun state turn => (report? turn).getD state) ∅

/-- The state in the last report of the USB joystick `index`. -/
def reported (index : UInt8) : List Turn → Joystick.State := lastState (·.reported? index)

/-- The state in the last report of the USB joystick `index` that the core was to hear of. -/
def heard (index : UInt8) : List Turn → Joystick.State := lastState (·.heard? index)

theorem lastState_snoc (report? : Turn → Option Joystick.State) (past : List Turn) (turn : Turn) :
    lastState report? (past ++ [turn]) = (report? turn).getD (lastState report? past) :=
  List.foldl_append

/-! ### What is told -/

/-- Whether a call may tell the core about a joystick port. -/
def Call.tellsPorts : Call → Bool
  | .poll _ | .handle (.keyboard ..) _ => true
  | _ => false

/-- What goes out with the `reports` of ports is about ports. -/
theorem portStates_port {reports : List (UInt8 × Joystick.State)} {state : UInt8 × UInt32}
    (h : state ∈ c.portStates reports) : ∃ port, state.1 = c.portSlot port := by
  obtain ⟨report, -, hstate⟩ := List.mem_flatMap.1 h
  exact ⟨report.1, fst_of_mem_joystickStates hstate⟩

theorem eventStates_port {event : Event} {state : UInt8 × UInt32}
    (h : state ∈ c.eventStates event) : ∃ port, state.1 = c.portSlot port := by
  cases event with
  | joystick port joystick =>
    rw [eventStates] at h
    split at h
    · exact ⟨port, fst_of_mem_joystickStates h⟩
    · exact absurd h List.not_mem_nil
  | _ => exact absurd h List.not_mem_nil

/-- A turn that may tell the core about a joystick port, by `tellsPorts`, tells it about nothing
else. -/
theorem Turn.Leaves.states_port (h : turn.Leaves c') (htells : turn.call.tellsPorts = true)
    {state : UInt8 × UInt32} (hstate : state ∈ turn.states) :
    ∃ port, state.1 = turn.before.portSlot port := by
  rw [Turn.states] at hstate
  cases h.ports with
  | sampled now s₀ s₁ polls samples states kept =>
    rw [states] at hstate
    exact portStates_port hstate
  | apart samples states kept =>
    rw [states] at hstate
    generalize turn.call = call at hstate htells
    cases call with
    | handle input now =>
      cases input with
      | keyboard priority report =>
        obtain ⟨event, -, hevent⟩ := List.mem_flatMap.1 hstate
        obtain ⟨port, hport⟩ := eventStates_port hevent
        exact ⟨port, hport⟩
      | _ => exact absurd htells Bool.false_ne_true
    | _ => exact absurd hstate List.not_mem_nil

/-- What the core knows of a slot after the USB joystick `reporting` has reported. -/
theorem told_report (c : Controller) (hslot : Joystick.usbSlot index < Joystick.slotCount)
    (now : Instant) (reporting : UInt8) (state : Joystick.State) (known : UInt32) :
    told (Joystick.usbSlot index) known (c.reportStates now (.joystick reporting state)) =
      if (c.profile?.isSome && !c.router.osdVisible) = true ∧ reporting = index then
        state.bits.toUInt32
      else known := by
  rw [reportStates]
  cases hprofile : c.profile?.isSome with
  | false => rfl
  | true =>
    rw [if_pos rfl]
    cases hvisible : c.router.osdVisible with
    | true =>
      rw [joystickStates_of_visible hvisible]
      rfl
    | false =>
      by_cases hreporting : reporting = index
      · rw [hreporting, told_self hvisible hslot, if_pos ⟨rfl, rfl⟩]
      · have hother := Joystick.usbSlot_involutive.injective.ne hreporting
        rw [told_other hother, if_neg fun h => hreporting h.2]

/-- What the core knows of the USB joystick `index` after a turn. -/
theorem Turn.Leaves.told_usb (h : turn.Leaves c') {count : UInt8} (hindex : index < count)
    (hslot : Joystick.usbSlot index < Joystick.slotCount)
    (hprefer : turn.before.joystick0PreferDb9 = false)
    (hcount : turn.call.tellsPorts = true → turn.before.usbJoysticks = count)
    (known : Joystick.State) :
    told (Joystick.usbSlot index) known.bits.toUInt32 turn.states =
      ((turn.heard? index).getD known).bits.toUInt32 := by
  -- a call that tells about ports leaves the slot alone
  have hothers (htells : turn.call.tellsPorts = true) :
      told (Joystick.usbSlot index) known.bits.toUInt32 turn.states = known.bits.toUInt32 := by
    refine told_of_ne fun state hstate => ?_
    obtain ⟨port, hport⟩ := h.states_port htells hstate
    rw [hport, portSlot, hprefer, hcount htells]
    exact Joystick.portSlot_ne_usbSlot hindex port
  have hports := h.ports
  obtain ⟨before, call, t, phase?⟩ := turn
  dsimp only at *
  have hsilent (hnone : Turn.reported? index ⟨before, call, t, phase?⟩ = none) :
      (Turn.heard? index ⟨before, call, t, phase?⟩).getD known = known := by
    rw [Turn.heard?, hnone, ite_self, Option.getD_none]
  cases hports with
  | sampled now s₀ s₁ polls samples states kept =>
    cases polls
    rw [hothers rfl, hsilent rfl]
  | apart samples states kept =>
    rw [Turn.states, states]
    cases call with
    | handle input now =>
      cases input with
      | joystick reporting state =>
        rw [callStates, told_report before hslot, Turn.heard?, Turn.reported?]
        split_ifs <;> simp_all
      | keyboard priority report => rw [← states, ← Turn.states, hothers rfl, hsilent rfl]
      | _ =>
        rw [hsilent rfl]
        rfl
    | _ =>
      rw [hsilent rfl]
      rfl

/-! ### Whole lives -/

/-- In `slotState` the core knows the state in the last report that it was to hear of. -/
theorem Lives.slotState_usb {s : Settings} {medium : Disk.Medium} {count : UInt8}
    (hlives : Lives (ofSettings s medium) turns c) (hprefer : s.joystick0PreferDb9 = false)
    (hindex : index < count) (hslot : Joystick.usbSlot index < Joystick.slotCount)
    (hcount : ∀ turn ∈ turns, turn.call.tellsPorts = true → turn.before.usbJoysticks = count) :
    slotState (Joystick.usbSlot index) turns = (heard index turns).bits.toUInt32 := by
  have hkept : c.joystick0PreferDb9 = false ∧
      slotState (Joystick.usbSlot index) turns = (heard index turns).bits.toUInt32 := by
    refine hlives.invariant (P := fun past c => c.joystick0PreferDb9 = false ∧
      slotState (Joystick.usbSlot index) past = (heard index past).bits.toUInt32)
      ⟨hprefer, rfl⟩ fun past turn hturn c₁ hleaves hpast => ?_
    obtain ⟨hpreferred, hknown⟩ := hpast
    refine ⟨hleaves.takes.2.preferDb9.trans hpreferred, ?_⟩
    rw [slotState_snoc, hknown, heard, lastState_snoc]
    exact hleaves.told_usb hindex hslot hpreferred (hcount turn hturn) (heard index past)
  exact hkept.2

/-- The turns up to the end of a round that found the OSD closed are `past`. -/
def ClosedRound (turns past : List Turn) : Prop :=
  ∃ before turn future now, turns = before ++ turn :: future ∧ past = before ++ [turn] ∧
    turn.call = .poll now ∧ turn.before.router.osdVisible = false

/-- **USB joysticks do not all catch up.**  In every life with `count` USB joysticks whenever
joystick ports are told about (`tellsPorts`), the core knows of the joystick `index`, if it has a
slot, the state in its last report that came while the OSD was closed: `slotState` is what was
`heard`.  So after every `ClosedRound` it knows the state in the last report just if in each such
round the last report that was `heard` says the same as the last one that was `reported`. -/
theorem usb_catches_up_iff {s : Settings} {medium : Disk.Medium} {count : UInt8}
    (hlives : Lives (ofSettings s medium) turns c) (hprefer : s.joystick0PreferDb9 = false)
    (hindex : index < count) (hslot : Joystick.usbSlot index < Joystick.slotCount)
    (hcount : ∀ turn ∈ turns, turn.call.tellsPorts = true → turn.before.usbJoysticks = count) :
    (∀ past future, turns = past ++ future →
      slotState (Joystick.usbSlot index) past = (heard index past).bits.toUInt32) ∧
    ((∀ past, ClosedRound turns past →
        slotState (Joystick.usbSlot index) past = (reported index past).bits.toUInt32) ↔
      ∀ past, ClosedRound turns past → heard index past = reported index past) := by
  have hknown (past future : List Turn) (hturns : turns = past ++ future) :
      slotState (Joystick.usbSlot index) past = (heard index past).bits.toUInt32 := by
    subst hturns
    obtain ⟨c₁, hpast, -⟩ := lives_append_iff.1 hlives
    exact hpast.slotState_usb hprefer hindex hslot fun turn hturn =>
      hcount turn (List.mem_append_left future hturn)
  refine ⟨hknown, forall₂_congr fun past hround => ?_⟩
  obtain ⟨before, turn, future, now, hturns, rfl, -⟩ := hround
  rw [hknown (before ++ [turn]) future (by simp [hturns])]
  constructor
  · intro hsame
    have hbits := congrArg UInt32.toUInt8 hsame
    simp only [UInt8.toUInt8_toUInt32] at hbits
    exact congrArg Flags.mk hbits
  · exact fun hsame => by rw [hsame]

/-- The first USB joystick is pressed upwards while the OSD is open, and the OSD closes. -/
def pressedUp : List Turn × Controller :=
  (ofSettings {} ⟨64, true⟩).play
    [(.start, answering 0xa2), (.handle (.joystickCount 1) 0, answering 0xa2),
      (.setOsdVisible true, answering 0xa2),
      (.handle (.joystick 0 (.single .up)) 0, answering 0xa2), (.poll 500, answering 0xa2),
      (.setOsdVisible false, answering 0xa2), (.poll 1000, answering 0xa2)]

theorem pressedUp_ne_nil : pressedUp.1 ≠ [] := by decide +kernel

/-- In `pressedUp` the core, which takes joysticks, is told about both ports after the OSD has
closed, and not about the USB joystick. -/
theorem usb_not_told :
    Lives (ofSettings {} ⟨64, true⟩) pressedUp.1 pressedUp.2 ∧
      (∀ turn ∈ pressedUp.1, turn.call.tellsPorts = true → turn.before.usbJoysticks = 1) ∧
      (∀ turn ∈ pressedUp.1.tail, turn.before.profile?.isSome) ∧
      ClosedRound pressedUp.1 pressedUp.1 ∧ pressedUp.1.flatMap (·.states) = [(2, 0), (0, 0)] ∧
      (reported 0 pressedUp.1).bits.toUInt32 = 0x08 ∧
      slotState (Joystick.usbSlot 0) pressedUp.1 = 0 := by
  refine ⟨lives_play _ _, by decide +kernel, by decide +kernel, ?_, by decide +kernel,
    by decide +kernel, by decide +kernel⟩
  exact ⟨_, pressedUp.1.getLast pressedUp_ne_nil, [], 1000,
    (List.dropLast_append_getLast _).symm, (List.dropLast_append_getLast _).symm, rfl,
    by decide +kernel⟩

/-- It is pressed again after the OSD has closed. -/
def pressedAgain : List Turn × Controller :=
  pressedUp.2.play [(.handle (.joystick 0 (.single .up)) 2000, answering 0xa2)]

/-- With `pressedAgain` the core is told. -/
theorem usb_catches_up_pressedAgain :
    Lives (ofSettings {} ⟨64, true⟩) (pressedUp.1 ++ pressedAgain.1) pressedAgain.2 ∧
      heard 0 (pressedUp.1 ++ pressedAgain.1) = .single .up ∧
      slotState (Joystick.usbSlot 0) (pressedUp.1 ++ pressedAgain.1) = 0x08 := by
  have hlives : Lives (ofSettings {} ⟨64, true⟩) (pressedUp.1 ++ pressedAgain.1) pressedAgain.2 :=
    lives_append_iff.2 ⟨_, lives_play _ _, lives_play _ _⟩
  have hcount : ∀ turn ∈ pressedUp.1 ++ pressedAgain.1,
      turn.call.tellsPorts = true → turn.before.usbJoysticks = 1 := by decide +kernel
  have hheard : heard 0 (pressedUp.1 ++ pressedAgain.1) = .single .up := by decide +kernel
  have hknown := (usb_catches_up_iff hlives rfl (by decide : (0 : UInt8) < 1) (by decide)
    hcount).1 _ [] (List.append_nil _).symm
  rw [hheard] at hknown
  exact ⟨hlives, hheard, hknown⟩

end Controller

end IoController
