import IoController.Proofs.Keyboard.Capture

/-!
# Keyboard — Visibility

What the events of a report say of the OSD: that it was opened or closed, each time the opposite of
the time before.

* `visibilities`: what is said of it, in order.
* `Router.press_visible`: only the key that opens and closes the OSD says anything.
* `Router.receive_visible`: from the router before a report to the one after it, what is said goes
  by turns.
-/

namespace IoController

/-- What an event says of the OSD. -/
def Event.visible? : Event → Option Bool
  | .osdVisible visible => some visible
  | _ => none

theorem Event.LetsGo.unsaid {held : Joystick.State} {e : Event} (h : e.LetsGo held) :
    e.visible? = none := by
  cases e with
  | osdVisible visible => exact h.elim
  | _ => rfl

namespace Keyboard

/-- What the `events` say of the OSD, in order. -/
def visibilities (events : List Event) : List Bool := events.filterMap Event.visible?

@[simp] theorem visibilities_nil : visibilities [] = [] := rfl

/-- More `events` say theirs after those before. -/
@[simp] theorem visibilities_append (events rest : List Event) :
    visibilities (events ++ rest) = visibilities events ++ visibilities rest :=
  List.filterMap_append

/-- Events that each say nothing say nothing together. -/
theorem visibilities_eq_nil {events : List Event} (h : ∀ e ∈ events, e.visible? = none) :
    visibilities events = [] := List.filterMap_eq_nil_iff.2 h

/-- What is told last is how it is. -/
theorem Turns.getLastD {s s' : Bool} {strokes : List Bool} (h : Turns s strokes s') :
    strokes.getLastD s = s' := by
  induction h with
  | nil => rfl
  | cons rest ih => rw [List.getLastD_cons, ih]

namespace Emulation

/-- What an emulated device is told (`stateEvent?`) says nothing of the OSD. -/
theorem stateEvent?_unsaid (e : Emulation) : ∀ x ∈ e.stateEvent?, x.visible? = none :=
  fun _ hx => Event.LetsGo.unsaid (stateEvent?_letsGo (Flags.subset_refl e.state) hx).1

theorem setButtons_unsaid (e : Emulation) (modifiers : Modifiers) :
    ∀ x ∈ (e.setButtons modifiers).1.toList ++ (e.setButtons modifiers).2.1.toList,
      x.visible? = none := by
  intro x hx
  rw [List.mem_append, Option.mem_toList, Option.mem_toList] at hx
  simp only [setButtons] at hx
  obtain hx | hx := hx
  · split at hx <;> cases hx
    rfl
  · split at hx
    · exact stateEvent?_unsaid _ x hx
    · cases hx

end Emulation

namespace Router

variable {layout : Layout} {captures : Bool} {now : Instant}

/-! ### A key that goes down -/

theorem echo_unsaid (r : Router) (key : UInt8) :
    visibilities ((r.echo? key).map Event.osdKey).toList = [] := by
  cases r.echo? key <;> rfl

/-- A `press` says that the OSD is opened or closed just if it is. -/
theorem press_visible (r : Router) (key : UInt8) :
    Turns r.osdVisible (visibilities (r.press layout captures key now).1)
      (r.press layout captures key now).2.2.osdVisible := by
  have h := press_outcome layout captures now r key
  have hecho := r.echo_unsaid key
  generalize r.press layout captures key now = p at h ⊢
  cases h with
  | @claimed directions =>
    have hclaimed : visibilities ((r.emulation.press directions).1.toList) = [] :=
      visibilities_eq_nil fun x hx => Emulation.stateEvent?_unsaid _ x (Option.mem_toList.1 hx)
    rw [hclaimed]
    exact .nil
  | toggled => exact .cons .nil
  | @selected selector =>
    have hleave : visibilities
        (((r.emulation.select selector now).leaveEvent? r.emulation.mode).toList) = [] :=
      visibilities_eq_nil fun x hx =>
        Event.LetsGo.unsaid (Emulation.leaveEvent?_letsGo _ _ ∅ (Option.mem_toList.1 hx)).1
    rw [selectEmulation, visibilities_append, hleave]
    exact .nil
  | captured => rw [hecho]; exact .nil
  | caps => rw [visibilities_append, hecho]; exact .nil
  | missed => rw [hecho]; exact .nil
  | sent => rw [visibilities_append, hecho]; exact .nil

theorem makeKey_visible (r : Router) (key : UInt8) :
    Turns r.osdVisible (visibilities (r.makeKey layout captures now key).1)
      (r.makeKey layout captures now key).2.osdVisible := by
  by_cases h : r.routes.length < maxKeys
  · rw [makeKey_of_room h]
    exact r.press_visible key
  · rw [makeKey, if_neg h]
    exact .nil

/-- What is said by the `keys` one by one goes by turns over all of them. -/
theorem makeKeys_visible (r : Router) (keys : List UInt8) :
    Turns r.osdVisible (visibilities (r.forKeys (makeKey layout captures now) keys).1)
      (r.forKeys (makeKey layout captures now) keys).2.osdVisible := by
  induction keys generalizing r with
  | nil => exact .nil
  | cons key keys ih =>
    have hboth := (@makeKey_visible layout captures now r key).append (ih _)
    rw [← visibilities_append] at hboth
    exact hboth

/-! ### The other passes -/

theorem resetPass_unsaid (r : Router) (report : Report) :
    visibilities (r.resetPass report).1 = [] := by
  refine visibilities_eq_nil fun e he => ?_
  obtain ⟨request, rfl⟩ := resetPass_events r report e he
  rfl

theorem modifierEdge?_unsaid (sent wanted : Modifiers) (bit : Nat) :
    ∀ x ∈ modifierEdge? layout sent wanted bit, x.visible? = none := by
  intro x hx
  simp only [modifierEdge?] at hx
  split at hx <;> cases hx
  rfl

theorem modifiersPass_unsaid (r : Router) (modifiers : Modifiers) :
    visibilities (r.modifiersPass layout modifiers).1 = [] := by
  refine visibilities_eq_nil fun e he => ?_
  rcases List.mem_append.1 he with he | he
  · exact r.emulation.setButtons_unsaid _ e he
  · obtain ⟨bit, -, hbit⟩ := List.mem_filterMap.1 he
    exact modifierEdge?_unsaid _ _ bit e hbit

theorem breakPass_unsaid (r : Router) (report : Report) :
    visibilities (r.breakPass report).1 = [] :=
  visibilities_eq_nil fun e he =>
    Event.LetsGo.unsaid (breakKeys_letsGo (Flags.subset_refl _) _ e he).1

/-! ### A report -/

/-- The `passes` say it by turns. -/
theorem passes_visible (r : Router) (report : Report) (now : Instant) :
    Turns r.osdVisible (visibilities (r.passes report now).1)
      (r.passes report now).2.osdVisible := by
  rcases r.layout_or_none with ⟨profile, layout, hprofile, hlayout⟩ | hnone
  · rw [passes_of_layout hprofile hlayout]
    simp only [visibilities_append, modifiersPass_unsaid, breakPass_unsaid, List.nil_append]
    have hbefore : ((r.modifiersPass layout report.modifiers).2.breakPass report).2.osdVisible =
        r.osdVisible := by rw [breakPass_router, modifiersPass_router]
    rw [← hbefore]
    exact makeKeys_visible _ _
  · rw [passes_of_no_layout hnone]
    exact .nil

/-- **Opened and closed by turns.**  However many keys of a `report` open or close the OSD, its
events say of it (`visibilities`) the opposite each time (`Turns`), beginning with the opposite of
what the router had before the report and ending with what it has after it. -/
theorem receive_visible (r : Router) (report : Report) (priority : UInt8) (now : Instant) :
    Turns r.osdVisible (visibilities (r.receive report priority now).1)
      (r.receive report priority now).2.osdVisible := by
  rw [receive_eq_process]
  cases hignore : r.ignores report priority with
  | true =>
    rw [process_of_ignores hignore]
    exact .nil
  | false =>
    have hopened : (r.opened report priority).osdVisible = r.osdVisible := by rw [opened_router]
    rw [process_of_accepts hignore, visibilities_append, resetPass_unsaid, List.nil_append,
      ← hopened]
    exact passes_visible _ _ _

end Router

end Keyboard

end IoController
