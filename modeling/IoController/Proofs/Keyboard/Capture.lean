import IoController.Proofs.Keyboard.Emulated

/-!
# Keyboard — Capture

What comes of a report while the OSD is open and takes the keys for itself.

* `Event.LetsGo`: by the event the core loses what it held and gets nothing new.
* `Router.Captured`: what a key that goes down comes to, the OSD's code for it or nothing.
* `Router.breakKeys_letsGo`, `Router.modifiersPass_letsGo`, `Router.makeKeys_captured`: one lemma
  for each pass over a report.
* `Router.osd_captures`: after any history with an open OSD, a report presses nothing on the core.
-/

namespace IoController

/-- By the event no key of the core goes down, no joystick closes a switch that is not in `held`,
the mouse lets go and stays where it is, and the OSD is left as it is. -/
def Event.LetsGo (held : Joystick.State) : Event → Prop
  | .key _ make => make = false
  | .mouse buttons dx dy => buttons = 0 ∧ dx = 0 ∧ dy = 0
  | .joystick _ state => state ⊆ held
  | .osdVisible _ => False
  | .osdKey _ | .leds .. | .reset _ => True

/-- Whether a key of the OSD goes down. -/
def Event.tapsOsd : Event → Bool
  | .osdKey code => code < Keyboard.osdReleased
  | _ => false

namespace Keyboard

open Joystick (State Switch)

/-! ### The emulated mouse and joysticks -/

namespace Emulation

variable {e : Emulation} {held : State} {x : Event}

/-- What an emulated device is told lets go, if its state is in `held`. -/
theorem stateEvent?_letsGo (hstate : e.state ⊆ held) (hx : x ∈ e.stateEvent?) :
    x.LetsGo held ∧ x.tapsOsd = false := by
  obtain ⟨port, -, rfl⟩ := Option.map_eq_some_iff.1 hx
  exact ⟨hstate, rfl⟩

/-- The `old` mode that is left lets go of everything. -/
theorem leaveEvent?_letsGo (e : Emulation) (old : Mode) (held : State)
    (hx : x ∈ e.leaveEvent? old) : x.LetsGo held ∧ x.tapsOsd = false := by
  unfold leaveEvent? at hx
  split at hx
  · cases hx
  · split at hx
    · split at hx
      · cases hx
        exact ⟨⟨rfl, rfl, rfl⟩, rfl⟩
      · cases hx
    · split at hx
      · split at hx
        · cases hx
        · cases hx
          exact ⟨Flags.empty_subset held, rfl⟩
      · cases hx

/-- Without modifiers the state is left without its buttons. -/
theorem setButtons_empty_state (e : Emulation) :
    (e.setButtons ∅).2.2.state = e.state \ State.buttons := by
  refine State.ext_has fun k => ?_
  change ((e.state \ State.buttons) ∪ buttonsOf ∅).has k = (e.state \ State.buttons).has k
  rw [Flags.has_union, buttonsOf_empty, Flags.has_empty, Bool.or_false]

/-- Without modifiers all buttons are let go (`LetsGo`). -/
theorem setButtons_empty_letsGo (e : Emulation)
    (hx : x ∈ (e.setButtons ∅).1.toList ++ (e.setButtons ∅).2.1.toList) :
    x.LetsGo e.state ∧ x.tapsOsd = false := by
  have hstate := e.setButtons_empty_state
  rw [List.mem_append, Option.mem_toList, Option.mem_toList] at hx
  obtain hx | hx := hx
  · change x ∈ (if _ then some (Event.mouse (e.setButtons ∅).2.2.state.mouseButtons 0 0)
      else none) at hx
    split at hx
    · cases hx
      have hnone {k : Switch} (hk : k.isDirection = false) :
          (e.setButtons ∅).2.2.state.has k = false := by
        rw [hstate, Flags.has_sdiff, State.has_buttons, hk, Bool.not_false, Bool.not_true,
          Bool.and_false]
      refine ⟨⟨?_, rfl, rfl⟩, rfl⟩
      rw [State.mouseButtons, hnone (k := .button1) rfl, hnone (k := .button2) rfl]
      rfl
    · cases hx
  · change x ∈ (if _ then (e.setButtons ∅).2.2.stateEvent? else none) at hx
    split at hx
    · refine stateEvent?_letsGo ?_ hx
      rw [hstate]
      exact Flags.sdiff_subset _ _
    · cases hx

end Emulation

namespace Router

variable {r : Router} {layout : Layout} {now : Instant} {held : State} {key : UInt8}

/-! ### Keys that come up -/

/-- To `release` a route lets go. -/
theorem release_letsGo (hstate : r.emulation.state ⊆ held) (route : Route) :
    (∀ e ∈ (r.release route).1, e.LetsGo held ∧ e.tapsOsd = false) ∧
      (r.release route).2.emulation.state ⊆ held := by
  have hreleased (code : UInt8) : (Event.osdKey (code ||| osdReleased)).LetsGo held ∧
      (Event.osdKey (code ||| osdReleased)).tapsOsd = false :=
    ⟨trivial, decide_eq_false (Line.not_released_lt code)⟩
  cases route with
  | core code osd =>
    refine ⟨?_, hstate⟩
    rintro e (_ | ⟨_, he⟩)
    · exact ⟨rfl, rfl⟩
    · obtain ⟨c, -, rfl⟩ := Option.map_eq_some_iff.1 (Option.mem_toList.1 he)
      exact hreleased c
  | emulation directions =>
    have hless : r.emulation.state \ directions ⊆ held :=
      Flags.subset_trans (Flags.sdiff_subset _ _) hstate
    refine ⟨fun e he => ?_, hless⟩
    exact Emulation.stateEvent?_letsGo (e := (r.emulation.release directions).2) hless
      (Option.mem_toList.1 he)
  | osd code =>
    refine ⟨fun e he => ?_, hstate⟩
    rw [List.mem_singleton.1 he]
    exact hreleased code
  | osdOpen =>
    refine ⟨fun e he => ?_, hstate⟩
    rw [List.mem_singleton.1 he]
    exact hreleased osdMenuKey
  | nowhere => exact ⟨fun e he => absurd he List.not_mem_nil, hstate⟩

theorem breakKeys_letsGo (hstate : r.emulation.state ⊆ held) (keys : List UInt8) :
    ∀ e ∈ (r.forKeys breakKey keys).1, e.LetsGo held ∧ e.tapsOsd = false := by
  induction keys generalizing r with
  | nil => exact fun e he => absurd he List.not_mem_nil
  | cons key keys ih =>
    have hfirst := release_letsGo (r := { r with routes := r.routes.eraseP (·.1 == key) }) hstate
      ((r.routes.lookup key).getD .nowhere)
    intro e he
    obtain he | he := List.mem_append.1 he
    · exact hfirst.1 e he
    · exact ih hfirst.2 e he

/-! ### Modifiers -/

theorem emulationButtons_of_visible (hvisible : r.osdVisible = true) (modifiers : Modifiers) :
    r.emulationButtons modifiers = ∅ := by
  rw [emulationButtons, hvisible, Bool.not_true, Bool.and_false, if_neg Bool.false_ne_true]

/-- A modifier `bit` that was not down before does not go down. -/
theorem modifierEdge?_letsGo {sent wanted : Modifiers} (hless : wanted ⊆ sent) {bit : Nat}
    {e : Event} (he : modifierEdge? layout sent wanted bit = some e) :
    e.LetsGo held ∧ e.tapsOsd = false := by
  unfold modifierEdge? at he
  dsimp only at he
  split at he
  · cases he
  · next hedge =>
    cases he
    refine ⟨?_, rfl⟩
    -- a modifier that is wanted was down before, and then there is no edge
    refine Bool.eq_false_iff.2 fun hwanted => hedge (.inl ?_)
    rw [hwanted, Flags.meets_of_subset hless hwanted]

/-- While the OSD is open, `modifiers` and buttons only come up. -/
theorem modifiersPass_letsGo (hvisible : r.osdVisible = true) (modifiers : Modifiers) :
    (∀ e ∈ (r.modifiersPass layout modifiers).1,
      e.LetsGo r.emulation.state ∧ e.tapsOsd = false) ∧
    (r.modifiersPass layout modifiers).2.emulation.state ⊆ r.emulation.state ∧
    (r.modifiersPass layout modifiers).2.sentModifiers ⊆ r.sentModifiers := by
  have hless : r.sentModifiers ∩ modifiers ⊆ r.sentModifiers := Flags.inter_subset_left _ _
  simp only [modifiersPass, emulationButtons_of_visible hvisible, hvisible, if_true]
  refine ⟨fun e he => ?_, ?_, hless⟩
  · obtain he | he := List.mem_append.1 he
    · exact r.emulation.setButtons_empty_letsGo he
    · obtain ⟨bit, -, hbit⟩ := List.mem_filterMap.1 he
      exact modifierEdge?_letsGo hless hbit
  · rw [Emulation.setButtons_empty_state]
    exact Flags.sdiff_subset _ _

/-! ### Keys that go down -/

/-- Whether the `key` opens or closes the OSD. -/
def togglesOsd (layout : Layout) (menuAsRightGui : Bool) (key : UInt8) : Bool :=
  (layout.lookup key menuAsRightGui).opensOsd && (layout.lookup key menuAsRightGui).code == 0

/-- What a `key` that goes down comes to: the OSD is told its `code` for it, or nothing happens.  A
key that selects the emulation mode is not the OSD's. -/
inductive Captured (layout : Layout) (menuAsRightGui : Bool) (key : UInt8) : List Event → Prop where
  | told {code : UInt8} (plain : (layout.lookup key menuAsRightGui).emulationSelector? = none)
      (known : osdCode? key = some code) : Captured layout menuAsRightGui key [.osdKey code]
  | untold (plain : (layout.lookup key menuAsRightGui).emulationSelector? = none)
      (unknown : osdCode? key = none) : Captured layout menuAsRightGui key []
  | selects {selector : UInt8} {events : List Event}
      (select : (layout.lookup key menuAsRightGui).emulationSelector? = some selector)
      (quiet : ∀ e ∈ events, e.tapsOsd = false) : Captured layout menuAsRightGui key events

/-- While the OSD is open, a `key` that is pressed stands for no direction. -/
theorem press_of_visible (hvisible : r.osdVisible = true) (captures : Bool) :
    r.press layout captures key now = r.routeKey layout captures key now := by
  have hclaim : r.claimed? key = none := if_pos hvisible
  rw [press, hclaim]

/-- A `key` that selects a mode of emulation does so while the OSD is open too. -/
theorem routeKey_of_selector {selector : UInt8}
    (hkey : togglesOsd layout r.menuAsRightGui key = false)
    (hselect : (layout.lookup key r.menuAsRightGui).emulationSelector? = some selector)
    (captures : Bool) : r.routeKey layout captures key now = r.selectEmulation selector now := by
  rw [togglesOsd] at hkey
  simp only [routeKey, hkey, hselect, Bool.false_eq_true, if_false]

/-- A `key` that neither toggles the OSD nor selects the emulation mode is the open OSD's. -/
theorem routeKey_of_visible (hvisible : r.osdVisible = true)
    (hkey : togglesOsd layout r.menuAsRightGui key = false)
    (hselect : (layout.lookup key r.menuAsRightGui).emulationSelector? = none) :
    r.routeKey layout true key now =
      (((osdCode? key).map .osdKey).toList, (osdCode? key).elim .nowhere .osd, r) := by
  rw [togglesOsd] at hkey
  simp only [routeKey, hkey, hselect, hvisible, Bool.false_eq_true, if_false, Bool.and_self,
    if_true]

/-- Whichever it is, the press is `Captured` and lets go. -/
theorem press_captured (hvisible : r.osdVisible = true)
    (hkey : togglesOsd layout r.menuAsRightGui key = false) (held : State) :
    Captured layout r.menuAsRightGui key (r.press layout true key now).1 ∧
      (∀ e ∈ (r.press layout true key now).1, e.LetsGo held) ∧
      (r.press layout true key now).2.2.osdVisible = true := by
  rw [press_of_visible hvisible]
  cases hselect : (layout.lookup key r.menuAsRightGui).emulationSelector? with
  | some selector =>
    rw [routeKey_of_selector hkey hselect]
    have hleave {e : Event} (he : e ∈ (r.selectEmulation selector now).1) :
        e.LetsGo held ∧ e.tapsOsd = false := by
      rcases List.mem_append.1 he with he | he
      · exact Emulation.leaveEvent?_letsGo _ _ held (Option.mem_toList.1 he)
      · rcases List.mem_pair.1 he with rfl | rfl
        · exact ⟨trivial, rfl⟩
        · exact ⟨trivial, rfl⟩
    exact ⟨.selects hselect fun e he => (hleave he).2, fun e he => (hleave he).1, hvisible⟩
  | none =>
    rw [routeKey_of_visible hvisible hkey hselect]
    cases hcode : osdCode? key with
    | none => exact ⟨.untold hselect hcode, fun e he => absurd he List.not_mem_nil, hvisible⟩
    | some code =>
      refine ⟨.told hselect hcode, fun e he => ?_, hvisible⟩
      rw [List.mem_singleton.1 he]
      trivial

/-- The `keys` that go down come to what each of them comes to by itself. -/
theorem makeKeys_captured (hvisible : r.osdVisible = true) {keys : List UInt8}
    (hroom : (r.heldKeys ++ keys).length ≤ maxKeys)
    (hkeys : ∀ key ∈ keys, togglesOsd layout r.menuAsRightGui key = false) (held : State) :
    (∃ made, (r.forKeys (makeKey layout true now) keys).1 = made.flatten ∧
      List.Forall₂ (Captured layout r.menuAsRightGui) keys made ∧
        ∀ events ∈ made, ∀ e ∈ events, e.LetsGo held) ∧
    (r.forKeys (makeKey layout true now) keys).2.osdVisible = true := by
  induction keys generalizing r with
  | nil => exact ⟨⟨[], rfl, .nil, fun events hevents => absurd hevents List.not_mem_nil⟩, hvisible⟩
  | cons key keys ih =>
    have hfree : r.heldKeys.length < maxKeys := by
      rw [List.length_append, List.length_cons] at hroom
      omega
    obtain ⟨hcaptured, hletsGo, hopen⟩ :=
      @press_captured r layout now key hvisible (hkeys key List.mem_cons_self) held
    have hmake := @makeKey_of_room layout true now r (length_heldKeys r ▸ hfree) key
    have hmenu : (r.makeKey layout true now key).2.menuAsRightGui = r.menuAsRightGui := by
      rw [makeKey_router]
    obtain ⟨⟨made, hmade, hall, hrest⟩, hafter⟩ := ih (r := (r.makeKey layout true now key).2)
      (by rw [hmake]; exact hopen)
      (by rwa [heldKeys_makeKey layout true now hfree, List.append_assoc])
      (by rw [hmenu]; exact fun key' hkey' => hkeys key' (List.mem_cons_of_mem key hkey'))
    rw [hmenu] at hall
    refine ⟨⟨(r.press layout true key now).1 :: made, ?_, .cons hcaptured hall, ?_⟩, hafter⟩
    · rw [List.flatten_cons, ← hmade, forKeys, hmake]
    · intro events hevents
      rcases List.mem_cons.1 hevents with rfl | hevents
      · exact hletsGo
      · exact hrest events hevents

/-! ### A report -/

/-- By the `events` the core and the emulated devices only lose what they had, and in the end the
`keys` come, each by itself and in order, to what the OSD makes of it. -/
structure Captures (layout : Layout) (menuAsRightGui : Bool) (held : State) (keys : List UInt8)
    (events : List Event) : Prop where
  letsGo : ∀ e ∈ events, e.LetsGo held
  each : ∃ before made, events = before ++ made.flatten ∧ (∀ e ∈ before, e.tapsOsd = false) ∧
    List.Forall₂ (Captured layout menuAsRightGui) keys made

/-- Before the `keys` more may be let go. -/
theorem Captures.append {menuAsRightGui : Bool} {keys : List UInt8} {first events : List Event}
    (hfirst : ∀ e ∈ first, e.LetsGo held ∧ e.tapsOsd = false)
    (h : Captures layout menuAsRightGui held keys events) :
    Captures layout menuAsRightGui held keys (first ++ events) := by
  obtain ⟨before, made, hevents, hbefore, hmade⟩ := h.each
  refine ⟨?_, first ++ before, made, by rw [hevents, List.append_assoc], ?_, hmade⟩
  · exact List.forall_mem_append.2 ⟨fun e he => (hfirst e he).1, h.letsGo⟩
  · exact List.forall_mem_append.2 ⟨fun e he => (hfirst e he).2, hbefore⟩

/-- The `passes` of a report let go first and then capture the keys that are new. -/
theorem passes_captured {profile : Profile} (hprofile : r.profile = some profile)
    (hlayout : profile.layout = some layout) (hcaptures : profile.osdCapturesKeys = true)
    (hvisible : r.osdVisible = true) (hmatched : r.Matched) {report : Report}
    (hreport : report.pressed.Nodup)
    (hkeys : ∀ key ∈ report.pressed.filter fun k => !r.pressed.contains k,
      togglesOsd layout r.menuAsRightGui key = false) :
    Captures layout r.menuAsRightGui r.emulation.state
        (report.pressed.filter fun k => !r.pressed.contains k) (r.passes report now).1 ∧
      (r.passes report now).2.sentModifiers ⊆ r.sentModifiers := by
  obtain ⟨hmodifiers, hstate, hsent⟩ :=
    @modifiersPass_letsGo r layout hvisible report.modifiers
  refine ⟨?_, by rwa [passes_sentModifiers hprofile hlayout]⟩
  let modified := (r.modifiersPass layout report.modifiers).2
  let broken := (modified.breakPass report).2
  have hrouter := breakPass_router modified report
  have hmenu : broken.menuAsRightGui = r.menuAsRightGui :=
    (congrArg Router.menuAsRightGui hrouter).trans rfl
  have hopen : broken.osdVisible = true := (congrArg Router.osdVisible hrouter).trans hvisible
  have hpressed : broken.pressed = r.pressed := (congrArg Router.pressed hrouter).trans rfl
  have hroom : (broken.heldKeys ++
      report.pressed.filter fun k => !r.pressed.contains k).length ≤ maxKeys :=
    room_for_new (hmatched.modifiersPass report.modifiers) hreport
  obtain ⟨⟨made, hmade, hall, hletsGo⟩, -⟩ := @makeKeys_captured broken layout now hopen _ hroom
    (by rwa [hmenu]) r.emulation.state
  rw [hmenu] at hall
  have hmakes : Captures layout r.menuAsRightGui r.emulation.state
      (report.pressed.filter fun k => !r.pressed.contains k)
      (broken.makePass layout true report now).1 := by
    refine ⟨?_, [], made, ?_, fun e he => absurd he List.not_mem_nil, hall⟩
    · rw [makePass, hpressed, hmade]
      intro e he
      obtain ⟨events, hevents, he⟩ := List.mem_flatten.1 he
      exact hletsGo events hevents e he
    · rw [makePass, hpressed, hmade, List.nil_append]
  rw [passes_of_layout hprofile hlayout, hcaptures]
  dsimp only
  rw [List.append_assoc]
  exact (hmakes.append (breakKeys_letsGo hstate _)).append hmodifiers

/-- A `core` that has its keys captured has a layout for them. -/
theorem layout_of_captures {core : Core} {profile : Profile} (hcore : core.profile? = some profile)
    (hcaptures : profile.osdCapturesKeys = true) : ∃ layout, profile.layout = some layout := by
  cases core with
  | minimig1 | minimig2 | atariSt | generic8Bit | archimedes =>
    cases hcore
    exact ⟨_, rfl⟩
  | pace =>
    cases hcore
    cases hcaptures
  | unknown | dumb => cases hcore

/-- The keys that a `report` brings and the one before did not have, after remapping. -/
def arrivals (r : Router) (report : Report) : List UInt8 :=
  (r.taken report).pressed.filter fun k => !r.pressed.contains k

/-- **An open OSD takes the keys.**  Whatever went before, let the OSD be open under the `profile`
of a core that has its keys captured (`osdCapturesKeys`).  A report that is not passed over, and
that opens or closes no OSD (`togglesOsd`), `Captures`: no key and no modifier of the core goes
down, and the emulated mouse and joysticks only let go.  The keys that it brings (`arrivals`) come,
one by one and in order, to what the OSD knows them by (`Captured`).  As time passes nothing
happens. -/
theorem osd_captures (s : Settings) (inputs : List Input) {core : Core} {profile : Profile}
    (hcore : core.profile? = some profile) (hcaptures : profile.osdCapturesKeys = true)
    (hprofile : ((ofSettings s).run inputs).2.profile = some profile)
    (hvisible : ((ofSettings s).run inputs).2.osdVisible = true) :
    let r := ((ofSettings s).run inputs).2
    ∃ layout, profile.layout = some layout ∧
      (∀ report priority now, r.ignores report priority = false →
        (∀ key ∈ r.arrivals report, togglesOsd layout r.menuAsRightGui key = false) →
        let after := r.receive report priority now
        Captures layout r.menuAsRightGui r.emulation.state (r.arrivals report) after.1 ∧
          after.2.sentModifiers ⊆ r.sentModifiers) ∧
      ∀ later, r.tick later = (none, r) := by
  intro r
  obtain ⟨layout, hlayout⟩ := layout_of_captures hcore hcaptures
  refine ⟨layout, hlayout, fun report priority now haccept hkeys => ?_, fun later => ?_⟩
  · let opened : Router :=
      { r with lastPriority := priority, resetPending := (r.opened report priority).resetPending }
    have hopened : r.opened report priority = opened := opened_router r report priority
    have hmatched : opened.Matched := by
      have hbefore : r.Tracked := tracked_run (tracked_ofSettings s) inputs
      have htracked : opened.Tracked := hbefore.congr rfl rfl rfl
      exact htracked.matched profile hprofile (by rw [hlayout]; rfl)
    obtain ⟨hpasses, hsent⟩ := @passes_captured opened layout now profile hprofile hlayout
      hcaptures hvisible hmatched (r.taken report) (Report.pressed_dedup_nodup _) hkeys
    rw [receive_eq_process, process_of_accepts haccept, hopened]
    refine ⟨hpasses.append fun e he => ?_, hsent⟩
    obtain ⟨request, rfl⟩ := resetPass_events _ report e he
    exact ⟨trivial, rfl⟩
  · exact if_pos hvisible

/-- On an 8-bit core A is typed with shift and held while the OSD is opened. -/
def heldA : List Input :=
  [.adopt Core.generic8Bit.profile?, .report (.ofKeys (.single .leftShift) [0x04]) 0 0, .osd true]

/-- Shift comes up, and control and return go down.  The core hears of shift only, and the OSD of
return. -/
theorem osd_captures_heldA :
    let r := ((ofSettings {}).run heldA).2
    let after := r.receive (.ofKeys (.single .leftCtrl) [0x04, 0x28]) 0 1000
    after.1 = [.key ⟨0x12⟩ false, .osdKey 0x44] ∧ Captures .ps2 false ∅ [0x28] after.1 ∧
      after.2.sentModifiers ⊆ .single .leftShift := by
  intro r after
  have hcore : ∀ i ∈ heldA.tail, i.keepsCore = true := by decide
  have hprofile : r.profile = Core.generic8Bit.profile? :=
    run_profile (r := (ofSettings {}).adoptProfile Core.generic8Bit.profile?) hcore
  obtain ⟨layout, hlayout, hreport, -⟩ := @osd_captures {} heldA .generic8Bit _ rfl rfl hprofile
    (by decide +kernel)
  obtain rfl : Layout.ps2 = layout := Option.some.inj hlayout
  have harrivals : r.arrivals (.ofKeys (.single .leftCtrl) [0x04, 0x28]) = [0x28] := by
    decide +kernel
  have hmenu : r.menuAsRightGui = false := by decide +kernel
  have hstate : r.emulation.state = ∅ := by decide +kernel
  have hshift : r.sentModifiers = .single .leftShift := by decide +kernel
  obtain ⟨hcaptures, hsent⟩ := hreport (.ofKeys (.single .leftCtrl) [0x04, 0x28]) 0 1000
    (by decide +kernel) (by decide +kernel)
  rw [harrivals, hmenu, hstate] at hcaptures
  rw [hshift] at hsent
  exact ⟨by decide +kernel, hcaptures, hsent⟩

end Router

end Keyboard

end IoController
