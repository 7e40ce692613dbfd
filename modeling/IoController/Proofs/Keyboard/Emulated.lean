import IoController.Proofs.Keyboard.Balance
import IoController.Proofs.Keyboard.Directions

/-!
# Keyboard — Emulated

What the emulated mouse and joysticks are told is held.

* `Emulation.Mode.told`: what the device of a mode was told last.
* `Emulation.Tells`: events after which no device believes what is not so.  Every key, every pass
  and every input makes such events happen (`Router.Claims.feed_tells`).
* `Router.Claims.passes_buttons`: after a report the buttons that are held are its modifiers.
* `Router.nothing_left_held`: over every history on one core, a device that is not emulated any
  more holds nothing, the directions are those of the keys that are down, and an idle report lets
  go of everything.
-/

namespace IoController.Keyboard

open Joystick (State Switch)

namespace Emulation

/-! ### What a device is told -/

namespace Mode

/-- What an event says is held of the device that the mode `m` stands for: the buttons of the mouse,
or the state of the joystick.  A movement of the mouse is over with its event. -/
def heard? (m : Mode) : Event → Option UInt8
  | .mouse buttons _ _ => if m = .mouse then some buttons else Option.none
  | .joystick port state => if m.port? = some port then some state.bits else Option.none
  | _ => Option.none

/-- What the device of the mode `m` believes to be held after more `events`: what the last that it
heard said, or what it believed before. -/
def told (m : Mode) (held : UInt8) (events : List Event) : UInt8 :=
  events.foldl (fun held e => (m.heard? e).getD held) held

/-- What is held of the device of the mode `m` in the state `s`. -/
def shows (m : Mode) (s : State) : UInt8 :=
  match m with
  | .none => 0
  | .mouse => s.mouseButtons
  | .joystick0 | .joystick1 => s.bits

theorem told_append (m : Mode) (held : UInt8) (events events' : List Event) :
    m.told held (events ++ events') = m.told (m.told held events) events' :=
  List.foldl_append

/-- What a device does not hear leaves it believing what it did. -/
theorem told_unheard {m : Mode} {events : List Event} (h : ∀ x ∈ events, m.heard? x = Option.none)
    (held : UInt8) : m.told held events = held := by
  refine List.foldlRecOn (motive := fun w => w = held) events _ rfl fun w hw x hx => ?_
  rw [h x hx, hw]
  rfl

/-- No two modes share a `port`. -/
theorem eq_of_port? {m m' : Mode} {port : UInt8} (h : m.port? = some port)
    (h' : m'.port? = some port) : m = m' := by
  cases m with
  | none | mouse => cases h
  | joystick0 | joystick1 =>
    cases h
    cases m' <;> first | rfl | exact absurd h' (by decide)

/-- Of a joystick the whole state `s` is held. -/
theorem shows_of_port? {m : Mode} {port : UInt8} (h : m.port? = some port) (s : State) :
    m.shows s = s.bits := by
  cases m with
  | none | mouse => cases h
  | joystick0 | joystick1 => rfl

end Mode

/-- What the device of the mode `m` believes is nothing, or it is so and the mode is on.  A device
that has just been turned to has not been told yet. -/
def Honest (m : Mode) (e : Emulation) (held : UInt8) : Prop :=
  held = 0 ∨ e.mode = m ∧ held = m.shows e.state

/-- Where nothing is held, every device that is `Honest` believes so. -/
theorem Honest.eq_zero {m : Mode} {e : Emulation} {held : UInt8} (h : Honest m e held)
    (hempty : e.state = ∅) : held = 0 := by
  rcases h with hzero | ⟨-, hshown⟩
  · exact hzero
  · rw [hshown, hempty]
    cases m <;> rfl

/-- Between `e` and `e'`, the `events` that keep every device from believing what is not so. -/
def Tells (e : Emulation) (events : List Event) (e' : Emulation) : Prop :=
  ∀ m held, Honest m e held → Honest m e' (m.told held events)

/-- Two stretches of such `events` may follow each other. -/
theorem Tells.trans {e e' e'' : Emulation} {events rest : List Event} (h : e.Tells events e')
    (h' : e'.Tells rest e'') : e.Tells (events ++ rest) e'' := by
  intro m held hheld
  rw [Mode.told_append]
  exact h' m _ (h m held hheld)

/-- The `events` that no device hears. -/
theorem Tells.unheard {e e' : Emulation} {events : List Event} (hmode : e'.mode = e.mode)
    (hstate : e'.state = e.state) (h : ∀ m : Mode, ∀ x ∈ events, m.heard? x = none) :
    e.Tells events e' := by
  intro m held hheld
  rwa [Mode.told_unheard (h m), Honest, hmode, hstate]

/-- No events, if nothing changes for the device that is emulated. -/
theorem Tells.nothing {e e' : Emulation} (hmode : e'.mode = e.mode)
    (hshown : e.mode.shows e'.state = e.mode.shows e.state) : e.Tells [] e' := by
  intro m held hheld
  refine hheld.imp_right fun ⟨hm, heq⟩ => ⟨hmode.trans hm, heq.trans ?_⟩
  rw [← hm]
  exact hshown.symm

/-- An event `x` that only the device that is emulated hears, and that tells it everything. -/
theorem Tells.own {e e' : Emulation} {x : Event} (hmode : e'.mode = e.mode)
    (hown : e.mode.heard? x = some (e.mode.shows e'.state))
    (hothers : ∀ m ≠ e.mode, m.heard? x = none) : e.Tells [x] e' := by
  intro m held hheld
  by_cases hm : m = e.mode
  · subst hm
    refine .inr ⟨hmode, ?_⟩
    simp [Mode.told, hown]
  · have hsilent : m.told held [x] = held := by simp [Mode.told, hothers m hm]
    rw [hsilent]
    exact .inl (hheld.resolve_right fun hon => hm hon.1.symm)

/-- The joystick of a `port` that is emulated is told its whole state. -/
theorem Tells.joystick {e e' : Emulation} {port : UInt8} (hmode : e'.mode = e.mode)
    (hport : e.mode.port? = some port) : e.Tells [.joystick port e'.state] e' := by
  refine .own hmode ?_ fun m hm => if_neg fun h => hm (Mode.eq_of_port? h hport)
  rw [Mode.shows_of_port? hport]
  exact if_pos hport

/-- A mouse that is emulated is told its buttons with every movement. -/
theorem Tells.mouse {e e' : Emulation} (hmode : e'.mode = e.mode) (hmouse : e.mode = .mouse)
    (dx dy : Int8) : e.Tells [.mouse e'.state.mouseButtons dx dy] e' := by
  refine .own hmode ?_ fun m hm => if_neg (hmouse ▸ hm)
  rw [hmouse]
  rfl

/-! ### Directions -/

/-- A direction is no button. -/
theorem button_of_direction? {key : UInt8} {d : State} (h : direction? key = some d) {k : Switch}
    (hk : k.isDirection = false) : d.has k = false := by
  rw [← Bool.not_eq_true]
  intro hhas
  have hdirection := isDirection_of_mem_cursorKeys (cursorKey_of_direction? h hhas)
  exact Bool.noConfusion (hk.symm.trans hdirection)

/-- The buttons of the mouse are the first two of the state. -/
theorem mouseButtons_congr {s t : State} (hfirst : s.has .button1 = t.has .button1)
    (hsecond : s.has .button2 = t.has .button2) : s.mouseButtons = t.mouseButtons := by
  rw [State.mouseButtons, State.mouseButtons, hfirst, hsecond]

/-- Directions that come and go are told to a joystick at once (`stateEvent?`).  The mouse is not
told, as they are none of its buttons. -/
theorem stateEvent?_tells {e e' : Emulation} (hmode : e'.mode = e.mode)
    (hstate : ∀ k : Switch, k.isDirection = false → e'.state.has k = e.state.has k) :
    e.Tells e'.stateEvent?.toList e' := by
  have hevent : e'.stateEvent? = e.mode.port?.map fun port => .joystick port e'.state := by
    rw [stateEvent?, hmode]
  rw [hevent]
  cases hm : e.mode with
  | none =>
    refine .nothing hmode ?_
    rw [hm]
    rfl
  | mouse =>
    refine .nothing hmode ?_
    rw [hm]
    exact mouseButtons_congr (hstate .button1 rfl) (hstate .button2 rfl)
  | joystick0 | joystick1 => exact .joystick hmode (by rw [hm]; rfl)

theorem press_tells (e : Emulation) {d : State}
    (hd : ∀ k : Switch, k.isDirection = false → d.has k = false) :
    e.Tells (e.press d).1.toList (e.press d).2 := by
  refine stateEvent?_tells rfl fun k hk => ?_
  change (e.state ∪ d).has k = e.state.has k
  rw [Flags.has_union, hd k hk, Bool.or_false]

theorem release_tells (e : Emulation) {d : State}
    (hd : ∀ k : Switch, k.isDirection = false → d.has k = false) :
    e.Tells (e.release d).1.toList (e.release d).2 := by
  refine stateEvent?_tells rfl fun k hk => ?_
  change (e.state \ d).has k = e.state.has k
  rw [Flags.has_sdiff, hd k hk, Bool.not_false, Bool.and_true]

/-! ### Buttons, steps and modes -/

theorem buttonsOf_empty : buttonsOf ∅ = ∅ := by decide

/-- Two states that agree in what a `mask` has show the same there. -/
theorem has_of_inter {s t mask : State} (h : ¬(s ∩ mask != t ∩ mask) = true) {k : Switch}
    (hk : mask.has k = true) : t.has k = s.has k := by
  have hsame : s ∩ mask = t ∩ mask := by simpa using h
  have hboth := congrArg (fun u : State => u.has k) hsame
  simpa [hk] using hboth.symm

/-- The buttons that the `modifiers` change are told to the device that is emulated. -/
theorem setButtons_tells (e : Emulation) (modifiers : Modifiers) :
    e.Tells ((e.setButtons modifiers).1.toList ++ (e.setButtons modifiers).2.1.toList)
      (e.setButtons modifiers).2.2 := by
  have hmouse : (e.setButtons modifiers).1 =
      if e.mode = .mouse &&
          e.state ∩ mouseButtons != (e.setButtons modifiers).2.2.state ∩ mouseButtons then
        some (.mouse (e.setButtons modifiers).2.2.state.mouseButtons 0 0)
      else none := rfl
  have hjoystick : (e.setButtons modifiers).2.1 =
      if e.state ∩ State.buttons != (e.setButtons modifiers).2.2.state ∩ State.buttons then
        e.mode.port?.map fun port => .joystick port (e.setButtons modifiers).2.2.state
      else none := rfl
  have hmode : (e.setButtons modifiers).2.2.mode = e.mode := rfl
  have hstate := e.setButtons_state modifiers
  -- from here on only the switches of the new state matter, not how it was made
  generalize (e.setButtons modifiers).2.2 = new at *
  rw [hmouse, hjoystick]
  cases hm : e.mode with
  | none =>
    simp only [Mode.port?, Option.map_none, ite_self]
    exact .nothing hmode (by rw [hm]; rfl)
  | mouse =>
    simp only [Mode.port?, Option.map_none, ite_self, Option.toList_none, List.append_nil,
      decide_true, Bool.true_and]
    split
    · exact .mouse hmode hm 0 0
    · next hsame =>
      refine .nothing hmode ?_
      rw [hm]
      exact mouseButtons_congr (has_of_inter hsame (by decide)) (has_of_inter hsame (by decide))
  | joystick0 | joystick1 =>
    simp only [Mode.port?, Option.map_some, reduceCtorEq, decide_false, Bool.false_and,
      Bool.false_eq_true, if_false, Option.toList_none, List.nil_append]
    split
    · exact .joystick hmode (by rw [hm]; rfl)
    · next hsame =>
      have hwhole : new.state = e.state := by
        refine State.ext_has fun k => ?_
        cases hk : k.isDirection with
        | true => rw [hstate, if_pos hk]
        | false => exact has_of_inter hsame (by rw [State.has_buttons, hk]; rfl)
      exact .nothing hmode (by rw [hwhole])

/-- A step of the mouse at `now` says which of its buttons are held. -/
theorem tick_tells (e : Emulation) (now : Instant) :
    e.Tells (e.tick now).1.toList (e.tick now).2 := by
  unfold tick
  split
  · next hstep =>
    have hmode : e.mode = .mouse := of_decide_eq_true (Bool.and_eq_true_iff.1 hstep).1
    dsimp only
    split
    · exact Tells.mouse rfl hmode _ _
    · exact .nothing rfl rfl
  · exact .nothing rfl rfl

theorem mouseButtons_eq_zero {s : State} (h : s.meets mouseButtons = false) :
    s.mouseButtons = 0 := by
  have hnone (k : Switch) (hk : mouseButtons.has k = true) : s.has k = false := by
    rw [← Bool.not_eq_true]
    intro hhas
    exact Bool.noConfusion (((State.meets_iff _ _).2 ⟨k, hhas, hk⟩).symm.trans h)
  rw [State.mouseButtons, hnone .button1 (by decide), hnone .button2 (by decide)]
  rfl

/-- What is sent when the mode `old` is left: nothing if nothing is held, and otherwise an event by
which its own device, and no other, lets go. -/
theorem leaveEvent?_cases (e : Emulation) {old : Mode} (hold : old ≠ e.mode) :
    (e.leaveEvent? old = none ∧ old.shows e.state = 0) ∨
      ∃ x, e.leaveEvent? old = some x ∧ old.heard? x = some 0 ∧
        ∀ m ≠ old, m.heard? x = none := by
  unfold leaveEvent?
  rw [if_neg hold]
  cases old with
  | none => exact .inl ⟨rfl, rfl⟩
  | mouse =>
    cases hmeets : e.state.meets mouseButtons with
    | false => exact .inl ⟨rfl, mouseButtons_eq_zero hmeets⟩
    | true => exact .inr ⟨_, rfl, rfl, fun m hm => if_neg hm⟩
  | joystick0 | joystick1 =>
    cases hempty : e.state.isEmpty with
    | true => exact .inl ⟨rfl, beq_iff_eq.1 hempty⟩
    | false => exact .inr ⟨_, rfl, rfl, fun m hm => if_neg fun h => hm (Mode.eq_of_port? h rfl)⟩

/-- A mode that is left has its device let go of everything. -/
theorem select_tells (e : Emulation) (selector : UInt8) (now : Instant) :
    e.Tells ((e.select selector now).leaveEvent? e.mode).toList (e.select selector now) := by
  by_cases hmode : (e.select selector now).mode = e.mode
  · have hnone : (e.select selector now).leaveEvent? e.mode = none := if_pos hmode.symm
    rw [hnone]
    exact .nothing hmode rfl
  · -- the mode is another one now, so that every device has to believe that nothing is held
    intro m held hheld
    refine .inl ?_
    rcases leaveEvent?_cases (e.select selector now) (Ne.symm hmode) with
      ⟨hnone, hshown⟩ | ⟨x, hsome, hown, hothers⟩
    · rw [hnone]
      exact hheld.elim id fun ⟨hon, heq⟩ => heq.trans (hon ▸ hshown)
    · rw [hsome]
      by_cases hm : m = e.mode
      · simp [Mode.told, hm, hown]
      · simpa [Mode.told, hothers m hm] using hheld.resolve_right fun hon => hm hon.1.symm

end Emulation

namespace Router

open Emulation (Mode)

variable {layout : Layout} {captures : Bool} {now : Instant} {r : Router}

/-! ### Keys -/

/-- Only the emulation's own routes (`Route.holds`) are heard of. -/
theorem release_tells (r : Router) {route : Route}
    (h : ∀ k : Switch, k.isDirection = false → route.holds k = false) :
    r.emulation.Tells (r.release route).1 (r.release route).2.emulation := by
  cases route with
  | emulation d => exact r.emulation.release_tells h
  | core code osd => exact .unheard rfl rfl (by cases osd <;> simp [release, Mode.heard?])
  | osd code => exact .unheard rfl rfl (by simp [release, Mode.heard?])
  | osdOpen => exact .unheard rfl rfl (by simp [release, Mode.heard?])
  | nowhere => exact .nothing rfl rfl

theorem Claims.lookup_button (h : r.Claims) (key : UInt8) {k : Switch}
    (hk : k.isDirection = false) : ((r.routes.lookup key).getD .nowhere).holds k = false := by
  rw [← Bool.not_eq_true]
  intro hholds
  have hdirection := Emulation.isDirection_of_mem_cursorKeys (h.lookup hholds)
  exact Bool.noConfusion (hk.symm.trans hdirection)

/-- A `key` that comes up has the device told what it let go of. -/
theorem Claims.breakKey_tells (h : r.Claims) (key : UInt8) :
    r.emulation.Tells (r.breakKey key).1 (r.breakKey key).2.emulation := by
  unfold Router.breakKey
  exact release_tells { r with routes := r.routes.eraseP (·.1 == key) } fun k hk =>
    h.lookup_button key hk

/-- A `press` has the device told what the key holds. -/
theorem press_tells (r : Router) (key : UInt8) :
    r.emulation.Tells (r.press layout captures key now).1
      (r.press layout captures key now).2.2.emulation := by
  have hecho (m : Mode) : ∀ x ∈ ((r.echo? key).map Event.osdKey).toList, m.heard? x = none := by
    cases r.echo? key <;> simp [Mode.heard?]
  have h := press_outcome layout captures now r key
  generalize r.press layout captures key now = p at h ⊢
  cases h with
  | claimed hclaim =>
    rw [claimed?] at hclaim
    have hdirection := Emulation.direction?_of_claimed? (Option.ite_none_left_eq_some.1 hclaim).2
    exact r.emulation.press_tells fun k hk => Emulation.button_of_direction? hdirection hk
  | toggled hclaim hopen => exact .unheard rfl rfl (by simp [toggleOsd, Mode.heard?])
  | selected hclaim hselect =>
    exact (r.emulation.select_tells _ now).trans (.unheard rfl rfl (by simp [Mode.heard?]))
  | captured | missed => exact .unheard rfl rfl hecho
  | caps | sent =>
    refine .unheard rfl rfl fun m => List.forall_mem_append.2 ⟨hecho m, ?_⟩
    simp [Mode.heard?]

theorem makeKey_tells (r : Router) (key : UInt8) :
    r.emulation.Tells (r.makeKey layout captures now key).1
      (r.makeKey layout captures now key).2.emulation := by
  by_cases hroom : r.routes.length < maxKeys
  · rw [makeKey_of_room hroom]
    exact press_tells r key
  · rw [makeKey, if_neg hroom]
    exact .nothing rfl rfl

/-- What every key of a `pass` has the devices told, the pass has. -/
theorem Claims.forKeys_tells {pass : Router → UInt8 → List Event × Router}
    (hpass : ∀ r : Router, ∀ key, r.Claims →
      (pass r key).2.Claims ∧ r.emulation.Tells (pass r key).1 (pass r key).2.emulation)
    (h : r.Claims) (keys : List UInt8) :
    r.emulation.Tells (r.forKeys pass keys).1 (r.forKeys pass keys).2.emulation := by
  induction keys generalizing r with
  | nil => exact .nothing rfl rfl
  | cons key keys ih =>
    obtain ⟨hnext, hfirst⟩ := hpass r key h
    exact hfirst.trans (ih hnext)

/-! ### A report -/

/-- No device hears of a modifier that changes at the core. -/
theorem modifierEdge_unheard (layout : Layout) (sent wanted : Modifiers) (bit : Nat) (m : Mode) :
    ∀ x ∈ modifierEdge? layout sent wanted bit, m.heard? x = none := by
  intro x hx
  simp only [modifierEdge?] at hx
  split at hx <;> cases hx
  rfl

/-- The device is told of the buttons that the `modifiers` hold. -/
theorem modifiersPass_tells (r : Router) (modifiers : Modifiers) :
    r.emulation.Tells (r.modifiersPass layout modifiers).1
      (r.modifiersPass layout modifiers).2.emulation := by
  refine (r.emulation.setButtons_tells (r.emulationButtons modifiers)).trans
    (.unheard rfl rfl fun m x hx => ?_)
  obtain ⟨bit, -, hedge⟩ := List.mem_filterMap.1 hx
  exact modifierEdge_unheard layout _ _ bit m x hedge

/-- The `passes` of a report keep every device honest. -/
theorem Claims.passes_tells (h : r.Claims) (report : Report) :
    r.emulation.Tells (r.passes report now).1 (r.passes report now).2.emulation := by
  rcases r.layout_or_none with ⟨profile, layout, hprofile, hlayout⟩ | hnone
  · rw [passes_of_layout hprofile hlayout]
    dsimp only
    have hmodified := @modifiersPass_tells layout r report.modifiers
    have hclaims : (r.modifiersPass layout report.modifiers).2.Claims := h.congr rfl
    generalize r.modifiersPass layout report.modifiers = modified at hmodified hclaims ⊢
    have hbroken : modified.2.emulation.Tells (modified.2.breakPass report).1
        (modified.2.breakPass report).2.emulation :=
      hclaims.forKeys_tells (fun _ key hs => ⟨hs.breakKey key, hs.breakKey_tells key⟩) _
    have hleft : (modified.2.breakPass report).2.Claims :=
      forKeys_induction (fun _ key hs => hs.breakKey key) _ hclaims
    exact (hmodified.trans hbroken).trans
      (hleft.forKeys_tells (fun s key hs => ⟨hs.makeKey key, s.makeKey_tells key⟩) _)
  · rw [passes_of_no_layout hnone]
    exact .nothing rfl rfl

theorem resetPass_unheard (r : Router) (report : Report) (m : Mode) :
    ∀ x ∈ (r.resetPass report).1, m.heard? x = none := by
  intro x hx
  obtain ⟨request, rfl⟩ := r.resetPass_events report x hx
  rfl

/-- A `report` keeps every device honest, taken in or not. -/
theorem Claims.receive_tells (h : r.Claims) (report : Report) (priority : UInt8) :
    r.emulation.Tells (r.receive report priority now).1
      (r.receive report priority now).2.emulation := by
  rw [receive_eq_process]
  cases hignore : r.ignores report priority with
  | true =>
    rw [process_of_ignores hignore]
    exact .nothing rfl rfl
  | false =>
    have hopened := opened_router r report priority
    rw [process_of_accepts hignore]
    exact (Emulation.Tells.unheard (by rw [hopened]) (by rw [hopened])
      (resetPass_unheard _ report)).trans (Claims.passes_tells (h.congr (by rw [hopened])) _)

/-! ### A history -/

/-- Whatever input `i` happens keeps every device from believing what is not so. -/
theorem Claims.feed_tells (h : r.Claims) (i : Input) :
    r.emulation.Tells (r.feed i).1 (r.feed i).2.emulation := by
  cases i with
  | report report priority now => exact h.receive_tells report priority
  | tick now =>
    change r.emulation.Tells (r.tick now).1.toList (r.tick now).2.emulation
    by_cases hvisible : r.osdVisible
    · rw [tick, if_pos hvisible]
      exact .nothing rfl rfl
    · rw [tick, if_neg hvisible]
      exact r.emulation.tick_tells now
  | osd visible | adopt profile => exact .nothing rfl rfl

/-- A whole history `is` keeps every device from believing what is not so. -/
theorem Grounded.run_tells {b : Bearings} (h : Grounded b r) (is : List Input) :
    r.emulation.Tells (r.run is).1 (r.run is).2.emulation := by
  induction is generalizing b r with
  | nil => exact .nothing rfl rfl
  | cons i is ih => exact (h.claims.feed_tells i).trans (ih (h.feed i))

/-! ### Buttons -/

/-- Keys that come up are no buttons. -/
theorem Claims.breakKey_button (h : r.Claims) (key : UInt8) {k : Switch}
    (hk : k.isDirection = false) :
    (r.breakKey key).2.emulation.state.has k = r.emulation.state.has k := by
  rw [breakKey_state, h.lookup_button key hk, Bool.not_false, Bool.and_true]

/-- Nor are keys that go down. -/
theorem makeKey_button (r : Router) (key : UInt8) {k : Switch} (hk : k.isDirection = false) :
    (r.makeKey layout captures now key).2.emulation.state.has k = r.emulation.state.has k := by
  by_cases hroom : r.routes.length < maxKeys
  · have hnone : (r.press layout captures key now).2.1.holds k = false := by
      cases hroute : (r.press layout captures key now).2.1 with
      | emulation d => exact Emulation.button_of_direction? (press_claims r key hroute) hk
      | _ => rfl
    have hpress := @press_state layout captures now r key k
    rw [hnone, Bool.or_false] at hpress
    rw [makeKey_of_room hroom]
    exact hpress
  · rw [makeKey, if_neg hroom]

/-- After a `report` that is taken in, its modifiers are the buttons that are held. -/
theorem Claims.passes_buttons (h : r.Claims) {profile : Profile}
    (hprofile : r.profile = some profile) (hlayout : profile.layout = some layout)
    (report : Report) {k : Switch} (hk : k.isDirection = false) :
    (r.passes report now).2.emulation.state.has k =
      (Emulation.buttonsOf (r.emulationButtons report.modifiers)).has k := by
  have hmodified := @modifiersPass_state layout r report.modifiers k
  rw [hk, if_neg Bool.false_ne_true] at hmodified
  rw [passes_of_layout hprofile hlayout, ← hmodified]
  dsimp only
  have hclaims : (r.modifiersPass layout report.modifiers).2.Claims := h.congr rfl
  generalize (r.modifiersPass layout report.modifiers).2 = modified at hclaims ⊢
  have hbroken : (modified.breakPass report).2.Claims ∧
      (modified.breakPass report).2.emulation.state.has k = modified.emulation.state.has k :=
    forKeys_induction (P := fun s => s.Claims ∧
      s.emulation.state.has k = modified.emulation.state.has k)
      (fun s key hs => ⟨hs.1.breakKey key, (hs.1.breakKey_button key hk).trans hs.2⟩) _
      ⟨hclaims, rfl⟩
  exact forKeys_induction (P := fun s => s.emulation.state.has k = modified.emulation.state.has k)
    (fun s key hs => (s.makeKey_button key hk).trans hs) _ hbroken.2

/-! ### One core -/

/-- What the emulation of `r` holds on one core is held for keys that are down; without a layout
nothing is. -/
structure Settled (r : Router) : Prop where
  grounded : ∃ b : Bearings, Grounded b r ∧ ∀ k, b.left k = false
  unlaid : (∀ profile, r.profile = some profile → profile.layout = none) → r.emulation.state = ∅

/-- A new router with a `profile` holds nothing. -/
theorem settled_ofSettings (s : Settings) (profile : Option Profile) :
    ((ofSettings s).adoptProfile profile).Settled where
  grounded := ⟨_, (grounded_ofSettings s).feed (.adopt profile), fun _ => rfl⟩
  unlaid _ := rfl

/-- Without a layout a `report` has no part in what is held. -/
theorem receive_state_of_no_layout
    (hnone : ∀ profile, r.profile = some profile → profile.layout = none) (report : Report)
    (priority : UInt8) :
    (r.receive report priority now).2.emulation.state = r.emulation.state := by
  rw [receive_eq_process]
  cases hignore : r.ignores report priority with
  | true => rw [process_of_ignores hignore]
  | false =>
    have hopened := opened_router r report priority
    rw [process_of_accepts hignore, passes_of_no_layout (by rw [hopened]; exact hnone), hopened]

theorem Settled.feed (h : r.Settled) {i : Input} (hi : i.keepsCore = true) :
    (r.feed i).2.Settled := by
  obtain ⟨b, hgrounded, hleft⟩ := h.grounded
  refine ⟨⟨b.after r i, hgrounded.feed i, fun k => ?_⟩, fun hnone => ?_⟩
  · cases i with
    | report report priority now =>
      rw [Bearings.after]
      split
      · exact hleft k
      · change (b.left k && _) = false
        rw [hleft, Bool.false_and]
    | tick now => exact hleft k
    | osd visible => exact hleft k
    | adopt profile => cases hi
  · rw [feed_profile r hi] at hnone
    have hempty := h.unlaid hnone
    cases i with
    | report report priority now => exact (receive_state_of_no_layout hnone _ _).trans hempty
    | tick now => exact (tick_held r now).trans hempty
    | osd visible => exact hempty
    | adopt profile => cases hi

/-- On one core a direction `k` is held just if a key that is down is routed to it. -/
theorem Settled.held (h : r.Settled) {k : Switch} (hk : k.isDirection = true) :
    r.emulation.state.has k = true ↔
      ∃ key ∈ r.pressed.pressed, ∃ d, (key, Route.emulation d) ∈ r.routes ∧ d.has k = true := by
  obtain ⟨b, hgrounded, hleft⟩ := h.grounded
  rw [hgrounded.held k hk, hleft, Bool.or_false, holds, List.any_eq_true]
  constructor
  · rintro ⟨⟨key, route⟩, hmem, hholds⟩
    obtain ⟨d, rfl, hd⟩ := Route.holds_iff.1 hholds
    have hmatched := hgrounded.tracked.matched_of_mem hmem
    exact ⟨key, hmatched.perm.mem_iff.1 (List.mem_map_of_mem hmem), d, hmem, hd⟩
  · rintro ⟨key, -, d, hmem, hd⟩
    exact ⟨(key, .emulation d), hmem, hd⟩

theorem emulationButtons_empty (r : Router) : r.emulationButtons ∅ = ∅ := by
  have hnone : (∅ : Modifiers) ∩ Emulation.buttonModifiers = ∅ := congrArg Flags.mk UInt8.zero_and
  rw [emulationButtons, hnone, ite_self]

/-- After an idle `report` that is not passed over the emulation holds nothing. -/
theorem Settled.idle (h : r.Settled) {report : Report} {priority : UInt8}
    (hidle : report.isIdle = true) (haccept : r.ignores report priority = false) :
    (r.receive report priority now).2.emulation.state = ∅ := by
  obtain ⟨hmodifiers, hkeys⟩ := Bool.and_eq_true_iff.1 hidle
  obtain ⟨b, hgrounded, -⟩ := h.grounded
  have hafter : (r.receive report priority now).2.Settled :=
    h.feed (i := .report report priority now) rfl
  have hroutes : (r.receive report priority now).2.routes = [] :=
    routes_of_no_keys hgrounded.tracked (List.isEmpty_iff.1 hkeys) haccept
  rcases r.layout_or_none with ⟨profile, layout, hprofile, hlayout⟩ | hnone
  · -- no key is left to hold a direction, and no modifier to hold a button
    refine State.ext_has fun k => ?_
    rw [Flags.has_empty]
    cases hk : k.isDirection with
    | true =>
      rw [← Bool.not_eq_true, hafter.held hk, hroutes]
      rintro ⟨key, -, d, hmem, -⟩
      exact List.not_mem_nil hmem
    | false =>
      have hopened := opened_router r report priority
      have hnone : (r.taken report).modifiers = ∅ := congrArg Flags.mk (beq_iff_eq.1 hmodifiers)
      have hclaims : (r.opened report priority).Claims :=
        hgrounded.claims.congr (by rw [hopened])
      rw [receive_eq_process, process_of_accepts haccept,
        hclaims.passes_buttons (by rw [hopened]; exact hprofile) hlayout _ hk, hnone,
        emulationButtons_empty, Emulation.buttonsOf_empty]
      exact Flags.has_empty k
  · exact (receive_state_of_no_layout hnone report priority).trans (h.unlaid hnone)

/-- With nothing held in the `state` the mouse does not move. -/
theorem tick_of_nothing_held (h : r.emulation.state = ∅) (now : Instant) :
    (r.tick now).1 = none := by
  have hstill : (r.emulation.tick now).1 = none := by
    unfold Emulation.tick
    rw [h]
    split <;> rfl
  by_cases hvisible : r.osdVisible
  · rw [tick, if_pos hvisible]
  · rw [tick, if_neg hvisible]
    exact hstill

/-! ### Nothing is left held -/

/-- **Nothing is left held.**  Over every history on one core, whatever modes are selected and
whatever is held meanwhile: a device that is not emulated has last been told (`Mode.told`) that
nothing of it is held, if it was told anything; the directions in the state are those of the keys
that are down and routed to the emulation (`Route.emulation`); and an idle report that is not passed
over leaves nothing held, has every device told so, and no movement comes after it. -/
theorem nothing_left_held (s : Settings) (profile : Option Profile) {inputs : List Input}
    (hinputs : ∀ i ∈ inputs, i.keepsCore = true) :
    let past := ((ofSettings s).adoptProfile profile).run inputs
    (∀ m : Mode, past.2.emulation.mode ≠ m → m.told 0 past.1 = 0) ∧
    (∀ k : Switch, k.isDirection = true → (past.2.emulation.state.has k = true ↔
      ∃ key ∈ past.2.pressed.pressed, ∃ d,
        (key, Route.emulation d) ∈ past.2.routes ∧ d.has k = true)) ∧
    ∀ report priority instant, report.isIdle = true →
      past.2.ignores report priority = false →
      let after := past.2.receive report priority instant
      after.2.emulation.state = ∅ ∧ (∀ m : Mode, m.told 0 (past.1 ++ after.1) = 0) ∧
        ∀ later, (after.2.tick later).1 = none := by
  intro past
  have hsettled : past.2.Settled :=
    run_induction (settled_ofSettings s profile) fun _ i hi hr => hr.feed (hinputs i hi)
  have htold (m : Mode) : Emulation.Honest m past.2.emulation (m.told 0 past.1) :=
    ((grounded_ofSettings s).feed (.adopt profile)).run_tells inputs m 0 (.inl rfl)
  refine ⟨fun m hm => (htold m).resolve_right fun hon => hm hon.1, fun k hk => hsettled.held hk,
    fun report priority instant hidle haccept => ?_⟩
  intro after
  have hempty : after.2.emulation.state = ∅ := hsettled.idle hidle haccept
  refine ⟨hempty, fun m => ?_, tick_of_nothing_held hempty⟩
  obtain ⟨b, hgrounded, -⟩ := hsettled.grounded
  have hlater := @Claims.receive_tells instant past.2 hgrounded.claims report priority m _ (htold m)
  rw [Mode.told_append]
  exact hlater.eq_zero hempty

/-- On the Minimig the mouse is selected; left control and right are pressed, and held while the
first joystick is selected. -/
def changedModes : List Input :=
  [.report (.ofKeys ∅ [0x6c]) 0 0, .report (.ofKeys (.single .leftCtrl) [0x4f]) 0 1000,
    .tick 20000, .report (.ofKeys (.single .leftCtrl) [0x4f, 0x6d]) 0 30000]

/-- The mouse has its button let go when the joystick is selected, and the joystick, told of nothing
yet, hears of button and direction only as they are let go of. -/
theorem nothing_left_held_changedModes :
    (∀ i ∈ changedModes, i.keepsCore = true) ∧
    let past := ((ofSettings {}).adoptProfile Core.minimig1.profile?).run changedModes
    let after := past.2.receive {} 0 40000
    past.1.filterMap Mode.mouse.heard? = [1, 1, 0] ∧ past.2.emulation.mode = .joystick0 ∧
      Mode.mouse.told 0 past.1 = 0 ∧
      after.1.filterMap Mode.joystick0.heard? = [1, 0] ∧ after.2.emulation.state = ∅ := by
  have hcore : ∀ i ∈ changedModes, i.keepsCore = true := by decide
  have hheld := nothing_left_held {} Core.minimig1.profile? hcore
  have hmode : (((ofSettings {}).adoptProfile Core.minimig1.profile?).run
      changedModes).2.emulation.mode = .joystick0 := by decide +kernel
  refine ⟨hcore, by decide +kernel, hmode, hheld.1 .mouse ?_, by decide +kernel, ?_⟩
  · rw [hmode]
    decide
  · exact (hheld.2.2 {} 0 40000 (by decide) (by decide +kernel)).1

end Router

end IoController.Keyboard
