import IoController.Keyboard.Router

/-!
# Keyboard — Passes

What a key that goes down can come to, what the passes over a report leave alone, and how a
report that is taken in falls into passes.

* `Router.press_outcome`: the seven things that a press can be, each with its events, its route
  and the router after it.
* `Router.press_router`, `Router.breakKey_router`: a key that goes down or comes up changes
  neither the settings nor the report, and no route but its own.
* `Router.passes_of_layout`, `Router.passes_of_no_layout`: a report under a profile with a
  layout, and under any other.
-/

namespace IoController.Keyboard.Router

variable {layout : Layout} {captures : Bool} {now : Instant}

/-! ### A press -/

/-- The code under which the OSD is told of a `key`. -/
def echo? (r : Router) (key : UInt8) : Option UInt8 := if r.osdVisible then osdCode? key else none

/-- What the press of a `key` can be: its events, its route, and the router after it. -/
inductive Outcome (layout : Layout) (captures : Bool) (now : Instant) (r : Router) (key : UInt8) :
    List Event × Route × Router → Prop where
  /-- The emulation claims the key. -/
  | claimed {directions : Joystick.State} (hclaim : r.claimed? key = some directions) :
      Outcome layout captures now r key
        ((r.emulation.press directions).1.toList, .emulation directions,
          { r with emulation := (r.emulation.press directions).2 })
  /-- The key opens or closes the OSD. -/
  | toggled (hclaim : r.claimed? key = none)
      (hopen : (layout.lookup key r.menuAsRightGui).opensOsd = true) :
      Outcome layout captures now r key r.toggleOsd
  /-- The key selects the emulation mode. -/
  | selected {selector : UInt8} (hclaim : r.claimed? key = none)
      (hselect : (layout.lookup key r.menuAsRightGui).emulationSelector? = some selector) :
      Outcome layout captures now r key (r.selectEmulation selector now)
  /-- The OSD is open and takes the key for itself. -/
  | captured (hclaim : r.claimed? key = none)
      (hselect : (layout.lookup key r.menuAsRightGui).emulationSelector? = none)
      (hvisible : r.osdVisible = true) (hcaptures : captures = true) :
      Outcome layout captures now r key
        (((r.echo? key).map .osdKey).toList, (r.echo? key).elim .nowhere .osd, r)
  /-- The key is caps lock. -/
  | caps (hclaim : r.claimed? key = none)
      (hcaps : (layout.lookup key r.menuAsRightGui).togglesCaps = true) :
      Outcome layout captures now r key
        (((r.echo? key).map .osdKey).toList ++
            [.key (layout.lookup key r.menuAsRightGui) (!r.capsLock),
              .leds (.single .caps) (!r.capsLock)],
          (r.echo? key).elim .nowhere .osd, { r with capsLock := !r.capsLock })
  /-- The core does not have the key. -/
  | missed (hclaim : r.claimed? key = none)
      (hcaps : (layout.lookup key r.menuAsRightGui).togglesCaps = false)
      (hmiss : (layout.lookup key r.menuAsRightGui).isMiss = true) :
      Outcome layout captures now r key
        (((r.echo? key).map .osdKey).toList, (r.echo? key).elim .nowhere .osd, r)
  /-- The key goes to the core. -/
  | sent (hclaim : r.claimed? key = none)
      (hcaps : (layout.lookup key r.menuAsRightGui).togglesCaps = false)
      (hmiss : (layout.lookup key r.menuAsRightGui).isMiss = false) :
      Outcome layout captures now r key
        (((r.echo? key).map .osdKey).toList ++
            [.key (layout.lookup key r.menuAsRightGui) true],
          .core (layout.lookup key r.menuAsRightGui) (r.echo? key), r)

/-- Every `press` is one of these. -/
theorem press_outcome (layout : Layout) (captures : Bool) (now : Instant) (r : Router)
    (key : UInt8) :
    Outcome layout captures now r key (r.press layout captures key now) := by
  cases hclaim : r.claimed? key with
  | some directions =>
    rw [press, hclaim]
    exact .claimed hclaim
  | none =>
    simp only [press, hclaim, routeKey]
    -- the outcomes are told apart in the order in which a press tests for them
    by_cases hopen : (layout.lookup key r.menuAsRightGui).opensOsd &&
        (layout.lookup key r.menuAsRightGui).code == 0
    · rw [if_pos hopen]
      exact .toggled hclaim (Bool.and_eq_true_iff.1 hopen).1
    · rw [if_neg hopen]
      cases hselect : (layout.lookup key r.menuAsRightGui).emulationSelector? with
      | some selector => exact .selected hclaim hselect
      | none =>
        dsimp only
        by_cases hcapture : r.osdVisible && captures
        · obtain ⟨hvisible, hcaptures⟩ := Bool.and_eq_true_iff.1 hcapture
          rw [if_pos hcapture]
          exact .captured hclaim hselect hvisible hcaptures
        · rw [if_neg hcapture, sendKey]
          cases hcaps : (layout.lookup key r.menuAsRightGui).togglesCaps with
          | true => exact .caps hclaim hcaps
          | false =>
            cases hmiss : (layout.lookup key r.menuAsRightGui).isMiss with
            | true => exact .missed hclaim hcaps hmiss
            | false => exact .sent hclaim hcaps hmiss

/-- A `press` changes the OSD, caps lock and the emulation, and nothing else. -/
theorem press_router (r : Router) (key : UInt8) :
    (r.press layout captures key now).2.2 =
      { r with
        osdVisible := (r.press layout captures key now).2.2.osdVisible
        capsLock := (r.press layout captures key now).2.2.capsLock
        emulation := (r.press layout captures key now).2.2.emulation } := by
  have h := press_outcome layout captures now r key
  generalize r.press layout captures key now = p at h ⊢
  cases h <;> rfl

/-- A `press` leaves the `routes` of the keys that are down. -/
@[simp] theorem press_routes (r : Router) (key : UInt8) :
    (r.press layout captures key now).2.2.routes = r.routes := by
  rw [press_router]

/-! ### One key of a pass -/

/-- A `release` changes the emulation, and nothing else. -/
theorem release_router (r : Router) (route : Route) :
    (r.release route).2 = { r with emulation := (r.release route).2.emulation } := by
  cases route <;> rfl

/-- A `key` that comes up loses its route, and only the emulation may change beside it. -/
theorem breakKey_router (r : Router) (key : UInt8) :
    (r.breakKey key).2 =
      { r with
        routes := r.routes.eraseP (·.1 == key)
        emulation := (r.breakKey key).2.emulation } := by
  unfold breakKey
  exact release_router _ _

/-- With room for its route, a key that goes down gets the one that its `press` has. -/
theorem makeKey_of_room {r : Router} (h : r.routes.length < maxKeys) (key : UInt8) :
    r.makeKey layout captures now key =
      ((r.press layout captures key now).1,
        { (r.press layout captures key now).2.2 with
          routes := r.routes ++ [(key, (r.press layout captures key now).2.1)] }) := by
  rw [makeKey, if_pos h, ← @press_routes layout captures now r key]

/-- A key that goes down leaves alone what a `press` does, and may gain a route. -/
theorem makeKey_router (r : Router) (key : UInt8) :
    (r.makeKey layout captures now key).2 =
      { r with
        routes := (r.makeKey layout captures now key).2.routes
        osdVisible := (r.makeKey layout captures now key).2.osdVisible
        capsLock := (r.makeKey layout captures now key).2.capsLock
        emulation := (r.makeKey layout captures now key).2.emulation } := by
  by_cases h : r.routes.length < maxKeys
  · rw [makeKey_of_room h, press_router]
  · rw [makeKey, if_neg h]

/-- As time passes only the `emulation` changes. -/
theorem tick_router (r : Router) (now : Instant) :
    (r.tick now).2 = { r with emulation := (r.tick now).2.emulation } := by
  by_cases hvisible : r.osdVisible
  · rw [tick, if_pos hvisible]
  · rw [tick, if_neg hvisible]

/-! ### Passes -/

/-- What every key of a `pass` keeps, the pass keeps. -/
theorem forKeys_induction {P : Router → Prop} {pass : Router → UInt8 → List Event × Router}
    (hstep : ∀ r key, P r → P (pass r key).2) {r : Router} (keys : List UInt8) (h₀ : P r) :
    P (r.forKeys pass keys).2 := by
  induction keys generalizing r with
  | nil => exact h₀
  | cons key keys ih => exact ih (hstep r key h₀)

/-- A `pass` whose every key makes at most `n` events happen. -/
theorem forKeys_length_le {pass : Router → UInt8 → List Event × Router} {n : Nat}
    (hpass : ∀ r key, (pass r key).1.length ≤ n) (r : Router) (keys : List UInt8) :
    (r.forKeys pass keys).1.length ≤ n * keys.length := by
  induction keys generalizing r with
  | nil => exact Nat.le_refl 0
  | cons key keys ih =>
    have hfirst := hpass r key
    have hrest := ih (pass r key).2
    calc (r.forKeys pass (key :: keys)).1.length
        = (pass r key).1.length + ((pass r key).2.forKeys pass keys).1.length :=
          List.length_append
      _ ≤ n * (key :: keys).length := by rw [List.length_cons, Nat.mul_succ]; omega

/-- Looking for the reset combination touches only what the combination asked for (`resetPending`).
-/
theorem resetPass_router (r : Router) (report : Report) :
    (r.resetPass report).2 =
      { r with resetPending := (r.resetPass report).2.resetPending } := by
  unfold resetPass
  split
  · split <;> rfl
  · rfl

/-- Comparing the `modifiers` changes which ones the core believes to be down, and the emulation. -/
theorem modifiersPass_router (r : Router) (modifiers : Modifiers) :
    (r.modifiersPass layout modifiers).2 =
      { r with
        sentModifiers := (r.modifiersPass layout modifiers).2.sentModifiers
        emulation := (r.modifiersPass layout modifiers).2.emulation } := rfl

/-- Releasing keys changes the `routes` and the emulation. -/
theorem breakPass_router (r : Router) (report : Report) :
    (r.breakPass report).2 =
      { r with
        routes := (r.breakPass report).2.routes
        emulation := (r.breakPass report).2.emulation } := by
  refine forKeys_induction (P := fun s => s = { r with
      routes := s.routes, emulation := s.emulation }) (fun s key hs => ?_) _ rfl
  rw [breakKey_router, hs]

/-- Routing keys changes the `routes` and what a `press` changes. -/
theorem makePass_router (r : Router) (report : Report) :
    (r.makePass layout captures report now).2 =
      { r with
        routes := (r.makePass layout captures report now).2.routes
        osdVisible := (r.makePass layout captures report now).2.osdVisible
        capsLock := (r.makePass layout captures report now).2.capsLock
        emulation := (r.makePass layout captures report now).2.emulation } := by
  refine forKeys_induction (P := fun s => s = { r with
      routes := s.routes, osdVisible := s.osdVisible, capsLock := s.capsLock,
      emulation := s.emulation }) (fun s key hs => ?_) _ rfl
  rw [makeKey_router, hs]

/-! ### A report -/

/-- The `report` as it is kept: remapped, and every key in one place only. -/
def taken (r : Router) (report : Report) : Report := (r.remap.apply report).dedup

/-- The router when the keys of a `report` are about to be looked at. -/
def opened (r : Router) (report : Report) (priority : UInt8) : Router :=
  ({ r with lastPriority := priority }.resetPass report).2

/-- Only its `priority` has been taken in by then, and what the reset combination asks for. -/
theorem opened_router (r : Router) (report : Report) (priority : UInt8) :
    r.opened report priority =
      { r with
        lastPriority := priority
        resetPending := (r.opened report priority).resetPending } :=
  resetPass_router _ _

/-- A `report` that is passed over makes nothing happen. -/
theorem process_of_ignores {r : Router} {report : Report} {priority : UInt8}
    (h : r.ignores report priority = true) : r.process report priority now = ([], r) := by
  rw [process, if_pos h]

/-- Any other `report` is looked through for the reset combination, remapped, and taken in. -/
theorem process_of_accepts {r : Router} {report : Report} {priority : UInt8}
    (h : r.ignores report priority = false) :
    r.process report priority now =
      (({ r with lastPriority := priority }.resetPass report).1 ++
          ((r.opened report priority).passes (r.taken report) now).1,
        ((r.opened report priority).passes (r.taken report) now).2) := by
  have htaken : r.taken report = ((r.opened report priority).remap.apply report).dedup := by
    rw [opened_router, taken]
  rw [process, if_neg (by simp [h]), htaken]
  rfl

/-- Either there is a `layout`, or there is none. -/
theorem layout_or_none (r : Router) :
    (∃ profile layout, r.profile = some profile ∧ profile.layout = some layout) ∨
      ∀ profile, r.profile = some profile → profile.layout = none := by
  by_cases h : ∃ profile layout, r.profile = some profile ∧ profile.layout = some layout
  · exact .inl h
  · refine .inr fun profile hprofile => Option.eq_none_iff_forall_ne_some.2 fun layout hlayout => ?_
    exact h ⟨profile, layout, hprofile, hlayout⟩

/-- Under a `profile` with a layout: the modifiers, the keys that came up, the keys that went down.
-/
theorem passes_of_layout {r : Router} {profile : Profile} (hprofile : r.profile = some profile)
    (hlayout : profile.layout = some layout) (report : Report) :
    r.passes report now =
      let modified := r.modifiersPass layout report.modifiers
      let broken := modified.2.breakPass report
      let made := broken.2.makePass layout profile.osdCapturesKeys report now
      (modified.1 ++ broken.1 ++ made.1, { made.2 with pressed := report }) := by
  -- `passes` looks for a layout in the profile, so the profile has to be taken apart
  obtain ⟨_, _, _, _, _, _, _, _⟩ := profile
  subst hlayout
  rw [passes, hprofile]

/-- Without a layout a `report` is only remembered. -/
theorem passes_of_no_layout {r : Router}
    (h : ∀ profile, r.profile = some profile → profile.layout = none) (report : Report) :
    r.passes report now = ([], { r with pressed := report }) := by
  unfold passes
  split
  · next layout _ _ _ _ _ _ _ hprofile => exact absurd (h _ hprofile) (Option.some_ne_none layout)
  · rfl

/-- The `report` that was taken in is kept. -/
theorem passes_pressed (r : Router) (report : Report) (now : Instant) :
    (r.passes report now).2.pressed = report := by
  rcases r.layout_or_none with ⟨profile, layout, hprofile, hlayout⟩ | hnone
  · rw [passes_of_layout hprofile hlayout]
  · rw [passes_of_no_layout hnone]

/-- Taking in a `report` changes neither the settings nor the profile. -/
theorem passes_router (r : Router) (report : Report) (now : Instant) :
    (r.passes report now).2 =
      { (r.passes report now).2 with
        remap := r.remap
        menuAsRightGui := r.menuAsRightGui
        resetCombination := r.resetCombination
        profile := r.profile } := by
  rcases r.layout_or_none with ⟨profile, layout, hprofile, hlayout⟩ | hnone
  · rw [passes_of_layout hprofile hlayout]
    dsimp only
    rw [makePass_router, breakPass_router, modifiersPass_router]
  · rw [passes_of_no_layout hnone]

theorem process_router (r : Router) (report : Report) (priority : UInt8) (now : Instant) :
    (r.process report priority now).2 =
      { (r.process report priority now).2 with
        remap := r.remap
        menuAsRightGui := r.menuAsRightGui
        resetCombination := r.resetCombination
        profile := r.profile } := by
  cases hignore : r.ignores report priority with
  | true => rw [process_of_ignores hignore]
  | false =>
    rw [process_of_accepts hignore, passes_router, opened_router]

end IoController.Keyboard.Router
