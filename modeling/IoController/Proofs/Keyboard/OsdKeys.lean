import IoController.Proofs.Keyboard.Capture

/-!
# Keyboard — OsdKeys

Which keys the open OSD is told of, and whether they are keys of its keyboard.

* `ordinaryCode?`: the scancode of a key of the OSD's keyboard, if the key is there to be typed.
* `typed`: the keys of a row that the OSD is told of, with their codes, read off the layouts alone.
* `Layout.SharesFlags`: a key that a core's layout leaves to the OSD is an ordinary key of its
  keyboard; only the menu key may be set up otherwise.
* `Router.makeKeys_taps`: the OSD keys that keys going down make go down are those that are typed.
* `Router.osd_keys_ordinary_iff`: each of them is an ordinary key under its own code, unless the
  menu key goes down as the right GUI key while the OSD is open.
-/

namespace IoController

/-- The code of an OSD key that goes down, the OSD's menu key apart. -/
def Event.osdTap? : Event → Option UInt8
  | .osdKey code =>
    if code < Keyboard.osdReleased ∧ code ≠ Keyboard.osdMenuKey then some code else none
  | _ => none

/-- An event that taps no key of the OSD has no such code. -/
theorem Event.osdTap?_of_not_tapsOsd {e : Event} (h : e.tapsOsd = false) : e.osdTap? = none := by
  cases e with
  | osdKey code => exact if_neg fun hcode => of_decide_eq_false h hcode.1
  | _ => rfl

theorem Event.not_tapsOsd_of_isQuiet {e : Event} (h : e.isQuiet = true) : e.tapsOsd = false := by
  cases e with
  | osdKey code => cases h
  | _ => rfl

namespace Keyboard

open Layout (menuUsage)

/-! ### What events tell the OSD -/

/-- The OSD keys that the `events` make go down, the OSD's menu key apart. -/
def osdTaps (events : List Event) : List UInt8 := events.filterMap Event.osdTap?

@[simp] theorem osdTaps_nil : osdTaps [] = [] := rfl

/-- More `events` tap their own keys after those before. -/
@[simp] theorem osdTaps_append (events rest : List Event) :
    osdTaps (events ++ rest) = osdTaps events ++ osdTaps rest := List.filterMap_append

/-- The `events` that tap no key of the OSD make none go down. -/
theorem osdTaps_eq_nil {events : List Event} (h : ∀ e ∈ events, e.tapsOsd = false) :
    osdTaps events = [] :=
  List.filterMap_eq_nil_iff.2 fun e he => Event.osdTap?_of_not_tapsOsd (h e he)

/-! ### The OSD's keyboard -/

/-- The scancode of a `key` of the OSD's keyboard.  A key that the keyboard does not have, or that
only opens the OSD or selects the emulation mode, has none. -/
def ordinaryCode? (key : UInt8) : Option UInt8 :=
  let k := Layout.amiga.lookup key false
  if k.isMiss || k.opensOsd || k.emulationSelector?.isSome then none else some k.code

/-- The OSD's menu `key` has a `code` that no key of the keyboard has. -/
theorem osdCode?_ne_menuKey {key code : UInt8} (h : osdCode? key = some code) :
    code ≠ osdMenuKey := by
  rintro rfl
  have hnone : ∀ i : Fin 256, osdCode? (UInt8.ofFin i) ≠ some osdMenuKey := by decide +kernel
  exact hnone key.toFin h

/-- The first key with the scancode `code`. -/
def keyOfCode? (code : UInt8) : Option UInt8 :=
  ((List.range 256).map UInt8.ofNat).find? fun key => ordinaryCode? key == some code

/-- A key with an `ordinaryCode?` is the only one with it. -/
theorem keyOfCode?_of_ordinary {key code : UInt8} (h : ordinaryCode? key = some code) :
    keyOfCode? code = some key := by
  -- by `Option.all`, since a bounded quantifier may be decided over every code there is
  have hkey : ∀ i : Fin 256, (ordinaryCode? (UInt8.ofFin i)).all
      (keyOfCode? · == some (UInt8.ofFin i)) = true := by decide +kernel
  exact eq_of_beq ((Option.all_eq_true _ _).1 (hkey key.toFin) code h)

/-- The `key` is the one key of the OSD's keyboard that has the scancode `code`. -/
structure IsKeyOf (key code : UInt8) : Prop where
  ordinary : ordinaryCode? key = some code
  only : ∀ other, ordinaryCode? other = some code → other = key

/-- A `key` that has a scancode is the only one with it. -/
theorem IsKeyOf.of_ordinary {key code : UInt8} (h : ordinaryCode? key = some code) :
    IsKeyOf key code where
  ordinary := h
  only _ hother := Option.some.inj
    ((keyOfCode?_of_ordinary hother).symm.trans (keyOfCode?_of_ordinary h))

/-- The menu key (`menuUsage`) only opens the OSD. -/
theorem not_isKeyOf_menuUsage (code : UInt8) : ¬ IsKeyOf menuUsage code := by
  intro h
  have hnone : ordinaryCode? menuUsage = none := by decide +kernel
  exact Option.some_ne_none code (h.ordinary.symm.trans hnone)

/-! ### What is typed -/

open Router (togglesOsd)

/-- Whether the OSD is open after `keys` went down: some of them open and close it by turns. -/
def openAfter (l : Layout) (menuAsRightGui visible : Bool) (keys : List UInt8) : Bool :=
  keys.foldl (fun visible key => visible ^^ togglesOsd l menuAsRightGui key) visible

/-- The code by which an open OSD is told of a `key`, if the key is neither one that opens and
closes it nor one that selects the emulation mode. -/
def toldCode? (l : Layout) (menuAsRightGui : Bool) (key : UInt8) : Option UInt8 :=
  if togglesOsd l menuAsRightGui key ||
      (l.lookup key menuAsRightGui).emulationSelector?.isSome then none
  else osdCode? key

/-- The keys that the OSD is told of as the keys of a row go down in the layout `l`, each with its
code. -/
def typed (l : Layout) (menuAsRightGui : Bool) : Bool → List UInt8 → List (UInt8 × UInt8)
  | _, [] => []
  | visible, key :: keys =>
    (if visible then (toldCode? l menuAsRightGui key).map (key, ·) else none).toList ++
      typed l menuAsRightGui (visible ^^ togglesOsd l menuAsRightGui key) keys

/-- A key is `typed` if the OSD is open when its turn comes, and is told of it. -/
theorem mem_typed {l : Layout} {menuAsRightGui visible : Bool} {keys : List UInt8}
    {key code : UInt8} :
    (key, code) ∈ typed l menuAsRightGui visible keys ↔
      ∃ before after, keys = before ++ key :: after ∧
        openAfter l menuAsRightGui visible before = true ∧
        toldCode? l menuAsRightGui key = some code := by
  induction keys generalizing visible with
  | nil => simp [typed]
  | cons first keys ih =>
    rw [typed, List.mem_append, ih]
    constructor
    · rintro (hfirst | ⟨before, after, rfl, hopen, hcode⟩)
      · cases visible with
        | false => cases hfirst
        | true =>
          obtain ⟨code', hcode, hpair⟩ := Option.map_eq_some_iff.1 (Option.mem_toList.1 hfirst)
          cases hpair
          exact ⟨[], keys, rfl, rfl, hcode⟩
      · exact ⟨first :: before, after, rfl, hopen, hcode⟩
    · rintro ⟨before, after, hkeys, hopen, hcode⟩
      cases before with
      | nil =>
        cases hkeys
        obtain rfl : visible = true := hopen
        exact .inl (Option.mem_toList.2 (Option.map_eq_some_iff.2 ⟨code, hcode, rfl⟩))
      | cons _ before =>
        cases hkeys
        exact .inr ⟨before, after, rfl, hopen, hcode⟩

/-- Each of the `keys` is typed at its own turn. -/
theorem typed_sublist (l : Layout) (menuAsRightGui visible : Bool) (keys : List UInt8) :
    ((typed l menuAsRightGui visible keys).map (·.1)).Sublist keys := by
  induction keys generalizing visible with
  | nil => exact .slnil
  | cons key keys ih =>
    have hown : (((if visible then (toldCode? l menuAsRightGui key).map (key, ·)
        else none).toList).map (·.1)).Sublist [key] := by
      cases visible with
      | false => exact List.nil_sublist _
      | true =>
        cases toldCode? l menuAsRightGui key with
        | none => exact List.nil_sublist _
        | some code => exact List.Sublist.refl _
    rw [typed, List.map_append]
    exact hown.append (ih _)

/-! ### The layouts -/

/-- The OSD is told of an ordinary key, or of the menu key as the right GUI key of the layout `l`.
-/
abbrev ToldOf (l : Layout) (menuAsRightGui : Bool) (key code : UInt8) : Prop :=
  ordinaryCode? key = some code ∨
    (key = menuUsage ∧ code = 0) ∧ menuAsRightGui = true ∧ l.menuAsRightGui.isSome = true

/-- The keys that the layout `l` gives to the OSD and to the emulation are those that the OSD's
keyboard gives to them, the menu key apart where it is set up as the right GUI key. -/
structure Layout.SharesFlags (l : Layout) : Prop where
  /-- The cursor keys, which the emulation may claim, do not open the OSD. -/
  cursor : ∀ menu, ∀ p ∈ Emulation.cursorKeys, togglesOsd l menu p.1 = false
  told : ∀ key menu, ∀ code ∈ toldCode? l menu key, ToldOf l menu key code
  asKey : l.menuAsRightGui.isSome = true → toldCode? l true menuUsage = some 0

namespace Layout

/-- It is enough to try every key. -/
theorem SharesFlags.of_tables {l : Layout}
    (hcursor : ∀ menu, ∀ p ∈ Emulation.cursorKeys, togglesOsd l menu p.1 = false)
    (htold : ∀ (i : Fin 256) (menu : Bool), (toldCode? l menu (UInt8.ofFin i)).all
      (fun code => ToldOf l menu (UInt8.ofFin i) code) = true)
    (hasKey : l.menuAsRightGui.isSome = true → toldCode? l true menuUsage = some 0) :
    l.SharesFlags where
  cursor := hcursor
  told key menu code hcode :=
    of_decide_eq_true ((Option.all_eq_true _ _).1 (htold key.toFin menu) code hcode)
  asKey := hasKey

theorem amiga_sharesFlags : amiga.SharesFlags :=
  .of_tables (by decide +kernel) (by decide +kernel) (by decide +kernel)

theorem atari_sharesFlags : atari.SharesFlags :=
  .of_tables (by decide +kernel) (by decide +kernel) (by decide +kernel)

theorem ps2_sharesFlags : ps2.SharesFlags :=
  .of_tables (by decide +kernel) (by decide +kernel) (by decide +kernel)

theorem archie_sharesFlags : archie.SharesFlags :=
  .of_tables (by decide +kernel) (by decide +kernel) (by decide +kernel)

/-- Every `layout` of a `core` is one of the four. -/
theorem SharesFlags.of_core {core : Core} {profile : Profile} {layout : Layout}
    (hcore : core.profile? = some profile) (hlayout : profile.layout = some layout) :
    layout.SharesFlags := by
  cases core with
  | unknown | dumb => cases hcore
  | minimig1 | minimig2 => cases hcore; cases hlayout; exact amiga_sharesFlags
  | pace => cases hcore; cases hlayout
  | atariSt => cases hcore; cases hlayout; exact atari_sharesFlags
  | generic8Bit => cases hcore; cases hlayout; exact ps2_sharesFlags
  | archimedes => cases hcore; cases hlayout; exact archie_sharesFlags

end Layout

namespace Router

variable {r : Router} {layout : Layout} {captures : Bool} {now : Instant}

/-! ### A key that goes down -/

/-- A `key` that the emulation claims is a cursor key. -/
theorem not_togglesOsd_of_claimed (h : layout.SharesFlags) {key : UInt8}
    {directions : Joystick.State} (hclaim : r.claimed? key = some directions) (menu : Bool) :
    togglesOsd layout menu key = false := by
  rw [claimed?] at hclaim
  obtain ⟨-, hclaim⟩ := Option.ite_none_left_eq_some.1 hclaim
  rw [Emulation.claimed?] at hclaim
  obtain ⟨-, hclaim⟩ := Option.ite_none_right_eq_some.1 hclaim
  obtain ⟨switch, hlookup, -⟩ := Option.map_eq_some_iff.1 hclaim
  obtain ⟨before, after, hkeys, -⟩ := List.lookup_eq_some_iff.1 hlookup
  exact h.cursor menu (key, switch) (by rw [hkeys]; simp)

/-- A `key` that the emulation does not claim opens or closes the OSD, or selects the emulation
mode; of any other an open OSD is told before the core hears of it. -/
theorem routeKey_cases (layout : Layout) (captures : Bool) (now : Instant) (r : Router)
    (key : UInt8) :
    (togglesOsd layout r.menuAsRightGui key = true ∧
        r.routeKey layout captures key now = r.toggleOsd) ∨
      togglesOsd layout r.menuAsRightGui key = false ∧
        ((∃ selector,
            (layout.lookup key r.menuAsRightGui).emulationSelector? = some selector ∧
            r.routeKey layout captures key now = r.selectEmulation selector now) ∨
          (layout.lookup key r.menuAsRightGui).emulationSelector? = none ∧
            (∃ rest, (r.routeKey layout captures key now).1 =
                ((r.echo? key).map Event.osdKey).toList ++ rest ∧
              ∀ e ∈ rest, e.tapsOsd = false) ∧
            (r.routeKey layout captures key now).2.2.osdVisible = r.osdVisible) := by
  cases htoggles : togglesOsd layout r.menuAsRightGui key with
  | true => exact .inl ⟨rfl, if_pos htoggles⟩
  | false =>
    refine .inr ⟨rfl, ?_⟩
    cases hselect : (layout.lookup key r.menuAsRightGui).emulationSelector? with
    | some selector => exact .inl ⟨selector, rfl, routeKey_of_selector htoggles hselect captures⟩
    | none =>
      refine .inr ⟨rfl, ?_⟩
      rw [togglesOsd] at htoggles
      simp only [routeKey, htoggles, hselect, Bool.false_eq_true, if_false]
      split
      · exact ⟨⟨[], (List.append_nil _).symm, fun e he => absurd he List.not_mem_nil⟩, rfl⟩
      · rw [sendKey]
        split
        · exact ⟨⟨_, rfl, by simp [Event.tapsOsd]⟩, rfl⟩
        · split
          · exact ⟨⟨[], (List.append_nil _).symm, fun e he => absurd he List.not_mem_nil⟩, rfl⟩
          · exact ⟨⟨_, rfl, by simp [Event.tapsOsd]⟩, rfl⟩

/-- A `key` that goes down opens or closes the OSD if it is one to do so. -/
theorem press_osdVisible (h : layout.SharesFlags) (r : Router) (key : UInt8) :
    (r.press layout captures key now).2.2.osdVisible =
      (r.osdVisible ^^ togglesOsd layout r.menuAsRightGui key) := by
  cases hclaim : r.claimed? key with
  | some directions =>
    rw [press, hclaim, not_togglesOsd_of_claimed h hclaim, Bool.xor_false]
  | none =>
    rw [press, hclaim]
    dsimp only
    rcases routeKey_cases layout captures now r key with ⟨htoggles, hroute⟩ |
      ⟨htoggles, ⟨selector, -, hroute⟩ | ⟨-, -, hvisible⟩⟩
    · rw [hroute, htoggles, Bool.xor_true]
      rfl
    · rw [hroute, htoggles, Bool.xor_false]
      rfl
    · rw [hvisible, htoggles, Bool.xor_false]

/-- The OSD's codes for keys (`echo?`) are those of keys that go down. -/
theorem osdTaps_echo (r : Router) (key : UInt8) :
    osdTaps ((r.echo? key).map Event.osdKey).toList = (r.echo? key).toList := by
  cases hecho : r.echo? key with
  | none => rfl
  | some code =>
    rw [echo?] at hecho
    obtain ⟨-, hcode⟩ := Option.ite_none_right_eq_some.1 hecho
    have htap : (Event.osdKey code).osdTap? = some code :=
      if_pos ⟨osdCode?_lt hcode, osdCode?_ne_menuKey hcode⟩
    exact List.filterMap_cons_some htap

/-- An open OSD is told of the `key` that goes down, and a closed one is not. -/
theorem press_taps (layout : Layout) (captures : Bool) (now : Instant) (r : Router)
    (key : UInt8) :
    osdTaps (r.press layout captures key now).1 =
      (if r.osdVisible then toldCode? layout r.menuAsRightGui key else none).toList := by
  cases hclaim : r.claimed? key with
  | some directions =>
    rw [press, hclaim]
    have hclosed : ¬ r.osdVisible = true := (Option.ite_none_left_eq_some.1 hclaim).1
    rw [if_neg hclosed]
    refine osdTaps_eq_nil fun e he => Event.not_tapsOsd_of_isQuiet ?_
    exact Emulation.stateEvent?_quiet _ e (Option.mem_toList.1 he)
  | none =>
    rw [press, hclaim, toldCode?]
    dsimp only
    rcases routeKey_cases layout captures now r key with ⟨htoggles, hroute⟩ |
      ⟨htoggles, ⟨selector, hselect, hroute⟩ | ⟨hselect, ⟨rest, hevents, hrest⟩, -⟩⟩
    · rw [hroute, htoggles, Bool.true_or, if_pos rfl, ite_self]
      rfl
    · rw [hroute, hselect, Option.isSome_some, Bool.or_true, if_pos rfl, ite_self]
      refine osdTaps_eq_nil fun e he => ?_
      rcases List.mem_append.1 he with he | he
      · exact Event.not_tapsOsd_of_isQuiet
          (Emulation.leaveEvent?_quiet _ _ e (Option.mem_toList.1 he))
      · rcases List.mem_pair.1 he with rfl | rfl <;> rfl
    · rw [hevents, osdTaps_append, osdTaps_echo, osdTaps_eq_nil hrest, List.append_nil, htoggles,
        hselect]
      rfl

/-- The OSD keys that `keys` going down make go down are those that are `typed`. -/
theorem makeKeys_taps (h : layout.SharesFlags) {keys : List UInt8}
    (hroom : (r.heldKeys ++ keys).length ≤ maxKeys) :
    osdTaps (r.forKeys (makeKey layout captures now) keys).1 =
      (typed layout r.menuAsRightGui r.osdVisible keys).map (·.2) := by
  induction keys generalizing r with
  | nil => rfl
  | cons key keys ih =>
    have hfree : r.heldKeys.length < maxKeys := by
      rw [List.length_append, List.length_cons] at hroom
      omega
    have hmake := @makeKey_of_room layout captures now r (length_heldKeys r ▸ hfree) key
    have hrest := ih (r := (r.makeKey layout captures now key).2) (by
      rwa [heldKeys_makeKey layout captures now hfree, List.append_assoc])
    have hmenu : (r.makeKey layout captures now key).2.menuAsRightGui = r.menuAsRightGui := by
      rw [makeKey_router]
    have hvisible : (r.makeKey layout captures now key).2.osdVisible =
        (r.osdVisible ^^ togglesOsd layout r.menuAsRightGui key) := by
      rw [hmake]
      exact press_osdVisible h r key
    rw [hmenu, hvisible] at hrest
    rw [forKeys, osdTaps_append, hrest, hmake, press_taps, typed, List.map_append]
    congr 1
    cases r.osdVisible with
    | false => rfl
    | true => cases toldCode? layout r.menuAsRightGui key <;> rfl

/-! ### The other passes -/

theorem resetPass_untapped (r : Router) (report : Report) :
    osdTaps (r.resetPass report).1 = [] := by
  refine osdTaps_eq_nil fun e he => ?_
  obtain ⟨request, rfl⟩ := resetPass_events r report e he
  rfl

/-- The `modifiers` tap none. -/
theorem modifiersPass_untapped (r : Router) (modifiers : Modifiers) :
    osdTaps (r.modifiersPass layout modifiers).1 = [] := by
  obtain ⟨hmouse, hjoystick⟩ := r.emulation.setButtons_quiet (r.emulationButtons modifiers)
  refine osdTaps_eq_nil fun e he => ?_
  rcases List.mem_append.1 he with he | he
  · rcases List.mem_append.1 he with he | he
    · exact Event.not_tapsOsd_of_isQuiet (hmouse e (Option.mem_toList.1 he))
    · exact Event.not_tapsOsd_of_isQuiet (hjoystick e (Option.mem_toList.1 he))
  · obtain ⟨bit, -, hedge⟩ := List.mem_filterMap.1 he
    obtain ⟨-, hkey⟩ := Option.ite_none_left_eq_some.1 hedge
    cases hkey
    rfl

theorem breakPass_untapped (r : Router) (report : Report) :
    osdTaps (r.breakPass report).1 = [] :=
  osdTaps_eq_nil fun e he => (breakKeys_letsGo (Flags.subset_refl _) _ e he).2

/-! ### A report -/

/-- The keys of a `report` that the OSD is told of, each with its code. -/
def typed (r : Router) (report : Report) (priority : UInt8) : List (UInt8 × UInt8) :=
  match r.ignores report priority, r.profile.bind Profile.layout with
  | false, some layout =>
    Keyboard.typed layout r.menuAsRightGui r.osdVisible (r.arrivals report)
  | _, _ => []

/-- The menu key, set up as the right GUI key of a layout that has one, goes down by the `report`
while the OSD is open. -/
structure TypesMenu (r : Router) (report : Report) (priority : UInt8) : Prop where
  accepted : r.ignores report priority = false
  setUp : r.menuAsRightGui = true
  visible : ∃ layout before after, r.profile.bind Profile.layout = some layout ∧
    layout.menuAsRightGui.isSome = true ∧ r.arrivals report = before ++ menuUsage :: after ∧
    openAfter layout true r.osdVisible before = true

/-- The `passes` of a report make those OSD keys go down that are typed by its new keys. -/
theorem passes_taps (h : layout.SharesFlags) {profile : Profile}
    (hprofile : r.profile = some profile) (hlayout : profile.layout = some layout)
    (hmatched : r.Matched) {report : Report} (hreport : report.pressed.Nodup) :
    osdTaps (r.passes report now).1 =
      (Keyboard.typed layout r.menuAsRightGui r.osdVisible
        (report.pressed.filter fun k => !r.pressed.contains k)).map (·.2) := by
  let modified := (r.modifiersPass layout report.modifiers).2
  let broken := (modified.breakPass report).2
  have hrouter := breakPass_router modified report
  have hmenu : broken.menuAsRightGui = r.menuAsRightGui :=
    (congrArg Router.menuAsRightGui hrouter).trans rfl
  have hvisible : broken.osdVisible = r.osdVisible :=
    (congrArg Router.osdVisible hrouter).trans rfl
  have hpressed : broken.pressed = r.pressed := (congrArg Router.pressed hrouter).trans rfl
  have hroom : (broken.heldKeys ++
      report.pressed.filter fun k => !r.pressed.contains k).length ≤ maxKeys :=
    room_for_new (hmatched.modifiersPass report.modifiers) hreport
  rw [passes_of_layout hprofile hlayout]
  simp only [osdTaps_append, modifiersPass_untapped, breakPass_untapped, List.nil_append]
  rw [makePass, hpressed, makeKeys_taps h hroom, hmenu, hvisible]

/-- A report makes those OSD keys go down that are `typed` by it. -/
theorem receive_taps {core : Core} (hprofile : r.profile = core.profile?) (h : r.Tracked)
    (report : Report) (priority : UInt8) (now : Instant) :
    osdTaps (r.receive report priority now).1 = (r.typed report priority).map (·.2) := by
  rw [receive_eq_process, typed]
  cases hignore : r.ignores report priority with
  | true =>
    rw [process_of_ignores hignore]
    rfl
  | false =>
    rw [process_of_accepts hignore, osdTaps_append, resetPass_untapped, List.nil_append]
    rcases r.layout_or_none with ⟨profile, layout, hsome, hlayout⟩ | hnone
    · let opened : Router :=
        { r with
          lastPriority := priority, resetPending := (r.opened report priority).resetPending }
      have hopened : r.opened report priority = opened := opened_router r report priority
      have hmatched : opened.Matched := by
        have htracked : opened.Tracked := h.congr rfl rfl rfl
        exact htracked.matched profile hsome (by rw [hlayout]; rfl)
      have hpasses := @passes_taps opened layout now (.of_core (hprofile.symm.trans hsome) hlayout)
        profile hsome hlayout hmatched (r.taken report) (Report.pressed_dedup_nodup _)
      rw [hopened, hpasses, hsome, Option.bind_some, hlayout]
      rfl
    · have hbind : r.profile.bind Profile.layout = none :=
        Option.bind_eq_none_iff.2 fun profile hsome => hnone profile hsome
      have hopened : ∀ profile, (r.opened report priority).profile = some profile →
          profile.layout = none := by
        rw [opened_router]
        exact hnone
      rw [passes_of_no_layout hopened, hbind]
      rfl

/-- What a `report` types is typed by its arrivals, under the layout that there is. -/
theorem mem_typed {report : Report} {priority : UInt8} {t : UInt8 × UInt8} :
    t ∈ r.typed report priority ↔ r.ignores report priority = false ∧
      ∃ layout, r.profile.bind Profile.layout = some layout ∧
        t ∈ Keyboard.typed layout r.menuAsRightGui r.osdVisible (r.arrivals report) := by
  rw [typed]
  cases r.ignores report priority with
  | true => simp
  | false =>
    cases r.profile.bind Profile.layout with
    | none => simp
    | some layout => simp

/-- The keys that a report types are among its `arrivals`, in order. -/
theorem typed_sublist_arrivals (r : Router) (report : Report) (priority : UInt8) :
    ((r.typed report priority).map (·.1)).Sublist (r.arrivals report) := by
  rw [typed]
  split
  · exact typed_sublist _ _ _ _
  · exact List.nil_sublist _

/-- The layout is one that a `core` has. -/
theorem sharesFlags_of_bind {core : Core} (hprofile : r.profile = core.profile?)
    (hlayout : r.profile.bind Profile.layout = some layout) : layout.SharesFlags := by
  obtain ⟨profile, hsome, hlayout⟩ := Option.bind_eq_some_iff.1 hlayout
  exact .of_core (hprofile.symm.trans hsome) hlayout

/-- A key that is typed is an ordinary key (`IsKeyOf`), or it is the menu key. -/
theorem typed_ordinary {core : Core} (hprofile : r.profile = core.profile?) {report : Report}
    {priority : UInt8} {t : UInt8 × UInt8} (ht : t ∈ r.typed report priority) :
    IsKeyOf t.1 t.2 ∨ t = (menuUsage, 0) ∧ r.TypesMenu report priority := by
  obtain ⟨key, code⟩ := t
  obtain ⟨haccept, layout, hlayout, htyped⟩ := mem_typed.1 ht
  obtain ⟨before, after, harrivals, hopen, hcode⟩ := Keyboard.mem_typed.1 htyped
  rcases (sharesFlags_of_bind hprofile hlayout).told key r.menuAsRightGui code hcode with
    hordinary | ⟨⟨rfl, rfl⟩, hsetUp, hmenu⟩
  · exact .inl (.of_ordinary hordinary)
  · rw [hsetUp] at hopen
    exact .inr ⟨rfl, haccept, hsetUp, layout, before, after, hlayout, hmenu, harrivals, hopen⟩

/-- As the right GUI key the menu key is `typed` as the backquote is. -/
theorem TypesMenu.typed {core : Core} (hprofile : r.profile = core.profile?) {report : Report}
    {priority : UInt8} (h : r.TypesMenu report priority) :
    (menuUsage, 0) ∈ r.typed report priority := by
  obtain ⟨layout, before, after, hlayout, hmenu, harrivals, hopen⟩ := h.visible
  have hcode := (sharesFlags_of_bind hprofile hlayout).asKey hmenu
  refine mem_typed.2 ⟨h.accepted, layout, hlayout, ?_⟩
  rw [h.setUp]
  exact Keyboard.mem_typed.2 ⟨before, after, harrivals, hopen, hcode⟩

/-- **The OSD is told of keys that it has.**  Whatever went before under the profile of a core, the
OSD keys that a report makes go down (`osdTaps`), the OSD's menu key apart, are the keys of the
report that are `typed`: new ones, after remapping (`arrivals`), that find the OSD open when their
turn comes.  Each is the one key of the OSD's keyboard with the scancode that the OSD is told
(`IsKeyOf`), or it is the menu key under the scancode of the backquote; and all are such keys
exactly unless the menu key, set up as the right GUI key of the core's layout, goes down while the
OSD is open (`TypesMenu`). -/
theorem osd_keys_ordinary_iff (s : Settings) (inputs : List Input) {core : Core}
    (hprofile : ((ofSettings s).run inputs).2.profile = core.profile?) (report : Report)
    (priority : UInt8) (now : Instant) :
    let r := ((ofSettings s).run inputs).2
    let typed := r.typed report priority
    osdTaps (r.receive report priority now).1 = typed.map (·.2) ∧
      (typed.map (·.1)).Sublist (r.arrivals report) ∧
      (∀ t ∈ typed, IsKeyOf t.1 t.2 ∨ t = (menuUsage, 0)) ∧
      ((∀ t ∈ typed, IsKeyOf t.1 t.2) ↔ ¬ r.TypesMenu report priority) := by
  intro r typed
  refine ⟨?_, r.typed_sublist_arrivals report priority, fun t ht => ?_, fun h hmenu => ?_,
    fun hmenu t ht => ?_⟩
  · exact receive_taps hprofile (tracked_run (tracked_ofSettings s) inputs) report priority now
  · exact (typed_ordinary hprofile ht).imp_right (·.1)
  · exact not_isKeyOf_menuUsage 0 (h _ (hmenu.typed hprofile))
  · exact (typed_ordinary hprofile ht).resolve_right fun hother => hmenu hother.2

/-- A Minimig with its menu key set up as the right GUI key, and the OSD open. -/
def besideOsd : List Input := [.adopt Core.minimig2.profile?, .osd true]

/-- Q is typed, F12 closes the OSD, and the menu key after it is the Amiga's alone. -/
theorem osd_keys_ordinary_iff_closed :
    let r := ((ofSettings { menuAsRightGui := true }).run besideOsd).2
    osdTaps (r.receive (.ofKeys ∅ [0x14, 0x45, 0x65]) 0 0).1 = [0x10] ∧
      ∀ t ∈ r.typed (.ofKeys ∅ [0x14, 0x45, 0x65]) 0, IsKeyOf t.1 t.2 := by
  intro r
  have hprofile : r.profile = Core.minimig2.profile? := rfl
  obtain ⟨htaps, -, -, hordinary⟩ := osd_keys_ordinary_iff { menuAsRightGui := true } besideOsd
    hprofile (.ofKeys ∅ [0x14, 0x45, 0x65]) 0 0
  have htyped : r.typed (.ofKeys ∅ [0x14, 0x45, 0x65]) 0 = [(0x14, 0x10)] := by decide +kernel
  refine ⟨?_, hordinary.2 fun hmenu => ?_⟩
  · rw [htaps, htyped]
    rfl
  · have hmem := hmenu.typed hprofile
    rw [htyped] at hmem
    exact absurd hmem (by decide)

/-- The menu key goes down while the OSD is open.  The OSD is told of the backquote, which is not
among the keys that went down. -/
theorem menu_typed_as_backquote :
    let r := ((ofSettings { menuAsRightGui := true }).run
      [.adopt Core.generic8Bit.profile?, .osd true]).2
    osdTaps (r.receive (.ofKeys ∅ [0x65]) 0 0).1 = [0] ∧
      r.arrivals (.ofKeys ∅ [0x65]) = [0x65] ∧ ordinaryCode? 0x65 = none ∧
      ordinaryCode? 0x35 = some 0 := by
  decide +kernel

end Router

end Keyboard
end IoController
