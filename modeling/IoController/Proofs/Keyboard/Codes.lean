import IoController.Keyboard.KeyCode
import IoController.Proofs.Keyboard.Balance

/-!
# Keyboard — Codes

The core is told about the keys of its layout, and about no others.

* `Layout.Names`: the keys of a layout that the core has.
* `Router.RoutesNamed`: the keys that are down at the core are among them, which every pass keeps.
* `Router.receive_named`: so is every key that a report makes go down or up.
-/

namespace IoController.Keyboard

/-- The key with this `code` is in the layout, and the core has it. -/
structure Layout.Names (l : Layout) (code : KeyCode) : Prop where
  has : code.isMiss = false
  listed : (∃ usage menu, l.lookup usage menu = code) ∨ ∃ bit, l.modifier bit = code

/-- Every key of the core that goes down or up by the `events` is in the layout `l`. -/
def EventsNamed (l : Layout) (events : List Event) : Prop :=
  ∀ code make, Event.key code make ∈ events → l.Names code

namespace EventsNamed

variable {l : Layout} {events events' : List Event}

theorem append (h : EventsNamed l events) (h' : EventsNamed l events') :
    EventsNamed l (events ++ events') := fun code make hevent =>
  (List.mem_append.1 hevent).elim (h code make) (h' code make)

theorem nil : EventsNamed l [] := fun _ _ hevent => absurd hevent List.not_mem_nil

theorem none (h : ∀ code make, Event.key code make ∉ events) : EventsNamed l events :=
  fun code make hevent => absurd hevent (h code make)

/-- Events that are `isQuiet` are such. -/
theorem quiet (h : ∀ event ∈ events, event.isQuiet = true) : EventsNamed l events :=
  .none fun _ _ hevent => absurd (h _ hevent) Bool.false_ne_true

theorem key {code : KeyCode} (h : l.Names code) (make : Bool) : EventsNamed l [.key code make] := by
  intro code' make' hevent
  cases List.mem_singleton.1 hevent
  exact h

end EventsNamed

namespace Router

variable {l : Layout} {captures : Bool} {now : Instant} {r r' : Router}

/-- Every key that is down at the core is in the layout `l`. -/
def RoutesNamed (l : Layout) (r : Router) : Prop :=
  ∀ key code osd, (key, Route.core code osd) ∈ r.routes → l.Names code

/-- Which keys are down at the core depends on the `routes` alone. -/
theorem RoutesNamed.congr (h : RoutesNamed l r) (hroutes : r'.routes = r.routes) :
    RoutesNamed l r' := by
  intro key code osd hroute
  rw [hroutes] at hroute
  exact h key code osd hroute

/-! ### One key of a pass -/

/-- A `release` is of the key that was down. -/
theorem release_named (r : Router) {route : Route}
    (h : ∀ code osd, route = .core code osd → l.Names code) :
    EventsNamed l (r.release route).1 := by
  cases route with
  | core code osd =>
    refine (EventsNamed.key (h code osd rfl) false).append (.none ?_)
    cases osd <;> simp
  | emulation directions =>
    refine .quiet fun event hevent => ?_
    have hreleased : event ∈ (r.emulation.release directions).1 := Option.mem_toList.1 hevent
    exact Emulation.stateEvent?_quiet _ event hreleased
  | osd code => exact .none (by simp [release])
  | osdOpen => exact .none (by simp [release])
  | nowhere => exact .nil

theorem breakKey_named (h : RoutesNamed l r) (key : UInt8) :
    EventsNamed l (r.breakKey key).1 ∧ RoutesNamed l (r.breakKey key).2 := by
  refine ⟨release_named _ fun code osd hroute => ?_, ?_⟩
  · cases hlookup : r.routes.lookup key with
    | none =>
      rw [hlookup] at hroute
      cases hroute
    | some route =>
      rw [hlookup] at hroute
      obtain rfl : route = .core code osd := hroute
      obtain ⟨before, after, hroutes, -⟩ := List.lookup_eq_some_iff.1 hlookup
      exact h key code osd (by rw [hroutes]; simp)
  · intro key' code osd hroute
    rw [breakKey_router] at hroute
    exact h key' code osd (List.mem_of_mem_eraseP hroute)

/-- A `press` is of a key of the layout, and so is what its route holds down. -/
theorem press_named (l : Layout) (captures : Bool) (now : Instant) (r : Router) (key : UInt8) :
    EventsNamed l (r.press l captures key now).1 ∧
      ∀ code osd, (r.press l captures key now).2.1 = .core code osd → l.Names code := by
  have helim (osd : Option UInt8) {code : KeyCode} {osd' : Option UInt8}
      (hroute : osd.elim Route.nowhere Route.osd = .core code osd') : l.Names code := by
    cases osd <;> cases hroute
  have h := press_outcome l captures now r key
  generalize r.press l captures key now = p at h ⊢
  cases h with
  | claimed hclaim =>
    refine ⟨.quiet fun event hevent => ?_, fun _ _ hroute => nomatch hroute⟩
    exact Emulation.stateEvent?_quiet _ event (Option.mem_toList.1 hevent)
  | toggled hclaim hopen =>
    exact ⟨.none (by simp [toggleOsd]), fun _ _ hroute => nomatch hroute⟩
  | selected hclaim hselect =>
    refine ⟨.append (.quiet fun event hevent => ?_) (.none (by simp)),
      fun _ _ hroute => nomatch hroute⟩
    exact Emulation.leaveEvent?_quiet _ _ event (Option.mem_toList.1 hevent)
  | captured hclaim hselect hvisible hcaptures =>
    exact ⟨.none (by simp), fun _ _ hroute => helim _ hroute⟩
  | caps hclaim hcaps =>
    have hhas : (l.lookup key r.menuAsRightGui).isMiss = false := by
      refine Bool.eq_false_iff.2 fun hmiss => ?_
      rw [eq_of_beq hmiss] at hcaps
      exact absurd hcaps (by decide)
    have hkey : EventsNamed l [.key (l.lookup key r.menuAsRightGui) !r.capsLock] :=
      .key ⟨hhas, .inl ⟨_, _, rfl⟩⟩ _
    exact ⟨.append (.none (by simp)) (hkey.append (.none (by simp))),
      fun _ _ hroute => helim _ hroute⟩
  | missed hclaim hcaps hmiss => exact ⟨.none (by simp), fun _ _ hroute => helim _ hroute⟩
  | sent hclaim hcaps hmiss =>
    have hnames : l.Names (l.lookup key r.menuAsRightGui) := ⟨hmiss, .inl ⟨_, _, rfl⟩⟩
    refine ⟨.append (.none (by simp)) (.key hnames true), fun code osd hroute => ?_⟩
    cases hroute
    exact hnames

theorem makeKey_named (h : RoutesNamed l r) (key : UInt8) :
    EventsNamed l (r.makeKey l captures now key).1 ∧
      RoutesNamed l (r.makeKey l captures now key).2 := by
  by_cases hroom : r.routes.length < maxKeys
  · obtain ⟨hevents, hroute⟩ := press_named l captures now r key
    rw [makeKey_of_room hroom]
    refine ⟨hevents, fun key' code osd hmem => ?_⟩
    rcases List.mem_append.1 hmem with hold | hnew
    · exact h key' code osd hold
    · exact hroute code osd (Prod.mk.inj (List.mem_singleton.1 hnew)).2.symm
  · rw [makeKey, if_neg hroom]
    exact ⟨.nil, h⟩

/-! ### Passes -/

/-- What a `pass` does is about keys of the layout, if that holds for each of its keys. -/
theorem forKeys_named {pass : Router → UInt8 → List Event × Router}
    (hpass : ∀ r key, RoutesNamed l r → EventsNamed l (pass r key).1 ∧ RoutesNamed l (pass r key).2)
    (h : RoutesNamed l r) (keys : List UInt8) :
    EventsNamed l (r.forKeys pass keys).1 ∧ RoutesNamed l (r.forKeys pass keys).2 := by
  induction keys generalizing r with
  | nil => exact ⟨.nil, h⟩
  | cons key keys ih =>
    obtain ⟨hfirst, hnext⟩ := hpass r key h
    obtain ⟨hrest, hlast⟩ := ih hnext
    exact ⟨hfirst.append hrest, hlast⟩

/-- The `modifiers` are compared by keys of the layout. -/
theorem modifiersPass_named (r : Router) (modifiers : Modifiers) :
    EventsNamed l (r.modifiersPass l modifiers).1 := by
  obtain ⟨hmouse, hjoystick⟩ := r.emulation.setButtons_quiet (r.emulationButtons modifiers)
  refine .append (.append (.quiet fun event hevent => ?_) (.quiet fun event hevent => ?_)) ?_
  · exact hmouse event (Option.mem_toList.1 hevent)
  · exact hjoystick event (Option.mem_toList.1 hevent)
  · intro code make hevent
    obtain ⟨bit, -, hedge⟩ := List.mem_filterMap.1 hevent
    obtain ⟨hsent, hkey⟩ := Option.ite_none_left_eq_some.1 hedge
    cases hkey
    exact ⟨Bool.eq_false_iff.2 (not_or.1 hsent).2, .inr ⟨bit, rfl⟩⟩

theorem breakPass_named (h : RoutesNamed l r) (report : Report) :
    EventsNamed l (r.breakPass report).1 ∧ RoutesNamed l (r.breakPass report).2 :=
  forKeys_named (fun _ key h => breakKey_named h key) h _

theorem makePass_named (captures : Bool) (now : Instant) (h : RoutesNamed l r) (report : Report) :
    EventsNamed l (r.makePass l captures report now).1 ∧
      RoutesNamed l (r.makePass l captures report now).2 :=
  forKeys_named (fun _ key h => makeKey_named h key) h _

/-- **Only keys of the layout.**  Under a `profile` with a layout every key of the core that a
report makes go down or up is in the layout (`EventsNamed`), and so is every one that is down after
it (`RoutesNamed`). -/
theorem receive_named {profile : Profile} (hprofile : r.profile = some profile)
    (hlayout : profile.layout = some l) (h : RoutesNamed l r) (report : Report)
    (priority : UInt8) (now : Instant) :
    EventsNamed l (r.receive report priority now).1 ∧
      RoutesNamed l (r.receive report priority now).2 := by
  suffices hprocess : EventsNamed l (r.process report priority now).1 ∧
      RoutesNamed l (r.process report priority now).2 from
    ⟨fun code make hevent => hprocess.1 code make (List.mem_of_mem_take hevent), hprocess.2⟩
  cases hignore : r.ignores report priority with
  | true =>
    rw [process_of_ignores hignore]
    exact ⟨.nil, h⟩
  | false =>
    have hopened : (r.opened report priority).profile = some profile := by
      rw [opened_router]
      exact hprofile
    have hroutes : RoutesNamed l (r.opened report priority) := h.congr (by rw [opened_router])
    rw [process_of_accepts hignore, passes_of_layout hopened hlayout]
    have hmodified := (r.opened report priority).modifiersPass_named (l := l)
      (r.taken report).modifiers
    obtain ⟨hbroken, hroutes⟩ := breakPass_named (hroutes.congr rfl : RoutesNamed l
      ((r.opened report priority).modifiersPass l (r.taken report).modifiers).2) (r.taken report)
    obtain ⟨hmade, hroutes⟩ := makePass_named profile.osdCapturesKeys now hroutes
      (r.taken report)
    exact ⟨.append (.quiet (resetPass_quiet _ report)) ((hmodified.append hbroken).append hmade),
      hroutes.congr rfl⟩

end Router

/-! ### The Atari -/

/-- The `code` of each of the Atari's keys leaves room for headers. -/
theorem serial_lt_of_atari {code : KeyCode} (h : Layout.atari.Names code) (make : Bool) :
    code.serial make < 0xf6 := by
  have hcode : code.isMiss = false → code.code < 0x76 := by
    rcases h.listed with ⟨usage, menu, rfl⟩ | ⟨bit, rfl⟩
    · exact Layout.lookup_induction (P := fun k => k.isMiss = false → k.code < 0x76) (by decide)
        (by decide +kernel) (by decide) usage menu
    · exact Layout.modifier_induction (P := fun k => k.isMiss = false → k.code < 0x76) (by decide)
        (by decide +kernel) bit
  obtain ⟨hmake, hbreak⟩ := (by decide +kernel : ∀ i : Fin 256, UInt8.ofFin i < 0x76 →
    UInt8.ofFin i &&& 0x7f < 0xf6 ∧ UInt8.ofFin i ||| 0x80 < 0xf6) code.code.toFin (hcode h.has)
  cases make with
  | true => exact hmake
  | false => exact hbreak

end IoController.Keyboard
