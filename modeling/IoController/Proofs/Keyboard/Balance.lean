import IoController.Proofs.Keyboard.Layouts
import IoController.Proofs.Keyboard.Routes
import IoController.Proofs.Keyboard.Strokes

/-!
# Keyboard — Balance

Nothing comes up that did not go down, and what is down is accounted for.

* `Router.heldLines`: the keys of the core and of the OSD that are down, read off the routes and
  the modifiers that went to the core.
* `Router.Fair`: from one router to the next the events put down and let up what comes to be held
  and what ceases to be.  Every key, every pass and every report is fair (`Router.feed_fair`).
* `Router.strokes_match`: over every history on one core, at no point are there more breaks than
  makes of a key, and the difference is what is held.
-/

namespace IoController.Keyboard

/-! ### What the emulation reports is of no key -/

namespace Emulation

theorem stateEvent?_quiet (e : Emulation) : ∀ x ∈ e.stateEvent?, x.isQuiet = true := by
  intro x hx
  obtain ⟨port, -, rfl⟩ := Option.map_eq_some_iff.1 hx
  rfl

theorem leaveEvent?_quiet (e : Emulation) (old : Mode) :
    ∀ x ∈ e.leaveEvent? old, x.isQuiet = true := by
  intro x hx
  unfold leaveEvent? at hx
  split at hx
  · cases hx
  · split at hx
    · split at hx <;> cases hx
      rfl
    · split at hx
      · split at hx <;> cases hx
        rfl
      · cases hx

theorem tick_quiet (e : Emulation) (now : Instant) : ∀ x ∈ (e.tick now).1, x.isQuiet = true := by
  intro x hx
  unfold tick at hx
  split at hx
  · dsimp only at hx
    split at hx <;> cases hx
    rfl
  · cases hx

/-- The buttons that the `modifiers` hold down are no keys either. -/
theorem setButtons_quiet (e : Emulation) (modifiers : Modifiers) :
    (∀ x ∈ (e.setButtons modifiers).1, x.isQuiet = true) ∧
      ∀ x ∈ (e.setButtons modifiers).2.1, x.isQuiet = true := by
  refine ⟨fun x hx => ?_, fun x hx => ?_⟩
  · simp only [setButtons] at hx
    split at hx <;> cases hx
    rfl
  · simp only [setButtons] at hx
    split at hx
    · exact stateEvent?_quiet _ x hx
    · cases hx

end Emulation

/-! ### What is held -/

/-- What a key with this `Route` holds down. -/
def Route.lines : Route → List Line
  | .core code echo => .core code :: (echo.map Line.osd).toList
  | .osd code => [.osd code]
  | .osdOpen => [.osd osdMenuKey]
  | .emulation _ | .nowhere => []

namespace Router

variable {layout : Layout} {captures : Bool} {now : Instant}

/-- The key of the modifier `bit`, if the core has one and believes it to be down. -/
def modifierLine? (layout : Layout) (sentModifiers : Modifiers) (bit : Nat) : Option Line :=
  if sentModifiers.meets ⟨1 <<< bit.toUInt8⟩ && !(layout.modifier bit).isMiss then
    some (.core (layout.modifier bit))
  else none

/-- The keys of the core that the `sentModifiers` hold down. -/
def modifierLines (layout : Layout) (sentModifiers : Modifiers) : List Line :=
  (List.range 8).filterMap (modifierLine? layout sentModifiers)

/-- Everything that is down by the router `r`: by the routes of the keys, and by the modifiers. -/
def heldLines (r : Router) (layout : Layout) : List Line :=
  r.routes.flatMap (·.2.lines) ++ modifierLines layout r.sentModifiers

/-- How often the line `l` is held down, by routes and by modifiers. -/
theorem count_heldLines (r : Router) (layout : Layout) (l : Line) :
    (r.heldLines layout).count l =
      (r.routes.flatMap (·.2.lines)).count l + (modifierLines layout r.sentModifiers).count l :=
  List.count_append

/-- No route holds down a line that is not `Line.Regular`: a key that is never let go, or one whose
ups look like downs. -/
def Regular (r : Router) : Prop := ∀ p ∈ r.routes, ∀ l ∈ p.2.lines, l.Regular

/-- Whether the last stroke of the key `code` that is seen to make and break by turns was a make. -/
def latched (r : Router) (code : KeyCode) : Bool := code == Layout.capsLock && r.capsLock

/-- What the `events` between the routers `r` and `r'` owe: every line goes from what `r` holds to
what `r'` does, and the strokes of caps lock go by turns. -/
structure Fair (layout : Layout) (r : Router) (events : List Event) (r' : Router) : Prop where
  regular : r'.Regular
  lines : ∀ l : Line, l.Regular →
    l.Balanced ((r.heldLines layout).count l) events ((r'.heldLines layout).count l)
  caps : ∀ code : KeyCode, code.togglesCaps = true →
    Turns (r.latched code) (strokes code events) (r'.latched code)

/-- What is fair of two stretches of `events` is fair of both together. -/
theorem Fair.trans {r s t : Router} {events rest : List Event} (h : Fair layout r events s)
    (h' : Fair layout s rest t) : Fair layout r (events ++ rest) t where
  regular := h'.regular
  lines l hl := (h.lines l hl).append (h'.lines l hl)
  caps code hcode := by
    rw [strokes_append]
    exact (h.caps code hcode).append (h'.caps code hcode)

/-- Events of no key (`isQuiet`), between routers that hold the same. -/
theorem Fair.quiet {r r' : Router} {events : List Event} (h : r.Regular)
    (hevents : ∀ e ∈ events, e.isQuiet = true) (hroutes : r'.routes = r.routes)
    (hsent : r'.sentModifiers = r.sentModifiers) (hcaps : r'.capsLock = r.capsLock) :
    Fair layout r events r' where
  regular := by rwa [Regular, hroutes]
  lines l _ := by
    rw [heldLines, heldLines, hroutes, hsent]
    exact .quiet hevents
  caps code _ := by
    rw [strokes_quiet hevents, latched, latched, hcaps]
    exact .nil

/-- No events, between routers `r` and `r'` that hold the same. -/
theorem Fair.still {r r' : Router} (h : r.Regular) (hroutes : r'.routes = r.routes)
    (hsent : r'.sentModifiers = r.sentModifiers) (hcaps : r'.capsLock = r.capsLock) :
    Fair layout r [] r' :=
  .quiet h (fun _ he => absurd he List.not_mem_nil) hroutes hsent hcaps

/-! ### A key that comes up -/

/-- A `release` lets up what the `route` held down, unless it is the emulation's. -/
theorem release_events (r : Router) (route : Route) :
    (r.release route).1 = route.lines.map Line.up ∨
      route.lines = [] ∧ ∀ e ∈ (r.release route).1, e.isQuiet = true := by
  cases route with
  | core code echo =>
    refine .inl ?_
    cases echo <;> rfl
  | emulation directions =>
    refine .inr ⟨rfl, fun e he => ?_⟩
    have hevent : e ∈ (r.emulation.release directions).1 := Option.mem_toList.1 he
    exact Emulation.stateEvent?_quiet _ e hevent
  | osd code => exact .inl rfl
  | osdOpen => exact .inl rfl
  | nowhere => exact .inl rfl

/-- A `release` takes from a line as many holds as the `route` had of it. -/
theorem release_balanced (r : Router) {route : Route} (hroute : ∀ l ∈ route.lines, l.Regular)
    {l : Line} (hl : l.Regular) (n : Nat) :
    l.Balanced (n + route.lines.count l) (r.release route).1 n := by
  rcases r.release_events route with hups | ⟨hnone, hquiet⟩
  · rw [hups]
    exact .ups hl hroute
  · rw [hnone]
    exact .quiet hquiet

/-- Caps lock is never let up by a `release`. -/
theorem release_strokes (r : Router) {route : Route} (hroute : ∀ l ∈ route.lines, l.Regular)
    {code : KeyCode} (hcode : code.togglesCaps = true) :
    strokes code (r.release route).1 = [] := by
  rcases r.release_events route with hups | ⟨-, hquiet⟩
  · rw [hups]
    exact strokes_ups hcode hroute
  · exact strokes_quiet hquiet

/-- What the `routes` hold is what the first route of `key` holds and what the others do. -/
theorem count_lines_erase (routes : List (UInt8 × Route)) (key : UInt8) (l : Line) :
    (routes.flatMap (·.2.lines)).count l =
      ((routes.eraseP (·.1 == key)).flatMap (·.2.lines)).count l +
        ((routes.lookup key).getD .nowhere).lines.count l := by
  induction routes with
  | nil => rfl
  | cons p routes ih =>
    by_cases hkey : p.1 = key
    · have hlookup : (p :: routes).lookup key = some p.2 := by
        rw [List.lookup_cons, ← hkey]
        simp
      rw [hlookup, List.eraseP_cons_of_pos (by simpa using hkey), List.flatMap_cons,
        List.count_append, Nat.add_comm]
      rfl
    · have hlookup : (p :: routes).lookup key = routes.lookup key := by
        have hne : (key == p.1) = false := by simpa using Ne.symm hkey
        rw [List.lookup_cons, hne]
      rw [hlookup, List.eraseP_cons_of_neg (by simpa using hkey), List.flatMap_cons,
        List.flatMap_cons, List.count_append, List.count_append, ih, Nat.add_assoc]

/-- The route of a `key` is regular if all are. -/
theorem regular_lookup {r : Router} (h : r.Regular) (key : UInt8) :
    ∀ l ∈ ((r.routes.lookup key).getD .nowhere).lines, l.Regular := by
  intro l hl
  cases hlookup : r.routes.lookup key with
  | none =>
    rw [hlookup] at hl
    exact absurd hl List.not_mem_nil
  | some route =>
    rw [hlookup] at hl
    obtain ⟨before, after, hroutes, -⟩ := List.lookup_eq_some_iff.1 hlookup
    exact h (key, route) (by rw [hroutes]; simp) l hl

/-- A `key` that comes up lets up what its route held down. -/
theorem breakKey_fair {r : Router} (h : r.Regular) (key : UInt8) :
    Fair layout r (r.breakKey key).1 (r.breakKey key).2 := by
  have hroutes : (r.breakKey key).2.routes = r.routes.eraseP (·.1 == key) := by
    rw [breakKey_router]
  have hsent : (r.breakKey key).2.sentModifiers = r.sentModifiers := by rw [breakKey_router]
  have hroute := regular_lookup h key
  refine ⟨fun p hp => ?_, fun l hl => ?_, fun code hcode => ?_⟩
  · rw [hroutes] at hp
    exact h p (List.mem_of_mem_eraseP hp)
  · have hheld : (r.heldLines layout).count l = ((r.breakKey key).2.heldLines layout).count l +
        ((r.routes.lookup key).getD .nowhere).lines.count l := by
      rw [count_heldLines, count_heldLines, hroutes, hsent, count_lines_erase r.routes key]
      omega
    rw [hheld]
    exact release_balanced _ hroute hl _
  · have hnone : strokes code (r.breakKey key).1 = [] := release_strokes _ hroute hcode
    have hlatched : (r.breakKey key).2.latched code = r.latched code := by
      rw [latched, breakKey_router, latched]
    rw [hnone, hlatched]
    exact .nil

/-! ### A key that goes down -/

/-- The `key` under which the OSD is told of a press. -/
def echoLines (r : Router) (key : UInt8) : List Line := ((r.echo? key).map Line.osd).toList

/-- The OSD is told that the `echoLines` of the echo go down. -/
theorem echo_events (r : Router) (key : UInt8) :
    ((r.echo? key).map Event.osdKey).toList = (r.echoLines key).map Line.down := by
  rw [echoLines]
  cases r.echo? key <;> rfl

theorem echo_route (r : Router) (key : UInt8) :
    ((r.echo? key).elim Route.nowhere Route.osd).lines = r.echoLines key := by
  rw [echoLines]
  cases r.echo? key <;> rfl

theorem echo_regular (r : Router) (key : UInt8) : ∀ l ∈ r.echoLines key, l.Regular := by
  intro l hl
  obtain ⟨code, hcode, rfl⟩ := Option.map_eq_some_iff.1 (Option.mem_toList.1 hl)
  rw [echo?] at hcode
  split at hcode
  · exact osdCode?_lt hcode
  · cases hcode

/-- What a press puts down is what its route holds; of caps lock there is one stroke, which
`latched` remembers. -/
structure PressFair (r : Router) (p : List Event × Route × Router) : Prop where
  regular : ∀ l ∈ p.2.1.lines, l.Regular
  lines : ∀ l : Line, l.Regular → ∀ n, l.Balanced n p.1 (n + p.2.1.lines.count l)
  caps : ∀ code : KeyCode, code.togglesCaps = true →
    Turns (r.latched code) (strokes code p.1) (p.2.2.latched code)

/-- A press that puts down nothing. -/
theorem PressFair.quiet {r : Router} {p : List Event × Route × Router}
    (hevents : ∀ e ∈ p.1, e.isQuiet = true) (hroute : p.2.1.lines = [])
    (hcaps : p.2.2.capsLock = r.capsLock) : PressFair r p where
  regular l hl := by
    rw [hroute] at hl
    exact absurd hl List.not_mem_nil
  lines l _ n := by
    rw [hroute]
    exact .quiet hevents
  caps code _ := by
    rw [strokes_quiet hevents, latched, latched, hcaps]
    exact .nil

/-- A press that the OSD alone is told of. -/
theorem PressFair.echo (r : Router) (key : UInt8) :
    PressFair r (((r.echo? key).map .osdKey).toList, (r.echo? key).elim .nowhere .osd, r) where
  regular l hl := by
    rw [echo_route] at hl
    exact echo_regular r key l hl
  lines l hl n := by
    rw [echo_route, echo_events]
    exact .downs hl (echo_regular r key)
  caps code hcode := by
    rw [echo_events, strokes_downs hcode (echo_regular r key)]
    exact .nil

/-- The key that opens or closes the OSD (`toggleOsd`) is down until it is let go. -/
theorem PressFair.toggled (r : Router) : PressFair r r.toggleOsd := by
  have hregular : ∀ l ∈ Route.osdOpen.lines, l.Regular := by
    intro l hl
    rw [List.mem_singleton.1 hl]
    change osdMenuKey < 0x80
    decide
  have hevents : r.toggleOsd.1 = [.osdVisible !r.osdVisible] ++ Route.osdOpen.lines.map Line.down :=
    rfl
  have hquiet : ∀ e ∈ [Event.osdVisible !r.osdVisible], e.isQuiet = true := by
    intro e he
    rw [List.mem_singleton.1 he]
    rfl
  refine ⟨hregular, fun l hl n => ?_, fun code hcode => ?_⟩
  · rw [hevents]
    exact (Line.Balanced.quiet hquiet).append (.downs hl hregular)
  · rw [hevents, strokes_append, strokes_quiet hquiet, strokes_downs hcode hregular]
    exact .nil

/-- The key `Layout.capsLock` makes and breaks by turns, and no route remembers it. -/
theorem PressFair.capsLock (r : Router) (key : UInt8) :
    PressFair r (((r.echo? key).map .osdKey).toList ++
        [.key Layout.capsLock (!r.capsLock), .leds (.single .caps) (!r.capsLock)],
      (r.echo? key).elim .nowhere .osd, { r with capsLock := !r.capsLock }) := by
  have hecho := PressFair.echo r key
  refine ⟨hecho.regular, fun l hl n => (hecho.lines l hl n).append ?_, fun code hcode => ?_⟩
  · -- caps lock is no regular line, and an LED is none at all
    refine .silent fun e he => ?_
    rcases List.mem_cons.1 he with rfl | hled
    · have htoggles : Layout.capsLock.togglesCaps = true := by decide
      obtain ⟨hdown, hup⟩ := hl.ne_key htoggles (!r.capsLock)
      exact ⟨hdown.symm, hup.symm⟩
    · rw [List.mem_singleton.1 hled]
      cases l <;> exact ⟨fun h => (nomatch h), fun h => (nomatch h)⟩
  · rw [strokes_append, echo_events, strokes_downs hcode (echo_regular r key)]
    by_cases hcaps : code = Layout.capsLock
    · subst hcaps
      exact .cons .nil
    · have hlatched : ∀ s : Router, s.latched code = false := by
        intro s
        rw [latched, beq_false_of_ne hcaps, Bool.false_and]
      have hnone : strokes code [.key Layout.capsLock (!r.capsLock),
          .leds (.single .caps) (!r.capsLock)] = [] := by
        simp [strokes, Ne.symm hcaps]
      rw [hlatched, hlatched, hnone]
      exact .nil

/-- A `key` of the core is down until it is let go, for the core and for the OSD. -/
theorem PressFair.sent (r : Router) (key : UInt8) {code : KeyCode}
    (hcode : code.togglesCaps = false) :
    PressFair r (((r.echo? key).map .osdKey).toList ++ [.key code true],
      .core code (r.echo? key), r) := by
  have hregular : ∀ l ∈ [Line.core code], l.Regular := by
    intro l hl
    rw [List.mem_singleton.1 hl]
    exact hcode
  have hlines : (Route.core code (r.echo? key)).lines = [.core code] ++ r.echoLines key := rfl
  have hevents : ((r.echo? key).map Event.osdKey).toList ++ [.key code true] =
      (r.echoLines key).map Line.down ++ [Line.core code].map Line.down := by
    rw [echo_events]
    rfl
  refine ⟨fun l hl => ?_, fun l hl n => ?_, fun code' hcode' => ?_⟩
  · rcases List.mem_cons.1 hl with rfl | hecho
    · exact hcode
    · exact echo_regular r key l hecho
  · rw [hlines, hevents, List.count_append, Nat.add_comm ([Line.core code].count l),
      ← Nat.add_assoc]
    exact (Line.Balanced.downs hl (echo_regular r key)).append (.downs hl hregular)
  · rw [hevents, strokes_append, strokes_downs hcode' (echo_regular r key),
      strokes_downs hcode' hregular]
    exact .nil

theorem press_fair (hlayout : layout.OfCore) (r : Router) (key : UInt8) :
    PressFair r (r.press layout captures key now) := by
  have h := press_outcome layout captures now r key
  generalize r.press layout captures key now = p at h ⊢
  cases h with
  | claimed hclaim =>
    refine .quiet (fun e he => ?_) rfl rfl
    exact Emulation.stateEvent?_quiet _ e (Option.mem_toList.1 he)
  | toggled hclaim hopen => exact .toggled r
  | @selected selector hclaim hselect =>
    refine .quiet (fun e he => ?_) rfl rfl
    rcases List.mem_append.1 he with hleave | hleds
    · exact Emulation.leaveEvent?_quiet _ _ e (Option.mem_toList.1 hleave)
    · rcases List.mem_cons.1 hleds with rfl | hscroll
      · rfl
      · rw [List.mem_singleton.1 hscroll]
        rfl
  | captured hclaim hselect hvisible hcaptures => exact .echo r key
  | caps hclaim hcaps =>
    rw [hlayout.caps key r.menuAsRightGui hcaps]
    exact .capsLock r key
  | missed hclaim hcaps hmiss => exact .echo r key
  | sent hclaim hcaps hmiss => exact .sent r key hcaps

/-- A `key` that goes down puts down what its route holds. -/
theorem makeKey_fair (hlayout : layout.OfCore) {r : Router} (h : r.Regular) (key : UInt8) :
    Fair layout r (r.makeKey layout captures now key).1 (r.makeKey layout captures now key).2 := by
  by_cases hroom : r.routes.length < maxKeys
  · have hpress : PressFair r (r.press layout captures key now) := press_fair hlayout r key
    rw [makeKey_of_room hroom]
    generalize hp : r.press layout captures key now = p at hpress ⊢
    have hsent : p.2.2.sentModifiers = r.sentModifiers := by rw [← hp, press_router]
    refine ⟨fun q hq => ?_, fun l hl => ?_, hpress.caps⟩
    · rcases List.mem_append.1 hq with hold | hnew
      · exact h q hold
      · rw [List.mem_singleton.1 hnew]
        exact hpress.regular
    · have hheld : (heldLines { p.2.2 with routes := r.routes ++ [(key, p.2.1)] } layout).count l =
          (r.heldLines layout).count l + p.2.1.lines.count l := by
        have hlines : (r.routes ++ [(key, p.2.1)]).flatMap (·.2.lines) =
            r.routes.flatMap (·.2.lines) ++ p.2.1.lines := by
          rw [List.flatMap_append, List.flatMap_singleton]
        rw [count_heldLines, count_heldLines, hsent, hlines, List.count_append]
        exact Nat.add_right_comm _ _ _
      rw [hheld]
      exact hpress.lines l hl _
  · rw [makeKey, if_neg hroom]
    exact .quiet h (fun e he => absurd he List.not_mem_nil) rfl rfl rfl

/-! ### Passes -/

/-- What is fair of every key of a `pass` is fair of the whole pass. -/
theorem forKeys_fair {pass : Router → UInt8 → List Event × Router}
    (hpass : ∀ r key, r.Regular → Fair layout r (pass r key).1 (pass r key).2) {r : Router}
    (h : r.Regular) (keys : List UInt8) :
    Fair layout r (r.forKeys pass keys).1 (r.forKeys pass keys).2 := by
  induction keys generalizing r with
  | nil => exact .quiet h (fun e he => absurd he List.not_mem_nil) rfl rfl rfl
  | cons key keys ih =>
    have hfirst := hpass r key h
    exact hfirst.trans (ih hfirst.regular)

/-- The edge of the modifier `bit` puts its key down or lets it up. -/
theorem modifierEdge_balanced (hlayout : layout.OfCore) (sent wanted : Modifiers) (bit : Nat)
    {l : Line} (hl : l.Regular) (n : Nat) :
    l.Balanced (n + (modifierLine? layout sent bit).toList.count l)
      (modifierEdge? layout sent wanted bit).toList
      (n + (modifierLine? layout wanted bit).toList.count l) := by
  have hregular : (Line.core (layout.modifier bit)).Regular := hlayout.modifier bit
  simp only [modifierLine?, modifierEdge?]
  cases hmiss : (layout.modifier bit).isMiss with
  | true =>
    simp only [Bool.not_true, Bool.and_false, Bool.false_eq_true, ite_false, or_true, ite_true]
    exact .nil
  | false =>
    simp only [Bool.not_false, Bool.and_true, Bool.false_eq_true, or_false]
    -- what was sent, against what is wanted
    cases sent.meets ⟨1 <<< bit.toUInt8⟩ <;> cases wanted.meets ⟨1 <<< bit.toUInt8⟩
    · exact .nil
    · exact .down hl hregular
    · exact .up hl hregular
    · exact .nil

/-- The edges of several modifiers, `bits`, do so one after another. -/
theorem modifierEdges_balanced (hlayout : layout.OfCore) (sent wanted : Modifiers) {l : Line}
    (hl : l.Regular) (bits : List Nat) (n : Nat) :
    l.Balanced (n + (bits.filterMap (modifierLine? layout sent)).count l)
      (bits.filterMap (modifierEdge? layout sent wanted))
      (n + (bits.filterMap (modifierLine? layout wanted)).count l) := by
  simp only [List.filterMap_eq_flatMap_toList]
  -- bits that were compared count with what is wanted, those still to come with what was sent
  induction bits generalizing n with
  | nil => exact .nil
  | cons bit bits ih =>
    have hfirst := modifierEdge_balanced hlayout sent wanted bit hl
      (n + (bits.flatMap fun b => (modifierLine? layout sent b).toList).count l)
    have hrest := ih (n + (modifierLine? layout wanted bit).toList.count l)
    rw [Nat.add_right_comm] at hrest
    simp only [List.flatMap_cons, List.count_append, ← Nat.add_assoc]
    rw [Nat.add_right_comm n]
    exact hfirst.append hrest

theorem modifierEdges_strokes (hlayout : layout.OfCore) (sent wanted : Modifiers) {code : KeyCode}
    (hcode : code.togglesCaps = true) (bits : List Nat) :
    strokes code (bits.filterMap (modifierEdge? layout sent wanted)) = [] := by
  refine strokes_eq_nil fun e he make heq => ?_
  obtain ⟨bit, -, hedge⟩ := List.mem_filterMap.1 he
  simp only [modifierEdge?] at hedge
  split at hedge
  · cases hedge
  · have hkey := (Option.some.inj hedge).trans heq
    have hplain := hlayout.modifier bit
    rw [Layout.Plain, (Event.key.inj hkey).1, hcode] at hplain
    cases hplain

/-- Comparing the `modifiers` puts down and lets up those that changed. -/
theorem modifiersPass_fair (hlayout : layout.OfCore) {r : Router} (h : r.Regular)
    (modifiers : Modifiers) :
    Fair layout r (r.modifiersPass layout modifiers).1 (r.modifiersPass layout modifiers).2 := by
  obtain ⟨hmouse, hjoystick⟩ :=
    r.emulation.setButtons_quiet (r.emulationButtons modifiers)
  have hbuttons : ∀ e ∈ (r.emulation.setButtons (r.emulationButtons modifiers)).1.toList ++
      (r.emulation.setButtons (r.emulationButtons modifiers)).2.1.toList, e.isQuiet = true := by
    intro e he
    rcases List.mem_append.1 he with he | he
    · exact hmouse e (Option.mem_toList.1 he)
    · exact hjoystick e (Option.mem_toList.1 he)
  refine ⟨h, fun l hl => ?_, fun code hcode => ?_⟩
  · rw [count_heldLines, count_heldLines]
    exact (Line.Balanced.quiet hbuttons).append (modifierEdges_balanced hlayout _ _ hl _ _)
  · simp only [modifiersPass]
    rw [strokes_append, strokes_quiet hbuttons, modifierEdges_strokes hlayout _ _ hcode]
    exact .nil

/-- Looking for the reset combination in a `report` makes nothing but requests for a reset happen.
-/
theorem resetPass_events (r : Router) (report : Report) :
    ∀ e ∈ (r.resetPass report).1, ∃ request, e = .reset request := by
  intro e he
  unfold resetPass at he
  split at he
  · split at he
    · exact absurd he List.not_mem_nil
    · exact ⟨_, List.mem_singleton.1 he⟩
  · split at he
    · exact ⟨_, List.mem_singleton.1 he⟩
    · exact absurd he List.not_mem_nil

/-- The reset combination is no key of the core. -/
theorem resetPass_quiet (r : Router) (report : Report) :
    ∀ e ∈ (r.resetPass report).1, e.isQuiet = true := by
  intro e he
  obtain ⟨request, rfl⟩ := r.resetPass_events report e he
  rfl

/-- As time passes the emulated mouse may move. -/
theorem tick_quiet (r : Router) (now : Instant) : ∀ x ∈ (r.tick now).1, x.isQuiet = true := by
  intro x hx
  by_cases hvisible : r.osdVisible
  · rw [tick, if_pos hvisible] at hx
    cases hx
  · rw [tick, if_neg hvisible] at hx
    exact Emulation.tick_quiet _ now x hx

/-! ### A report -/

/-- What the `passes` of a report make happen is fair. -/
theorem passes_fair (hlayout : layout.OfCore) {r : Router} (h : r.Regular) {profile : Profile}
    (hprofile : r.profile = some profile) (hsome : profile.layout = some layout)
    (report : Report) : Fair layout r (r.passes report now).1 (r.passes report now).2 := by
  rw [passes_of_layout hprofile hsome]
  dsimp only
  have hmodified := modifiersPass_fair hlayout h report.modifiers
  generalize r.modifiersPass layout report.modifiers = modified at hmodified ⊢
  have hbroken : Fair layout modified.2 (modified.2.breakPass report).1
      (modified.2.breakPass report).2 :=
    forKeys_fair (fun _ key hr => breakKey_fair hr key) hmodified.regular _
  generalize modified.2.breakPass report = broken at hbroken ⊢
  have hmade : Fair layout broken.2 (broken.2.makePass layout profile.osdCapturesKeys report now).1
      (broken.2.makePass layout profile.osdCapturesKeys report now).2 :=
    forKeys_fair (fun _ key hr => makeKey_fair hlayout hr key) hbroken.regular _
  have hall := (hmodified.trans hbroken).trans hmade
  -- the kept report has no part in what is held
  exact ⟨hall.regular, hall.lines, hall.caps⟩

/-- What a `report` makes happen is fair, whether it is taken in or passed over. -/
theorem receive_fair (hlayout : layout.OfCore) {r : Router} (h : r.Regular) {profile : Profile}
    (hprofile : r.profile = some profile) (hsome : profile.layout = some layout)
    (report : Report) (priority : UInt8) :
    Fair layout r (r.receive report priority now).1 (r.receive report priority now).2 := by
  rw [receive_eq_process]
  cases hignore : r.ignores report priority with
  | true =>
    rw [process_of_ignores hignore]
    exact .still h rfl rfl rfl
  | false =>
    rw [process_of_accepts hignore]
    have hopened := opened_router r report priority
    have hreset : Fair layout r ({ r with lastPriority := priority }.resetPass report).1
        (r.opened report priority) :=
      .quiet h (resetPass_quiet _ report) (by rw [hopened]) (by rw [hopened]) (by rw [hopened])
    exact hreset.trans
      (passes_fair hlayout hreset.regular (by rw [hopened]; exact hprofile) hsome _)

/-! ### A history -/

/-- On one core, everything that an input `i` makes happen is fair. -/
theorem feed_fair (hlayout : layout.OfCore) {r : Router} (h : r.Regular) {profile : Profile}
    (hprofile : r.profile = some profile) (hsome : profile.layout = some layout) {i : Input}
    (hi : i.keepsCore = true) : Fair layout r (r.feed i).1 (r.feed i).2 := by
  cases i with
  | report report priority now => exact receive_fair hlayout h hprofile hsome report priority
  | tick now =>
    change Fair layout r (r.tick now).1.toList (r.tick now).2
    rw [tick_router]
    exact .quiet h (fun e he => r.tick_quiet now e (Option.mem_toList.1 he)) rfl rfl rfl
  | osd visible => exact .still h rfl rfl rfl
  | adopt profile => cases hi

theorem feed_profile (r : Router) {i : Input} (hi : i.keepsCore = true) :
    (r.feed i).2.profile = r.profile := by
  cases i with
  | report report priority now =>
    change (r.process report priority now).2.profile = r.profile
    rw [process_router]
  | tick now =>
    change (r.tick now).2.profile = r.profile
    rw [tick_router]
  | osd visible => rfl
  | adopt profile => cases hi

theorem run_profile {r : Router} {inputs : List Input}
    (hinputs : ∀ i ∈ inputs, i.keepsCore = true) : (r.run inputs).2.profile = r.profile :=
  run_induction (P := fun s => s.profile = r.profile) rfl fun s i hi hs =>
    (s.feed_profile (hinputs i hi)).trans hs

/-- Over the history `inputs` on one core the events are fair from beginning to end. -/
theorem run_fair (hlayout : layout.OfCore) {r : Router} (h : r.Regular) {profile : Profile}
    (hprofile : r.profile = some profile) (hsome : profile.layout = some layout)
    {inputs : List Input} (hinputs : ∀ i ∈ inputs, i.keepsCore = true) :
    Fair layout r (r.run inputs).1 (r.run inputs).2 := by
  induction inputs generalizing r with
  | nil => exact .still h rfl rfl rfl
  | cons i inputs ih =>
    have hi := hinputs i List.mem_cons_self
    have hfirst := feed_fair hlayout h hprofile hsome hi
    have hrest := ih hfirst.regular ((r.feed_profile hi).trans hprofile)
      fun j hj => hinputs j (List.mem_cons_of_mem i hj)
    exact hfirst.trans hrest

/-! ### An idle report -/

theorem modifierLines_empty (layout : Layout) : modifierLines layout ∅ = [] := by
  refine List.filterMap_eq_nil_iff.2 fun bit _ => ?_
  have hmeets : (∅ : Modifiers).meets ⟨1 <<< bit.toUInt8⟩ = false := by
    simp [Flags.meets]
  rw [modifierLine?, hmeets]
  rfl

/-- Neither remapping nor `dedup` presses a key. -/
theorem taken_pressed (r : Router) {report : Report} (h : report.pressed = []) :
    (r.taken report).pressed = [] := by
  have hzero : ∀ (i : Nat) (hi : i < maxKeys), report.keys[i] = 0 := by
    intro i hi
    by_contra hne
    have hmem : report.keys[i] ∈ report.pressed :=
      Report.mem_pressed.2 ⟨hne, by simp⟩
    rw [h] at hmem
    exact List.not_mem_nil hmem
  refine List.eq_nil_iff_forall_not_mem.2 fun key hkey => ?_
  obtain ⟨hne, hmem⟩ := Report.mem_pressed.1 hkey
  obtain ⟨i, hi, rfl⟩ := Vector.mem_iff_getElem.1 (Vector.mem_toList_iff.1 hmem)
  rw [taken, Report.getElem_dedup] at hne
  have happly : (r.remap.apply report).keys[i] = 0 := by
    simp [Remap.apply, hzero i hi]
  rw [happly] at hne
  simp at hne

/-- The keys of a `report` have no part in which modifiers go to the core. -/
theorem passes_sentModifiers {r : Router} {profile : Profile} (hprofile : r.profile = some profile)
    (hsome : profile.layout = some layout) (report : Report) :
    (r.passes report now).2.sentModifiers =
      (r.modifiersPass layout report.modifiers).2.sentModifiers := by
  rw [passes_of_layout hprofile hsome]
  dsimp only
  rw [makePass_router, breakPass_router]

/-- After a report without modifiers the core believes that none is down. -/
theorem modifiersPass_empty (r : Router) (layout : Layout) :
    (r.modifiersPass layout ∅).2.sentModifiers = ∅ := by
  have hleft : ∀ s : Modifiers, s ∩ ∅ = ∅ := fun s => congrArg Flags.mk UInt8.and_zero
  have hright : ∀ s : Modifiers, (∅ : Modifiers) \ s = ∅ :=
    fun s => congrArg Flags.mk UInt8.zero_and
  simp only [modifiersPass, hleft, hright, ite_self]

/-- After a `report` without keys that is not passed over no key has a route. -/
theorem routes_of_no_keys {r : Router} (h : r.Tracked) {report : Report} {priority : UInt8}
    (hkeys : report.pressed = []) (haccept : r.ignores report priority = false) :
    (r.receive report priority now).2.routes = [] := by
  have hafter : (r.receive report priority now).2.Tracked := h.receive report priority
  have hnone : (r.receive report priority now).2.pressed.pressed = [] := by
    rw [receive_eq_process, process_of_accepts haccept, passes_pressed]
    exact taken_pressed r hkeys
  refine List.eq_nil_iff_forall_not_mem.2 fun p hp => ?_
  have hpressed := (hafter.matched_of_mem hp).perm.mem_iff.1 (List.mem_map_of_mem hp)
  rw [hnone] at hpressed
  exact List.not_mem_nil hpressed

/-- After an idle `report` that is not passed over nothing is down. -/
theorem heldLines_idle {r : Router} (h : r.Tracked) {profile : Profile}
    (hprofile : r.profile = some profile) (hsome : profile.layout = some layout)
    {report : Report} {priority : UInt8} (hidle : report.isIdle = true)
    (haccept : r.ignores report priority = false) :
    (r.receive report priority now).2.heldLines layout = [] := by
  obtain ⟨hmodifiers, hkeys⟩ := Bool.and_eq_true_iff.1 hidle
  have hroutes : (r.receive report priority now).2.routes = [] :=
    routes_of_no_keys h (List.isEmpty_iff.1 hkeys) haccept
  have hsent : (r.receive report priority now).2.sentModifiers = ∅ := by
    have hnone : (r.taken report).modifiers = ∅ := congrArg Flags.mk (beq_iff_eq.1 hmodifiers)
    have hopened : (r.opened report priority).profile = some profile := by
      rw [opened_router]
      exact hprofile
    rw [receive_eq_process, process_of_accepts haccept, passes_sentModifiers hopened hsome, hnone]
    exact modifiersPass_empty _ layout
  rw [heldLines, hroutes, hsent, modifierLines_empty]
  rfl

/-! ### Makes and breaks match -/

/-- **Makes and breaks match.**  Over every history on one core that has a `layout`, whatever is
pressed, remapped, opened or selected in between: of every key of the core and of the OSD (each a
`Line`) there are at no point more breaks than makes (`l.up`, `l.down`), and the difference is the
number of times that the routes and the modifiers hold it down (`heldLines`), which is none after an
idle report that is not passed over; and the `strokes` of a key that the core sees make and break by
turns (`togglesCaps`) begin with a make and never repeat. -/
theorem strokes_match (s : Settings) {core : Core} {profile : Profile}
    (hprofile : core.profile? = some profile) (hsome : profile.layout = some layout)
    {inputs : List Input} (hinputs : ∀ i ∈ inputs, i.keepsCore = true) :
    let past := ((ofSettings s).adoptProfile (some profile)).run inputs
    (∀ l : Line, l.Regular →
      (∀ events, events <+: past.1 → events.count l.up ≤ events.count l.down) ∧
      past.1.count l.down = past.1.count l.up + (past.2.heldLines layout).count l) ∧
    (∀ report priority instant, report.isIdle = true → past.2.ignores report priority = false →
      ∀ l : Line, l.Regular →
        let later := past.1 ++ (past.2.receive report priority instant).1
        later.count l.down = later.count l.up) ∧
    ∀ code : KeyCode, code.togglesCaps = true →
      (false :: strokes code past.1).IsChain (· ≠ ·) := by
  intro past
  have hlayout : layout.OfCore := Core.layout_ofCore hprofile hsome
  have hregular : ((ofSettings s).adoptProfile (some profile)).Regular :=
    fun p hp => absurd hp List.not_mem_nil
  have hnone : ((ofSettings s).adoptProfile (some profile)).heldLines layout = [] :=
    (List.nil_append _).trans (modifierLines_empty layout)
  have hfair : Fair layout _ past.1 past.2 := run_fair hlayout hregular rfl hsome hinputs
  have hkept : past.2.profile = some profile := run_profile hinputs
  have hlines : ∀ l : Line, l.Regular →
      l.Balanced 0 past.1 ((past.2.heldLines layout).count l) := by
    intro l hl
    have h := hfair.lines l hl
    rwa [hnone] at h
  refine ⟨fun l hl => ⟨fun events hevents => ?_, ?_⟩, ?_, fun code hcode => ?_⟩
  · have h := (hlines l hl).before events hevents
    rwa [Nat.zero_add] at h
  · have h := (hlines l hl).total
    rwa [Nat.zero_add] at h
  · intro report priority instant hidle haccept l hl later
    have htracked : past.2.Tracked :=
      tracked_run ((tracked_ofSettings s).feed (.adopt (some profile))) inputs
    have hreport : Fair layout past.2 (past.2.receive report priority instant).1
        (past.2.receive report priority instant).2 :=
      receive_fair hlayout hfair.regular hkept hsome report priority
    have hafter : (past.2.receive report priority instant).2.heldLines layout = [] :=
      heldLines_idle htracked hkept hsome hidle haccept
    have htotal := ((hlines l hl).append (hreport.lines l hl)).total
    rw [hafter, List.count_nil, Nat.zero_add, Nat.add_zero] at htotal
    exact htotal
  · have hturns := hfair.caps code hcode
    have hoff : ((ofSettings s).adoptProfile (some profile)).latched code = false :=
      Bool.and_false _
    rw [hoff] at hturns
    exact hturns.isChain

/-- On the Minimig a key is pressed with shift and held while shift comes up. -/
def shiftedKey : List Input :=
  [.report (.ofKeys (.single .leftShift) [0x04]) 0 0, .report (.ofKeys ∅ [0x04]) 0 1000]

/-- After `shiftedKey` shift is up again and the key is still down, until an idle report. -/
theorem strokes_match_shiftedKey :
    ∃ profile, Core.minimig1.profile? = some profile ∧ profile.layout = some .amiga ∧
      (∀ i ∈ shiftedKey, i.keepsCore = true) ∧
      let past := ((ofSettings {}).adoptProfile (some profile)).run shiftedKey
      past.1 = [.key ⟨0x60⟩ true, .key ⟨0x20⟩ true, .key ⟨0x60⟩ false] ∧
      past.1.count (.key ⟨0x20⟩ true) =
        past.1.count (.key ⟨0x20⟩ false) + (past.2.heldLines .amiga).count (.core ⟨0x20⟩) := by
  have hcore : ∀ i ∈ shiftedKey, i.keepsCore = true := by decide
  refine ⟨_, rfl, rfl, hcore, ?_, ?_⟩
  · decide +kernel
  · exact ((@strokes_match .amiga {} .minimig1 _ rfl rfl _ hcore).1 (.core ⟨0x20⟩) rfl).2

end Router

end IoController.Keyboard
