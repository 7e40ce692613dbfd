import IoController.Proofs.Joystick.Switches
import IoController.Proofs.Keyboard.Routes

/-!
# Keyboard — Directions

What the emulation holds down, and which keys answer for it.

* `Router.Claims`: a key that the emulation has claimed is a cursor key, claimed for its own
  direction.  Every history keeps it.
* `Router.Bearings`: the claimed keys that are down, and the directions that a change of core left
  behind, read off the history.
* `Router.grounded_run`: a direction is held just if a claimed key is routed to it or it was left
  behind.
* `Router.moves_for_a_key_iff`: when a movement of the emulated mouse is made for a key that is
  down.
-/

namespace IoController.Keyboard

open Joystick (State Switch)

/-! ### Cursor keys -/

namespace Emulation

/-- The direction that a `key` stands for. -/
def direction? (key : UInt8) : Option State := (cursorKeys.lookup key).map Flags.single

/-- A `key` is claimed for the direction that it stands for. -/
theorem direction?_of_claimed? {e : Emulation} {key : UInt8} {d : State}
    (h : e.claimed? key = some d) : direction? key = some d := by
  rw [claimed?] at h
  exact (Option.ite_none_right_eq_some.1 h).2

/-- A key that stands for a direction is in `cursorKeys`. -/
theorem cursorKey_of_direction? {key : UInt8} {d : State} (h : direction? key = some d) {k : Switch}
    (hk : d.has k = true) : (key, k) ∈ cursorKeys := by
  obtain ⟨j, hj, rfl⟩ := Option.map_eq_some_iff.1 h
  rw [Flags.has_single] at hk
  obtain rfl : j = k := beq_iff_eq.1 hk
  obtain ⟨before, after, hkeys, -⟩ := List.lookup_eq_some_iff.1 hj
  rw [hkeys]
  exact List.mem_append_right before List.mem_cons_self

/-- The `cursorKeys` stand for directions only. -/
theorem isDirection_of_mem_cursorKeys {key : UInt8} {k : Switch} (h : (key, k) ∈ cursorKeys) :
    k.isDirection = true :=
  (by decide : ∀ p ∈ cursorKeys, p.2.isDirection = true) (key, k) h

/-- Every direction has a `key` of its own. -/
theorem eq_of_mem_cursorKeys {key key' : UInt8} {k : Switch} (h : (key, k) ∈ cursorKeys)
    (h' : (key', k) ∈ cursorKeys) : key = key' :=
  (by decide : ∀ p ∈ cursorKeys, ∀ q ∈ cursorKeys, p.2 = q.2 → p.1 = q.1)
    (key, k) h (key', k) h' rfl

/-- The `modifiers` are no directions. -/
theorem buttonsOf_direction (modifiers : Modifiers) {k : Switch} (h : k.isDirection = true) :
    (buttonsOf modifiers).has k = false := by
  rw [buttonsOf, Flags.has_ofList, ← Bool.not_eq_true, List.contains_iff_mem]
  intro hmem
  obtain ⟨p, hp, rfl⟩ := List.mem_map.1 hmem
  have hbutton : p.2.isDirection = false :=
    (by decide : ∀ p ∈ buttonKeys, p.2.isDirection = false) p (List.mem_filter.1 hp).1
  rw [hbutton] at h
  cases h

/-- The `modifiers` set the buttons, and no directions. -/
theorem setButtons_state (e : Emulation) (modifiers : Modifiers) (k : Switch) :
    (e.setButtons modifiers).2.2.state.has k =
      if k.isDirection then e.state.has k else (buttonsOf modifiers).has k := by
  have hstate : (e.setButtons modifiers).2.2.state =
      (e.state \ State.buttons) ∪ buttonsOf modifiers := rfl
  rw [hstate, Flags.has_union, Flags.has_sdiff, Joystick.State.has_buttons]
  cases hk : k.isDirection with
  | true => simp [buttonsOf_direction _ hk]
  | false => simp

end Emulation

/-! ### Routes -/

/-- Whether a key with this route holds the switch `k` of the emulation. -/
def Route.holds : Route → Switch → Bool
  | .emulation d, k => d.has k
  | _, _ => false

/-- Whether the emulation has claimed a key with this route. -/
def Route.isClaim : Route → Bool
  | .emulation _ => true
  | _ => false

/-- A key that holds a switch has been claimed for a direction that has it. -/
theorem Route.holds_iff {route : Route} {k : Switch} :
    route.holds k = true ↔ ∃ d, route = .emulation d ∧ d.has k = true := by
  cases route <;> simp [holds]

namespace Router

variable {layout : Layout} {captures : Bool} {now : Instant} {r r' : Router}

/-- Whether a key is down that holds the switch `k` of the emulation. -/
def holds (r : Router) (k : Switch) : Bool := r.routes.any (·.2.holds k)

/-- Whether a `report` lets go of the switch `k` of the emulation: a key that holds it is not down
any more. -/
def letsGo (r : Router) (report : Report) (k : Switch) : Bool :=
  r.routes.any fun p => p.2.holds k && !report.contains p.1

/-- Every key of `r` that the emulation has claimed is claimed for its own direction. -/
def Claims (r : Router) : Prop :=
  ∀ key d, (key, Route.emulation d) ∈ r.routes → Emulation.direction? key = some d

/-- Which keys the emulation has claimed depends on the `routes` alone. -/
theorem Claims.congr (h : r.Claims) (hroutes : r'.routes = r.routes) : r'.Claims := by
  intro key d hmem
  rw [hroutes] at hmem
  exact h key d hmem

/-- A switch that is held is a direction, and its cursor key holds it (`cursorKeys`). -/
theorem Claims.cursorKey (h : r.Claims) {p : UInt8 × Route} (hp : p ∈ r.routes) {k : Switch}
    (hk : p.2.holds k = true) : (p.1, k) ∈ Emulation.cursorKeys := by
  obtain ⟨key, route⟩ := p
  obtain ⟨d, rfl, hd⟩ := Route.holds_iff.1 hk
  exact Emulation.cursorKey_of_direction? (h key d hp) hd

theorem Claims.lookup (h : r.Claims) {key : UInt8} {k : Switch}
    (hk : ((r.routes.lookup key).getD .nowhere).holds k = true) :
    (key, k) ∈ Emulation.cursorKeys := by
  cases hlookup : r.routes.lookup key with
  | none =>
    rw [hlookup] at hk
    cases hk
  | some route =>
    rw [hlookup] at hk
    obtain ⟨before, after, hroutes, -⟩ := List.lookup_eq_some_iff.1 hlookup
    exact h.cursorKey (p := (key, route)) (by rw [hroutes]; simp) hk

/-! ### A key that comes up -/

/-- A `release` lets go of the switches that the `route` holds. -/
theorem release_state (r : Router) (route : Route) (k : Switch) :
    (r.release route).2.emulation.state.has k =
      (r.emulation.state.has k && !route.holds k) := by
  cases route with
  | emulation d => exact Flags.has_sdiff _ _ _
  | _ => simp [release, Route.holds]

/-- A `key` that comes up lets go of those that its route holds. -/
theorem breakKey_state (r : Router) (key : UInt8) (k : Switch) :
    (r.breakKey key).2.emulation.state.has k =
      (r.emulation.state.has k && !((r.routes.lookup key).getD .nowhere).holds k) :=
  release_state _ _ _

theorem Claims.breakKey (h : r.Claims) (key : UInt8) : (r.breakKey key).2.Claims := by
  intro key' d hmem
  rw [breakKey_router] at hmem
  exact h key' d (List.mem_of_mem_eraseP hmem)

/-- Among the routes of the `chosen` keys, the route of one of them comes first and the others
after. -/
theorem any_routes (routes : List (UInt8 × Route)) (chosen : UInt8 → Bool) {key : UInt8}
    (hkey : chosen key = true) (k : Switch) :
    routes.any (fun p => p.2.holds k && chosen p.1) =
      (((routes.lookup key).getD .nowhere).holds k ||
        (routes.eraseP (·.1 == key)).any fun p => p.2.holds k && chosen p.1) := by
  induction routes with
  | nil => rfl
  | cons p routes ih =>
    obtain ⟨key', route⟩ := p
    by_cases heq : key' = key
    · subst heq
      simp [hkey]
    · have hne : (key == key') = false := beq_false_of_ne (Ne.symm heq)
      rw [List.any_cons, ih, List.lookup_cons, hne,
        List.eraseP_cons_of_neg (by simpa using heq), List.any_cons]
      exact Bool.or_left_comm _ _ _

/-- No two keys hold the same direction, so that a `key` that comes up lets go of its own. -/
theorem breakKey_holds (hclaims : r.Claims) (hheld : r.heldKeys.Nodup) (key : UInt8) (k : Switch) :
    (r.breakKey key).2.holds k =
      (r.holds k && !((r.routes.lookup key).getD .nowhere).holds k) := by
  have hroutes : (r.breakKey key).2.routes = r.routes.eraseP (·.1 == key) := by
    rw [breakKey_router]
  have hsplit := @any_routes r.routes (fun _ => true) key rfl k
  simp only [Bool.and_true] at hsplit
  rw [holds, holds, hroutes, hsplit]
  cases hroute : ((r.routes.lookup key).getD .nowhere).holds k with
  | false => simp
  | true =>
    rw [Bool.true_or, Bool.not_true, Bool.and_false, List.any_eq_false]
    -- a route that is left and holds the same direction would have to be the key's own
    intro q hq hholds
    obtain rfl : q.1 = key :=
      Emulation.eq_of_mem_cursorKeys (hclaims.cursorKey (List.mem_of_mem_eraseP hq) hholds)
        (hclaims.lookup hroute)
    have hmem : q.1 ∈ (r.breakKey q.1).2.heldKeys := by
      rw [heldKeys, hroutes]
      exact List.mem_map_of_mem hq
    rw [heldKeys_breakKey] at hmem
    exact hheld.not_mem_erase hmem

/-- Whether the routes of some `keys` hold the switch `k`. -/
def heldBy (r : Router) (keys : List UInt8) (k : Switch) : Bool :=
  r.routes.any fun p => p.2.holds k && keys.contains p.1

/-- The first of some `keys` holds the switch, or one of the others does once it is up. -/
theorem heldBy_cons (hheld : r.heldKeys.Nodup) (key : UInt8) (keys : List UInt8) (k : Switch) :
    r.heldBy (key :: keys) k =
      (((r.routes.lookup key).getD .nowhere).holds k || (r.breakKey key).2.heldBy keys k) := by
  have hroutes : (r.breakKey key).2.routes = r.routes.eraseP (·.1 == key) := by
    rw [breakKey_router]
  have hfirst : (key :: keys).contains key = true := by simp
  rw [heldBy, any_routes r.routes _ hfirst k, heldBy, ← hroutes]
  refine congrArg _ (Bool.eq_iff_iff.2 ?_)
  rw [List.any_eq_true, List.any_eq_true]
  refine exists_congr fun p => and_congr_right fun hp => ?_
  have hne : p.1 ≠ key := by
    rintro rfl
    have hmem : p.1 ∈ (r.breakKey p.1).2.heldKeys := List.mem_map_of_mem hp
    rw [heldKeys_breakKey] at hmem
    exact hheld.not_mem_erase hmem
  rw [List.contains_cons, beq_false_of_ne hne, Bool.false_or]

/-- Keys that come up let go of the directions that they hold, and nothing else changes what the
emulation holds or what `keys` hold of it. -/
theorem breakKeys_held (hclaims : r.Claims) (hheld : r.heldKeys.Nodup) (keys : List UInt8)
    (k : Switch) :
    (r.forKeys breakKey keys).2.emulation.state.has k =
        (r.emulation.state.has k && !r.heldBy keys k) ∧
      (r.forKeys breakKey keys).2.holds k = (r.holds k && !r.heldBy keys k) := by
  induction keys generalizing r with
  | nil =>
    have hnone : r.heldBy [] k = false := by simp [heldBy]
    rw [hnone, Bool.not_false, Bool.and_true, Bool.and_true]
    exact ⟨rfl, rfl⟩
  | cons key keys ih =>
    have hnext : (r.breakKey key).2.heldKeys.Nodup := by
      rw [heldKeys_breakKey]
      exact hheld.erase key
    obtain ⟨hstate, hholds⟩ := ih (hclaims.breakKey key) hnext
    rw [breakKey_state] at hstate
    rw [breakKey_holds hclaims hheld] at hholds
    rw [heldBy_cons hheld, Bool.not_or, ← Bool.and_assoc, ← Bool.and_assoc]
    exact ⟨hstate, hholds⟩

/-- A `report` lets go of the directions of the keys that it does not have any more. -/
theorem breakPass_held (hclaims : r.Claims) (h : r.Matched) (report : Report) (k : Switch) :
    (r.breakPass report).2.emulation.state.has k =
        (r.emulation.state.has k && !r.letsGo report k) ∧
      (r.breakPass report).2.holds k = (r.holds k && !r.letsGo report k) := by
  have hgone : r.heldBy (r.pressed.pressed.filter fun key => !report.contains key) k =
      r.letsGo report k := by
    rw [heldBy, letsGo, Bool.eq_iff_iff, List.any_eq_true, List.any_eq_true]
    refine exists_congr fun p => and_congr_right fun hp => ?_
    have hpressed : p.1 ∈ r.pressed.pressed := h.perm.mem_iff.1 (List.mem_map_of_mem hp)
    simp [hpressed]
  -- every route is that of a pressed key, so a key that is not in the report is one that comes up
  rw [← hgone]
  exact breakKeys_held hclaims (h.perm.nodup_iff.2 h.nodup) _ k

/-! ### A key that goes down -/

/-- A `press` adds to the emulation what its route holds. -/
theorem press_state (r : Router) (key : UInt8) (k : Switch) :
    (r.press layout captures key now).2.2.emulation.state.has k =
      (r.emulation.state.has k || (r.press layout captures key now).2.1.holds k) := by
  have hecho (echo : Option UInt8) : (echo.elim Route.nowhere Route.osd).holds k = false := by
    cases echo <;> rfl
  have h := press_outcome layout captures now r key
  generalize r.press layout captures key now = p at h ⊢
  cases h with
  | claimed hclaim => exact Flags.has_union _ _ _
  | toggled hclaim hopen => exact (Bool.or_false _).symm
  | selected hclaim hselect => exact (Bool.or_false _).symm
  | captured | caps | missed => rw [hecho, Bool.or_false]
  | sent hclaim hcaps hmiss => exact (Bool.or_false _).symm

theorem press_claims (r : Router) (key : UInt8) {d : State}
    (hroute : (r.press layout captures key now).2.1 = .emulation d) :
    Emulation.direction? key = some d := by
  have hecho (echo : Option UInt8) : echo.elim Route.nowhere Route.osd ≠ .emulation d := by
    cases echo <;> exact fun h => nomatch h
  have h := press_outcome layout captures now r key
  generalize r.press layout captures key now = p at h hroute
  cases h with
  | claimed hclaim =>
    cases hroute
    rw [claimed?] at hclaim
    exact Emulation.direction?_of_claimed? (Option.ite_none_left_eq_some.1 hclaim).2
  | toggled | selected | sent => cases hroute
  | captured | caps | missed => exact absurd hroute (hecho _)

theorem Claims.makeKey (h : r.Claims) (key : UInt8) :
    (r.makeKey layout captures now key).2.Claims := by
  by_cases hroom : r.routes.length < maxKeys
  · rw [makeKey_of_room hroom]
    intro key' d hmem
    rcases List.mem_append.1 hmem with hold | hnew
    · exact h key' d hold
    · obtain ⟨rfl, hroute⟩ := Prod.mk.inj (List.mem_singleton.1 hnew)
      exact press_claims r key' hroute.symm
  · rwa [Router.makeKey, if_neg hroom]

/-- A key that goes down leaves it at that: a switch is held by a key, or it was `left`. -/
theorem makeKey_held {k : Switch} {left : Bool}
    (h : r.emulation.state.has k = (r.holds k || left)) (key : UInt8) :
    (r.makeKey layout captures now key).2.emulation.state.has k =
      ((r.makeKey layout captures now key).2.holds k || left) := by
  by_cases hroom : r.routes.length < maxKeys
  · have hpress := @press_state layout captures now r key k
    rw [makeKey_of_room hroom]
    generalize r.press layout captures key now = p at hpress ⊢
    have hholds : ({ p.2.2 with routes := r.routes ++ [(key, p.2.1)] } : Router).holds k =
        (r.holds k || p.2.1.holds k) := by simp [holds]
    rw [hholds, hpress, h, Bool.or_right_comm]
  · rwa [Router.makeKey, if_neg hroom]

/-! ### A report -/

/-- Comparing the `modifiers` leaves the directions as they are. -/
theorem modifiersPass_state (r : Router) (modifiers : Modifiers) (k : Switch) :
    (r.modifiersPass layout modifiers).2.emulation.state.has k =
      if k.isDirection then r.emulation.state.has k
      else (Emulation.buttonsOf (r.emulationButtons modifiers)).has k :=
  r.emulation.setButtons_state (r.emulationButtons modifiers) k

/-- Taking in a report: what is held besides the keys is what was `left`, less what is let go. -/
theorem passes_held (hclaims : r.Claims) (hmatched : r.Matched) {profile : Profile}
    (hprofile : r.profile = some profile) (hlayout : profile.layout = some layout) {k : Switch}
    (hk : k.isDirection = true) {left : Bool}
    (h : r.emulation.state.has k = (r.holds k || left)) (report : Report) :
    (r.passes report now).2.emulation.state.has k =
      ((r.passes report now).2.holds k || (left && !r.letsGo report k)) := by
  rw [passes_of_layout hprofile hlayout]
  dsimp only
  have hmodified := @modifiersPass_state layout r report.modifiers k
  rw [if_pos hk, h] at hmodified
  obtain ⟨hstate, hholds⟩ := breakPass_held (r := (r.modifiersPass layout report.modifiers).2)
    hclaims (hmatched.modifiersPass report.modifiers) report k
  generalize (r.modifiersPass layout report.modifiers).2.breakPass report = broken
    at hstate hholds ⊢
  have hbroken : broken.2.emulation.state.has k =
      (broken.2.holds k || (left && !r.letsGo report k)) := by
    rw [hstate, hholds, hmodified]
    exact Bool.and_or_distrib_right _ _ _
  exact forKeys_induction
    (P := fun s => s.emulation.state.has k = (s.holds k || (left && !r.letsGo report k)))
    (fun s key hs => makeKey_held hs key) _ hbroken

/-- The `passes` claim keys for their own directions only. -/
theorem Claims.passes (h : r.Claims) (report : Report) : (r.passes report now).2.Claims := by
  rcases r.layout_or_none with ⟨profile, layout, hprofile, hlayout⟩ | hnone
  · rw [passes_of_layout hprofile hlayout]
    have hbroken : ((r.modifiersPass layout report.modifiers).2.breakPass report).2.Claims :=
      forKeys_induction (fun _ key hs => hs.breakKey key) _ (h.congr rfl)
    exact (forKeys_induction (fun _ key hs => hs.makeKey key) _ hbroken : Claims _).congr rfl
  · rw [passes_of_no_layout hnone]
    exact h.congr rfl

/-- The same of a `report` that is not passed over, whether the core has a layout or not. -/
theorem process_held (hclaims : r.Claims) (htracked : r.Tracked) {report : Report}
    {priority : UInt8} (haccept : r.ignores report priority = false) {k : Switch}
    (hk : k.isDirection = true) {left : Bool}
    (h : r.emulation.state.has k = (r.holds k || left)) :
    (r.process report priority now).2.emulation.state.has k =
      ((r.process report priority now).2.holds k || (left && !r.letsGo (r.taken report) k)) := by
  have hopened := opened_router r report priority
  have hletsGo : (r.opened report priority).letsGo (r.taken report) k =
      r.letsGo (r.taken report) k := by rw [letsGo, hopened, letsGo]
  have hholds : (r.opened report priority).emulation.state.has k =
      ((r.opened report priority).holds k || left) := by
    rw [holds, hopened]
    exact h
  rw [process_of_accepts haccept, ← hletsGo]
  rcases r.layout_or_none with ⟨profile, layout, hprofile, hlayout⟩ | hnone
  · have hkept : (r.opened report priority).profile = some profile := by rw [hopened, hprofile]
    have hmatched : (r.opened report priority).Matched :=
      (htracked.opened report priority).matched profile hkept (by rw [hlayout]; rfl)
    exact passes_held (hclaims.congr (by rw [hopened])) hmatched hkept hlayout hk hholds _
  · have hnothing : (r.opened report priority).letsGo (r.taken report) k = false := by
      rw [hletsGo, letsGo, htracked.unrouted hnone]
      rfl
    rw [passes_of_no_layout (by rw [hopened]; exact hnone), hnothing, Bool.not_false, Bool.and_true]
    exact hholds

/-- Every `report` leaves the claims as they ought to be. -/
theorem Claims.process (h : r.Claims) (report : Report) (priority : UInt8) :
    (r.process report priority now).2.Claims := by
  cases hignore : r.ignores report priority with
  | true =>
    rw [process_of_ignores hignore]
    exact h
  | false =>
    have hopened : (r.opened report priority).Claims := h.congr (by rw [opened_router])
    rw [process_of_accepts hignore]
    exact hopened.passes _

/-! ### A history -/

/-- What the past tells of the directions. -/
structure Bearings where
  /-- The keys of the last report taken in that the emulation has claimed. -/
  keys : List UInt8 := []
  /-- The directions that a change of core left behind: they were held then, and since then no
  claimed key has let go of them. -/
  left : Switch → Bool := fun _ => false

namespace Bearings

/-- A report says which `keys` are down.  A change of core forgets for whom a direction is held; a
key that the new core has no route for is as claimed as it was. -/
def after (b : Bearings) (r : Router) (i : Input) : Bearings :=
  match i with
  | .report report priority _ =>
    if r.ignores report priority then b
    else
      { keys := (r.taken report).pressed.filter fun key =>
          ((r.feed i).2.routes.lookup key).elim (b.keys.contains key) Route.isClaim
        left := fun k => b.left k && !r.letsGo (r.taken report) k }
  | .adopt _ => { b with left := fun k => b.left k || r.holds k }
  | .tick _ | .osd _ => b

/-- What is told by a history that begins with the router `r`. -/
def along (b : Bearings) (r : Router) : List Input → Bearings
  | [] => b
  | i :: is => (b.after r i).along (r.feed i).2 is

end Bearings

/-- Every direction that is held in `r` is held for a key that is down, or was left behind. -/
structure Grounded (b : Bearings) (r : Router) : Prop where
  tracked : r.Tracked
  claims : r.Claims
  keys : ∀ p ∈ r.routes, p.2.isClaim = true → p.1 ∈ b.keys
  held : ∀ k : Switch, k.isDirection = true → r.emulation.state.has k = (r.holds k || b.left k)

/-- What a router is grounded in are its `routes`, the kept report, the profile and the emulation.
-/
theorem Grounded.congr {b : Bearings} (h : Grounded b r) (hroutes : r'.routes = r.routes)
    (hpressed : r'.pressed = r.pressed) (hprofile : r'.profile = r.profile)
    (hstate : r'.emulation.state = r.emulation.state) : Grounded b r' where
  tracked := h.tracked.congr hroutes hpressed hprofile
  claims := h.claims.congr hroutes
  keys := by
    rw [hroutes]
    exact h.keys
  held k hk := by
    rw [hstate, holds, hroutes]
    exact h.held k hk

theorem lookup_of_mem {routes : List (UInt8 × Route)} (h : (routes.map (·.1)).Nodup)
    {p : UInt8 × Route} (hp : p ∈ routes) : routes.lookup p.1 = some p.2 := by
  induction routes with
  | nil => exact absurd hp List.not_mem_nil
  | cons q routes ih =>
    obtain ⟨hq, hrest⟩ := List.nodup_cons.1 h
    rcases List.mem_cons.1 hp with rfl | hp
    · exact List.lookup_cons_self
    · have hne : (p.1 == q.1) = false :=
        beq_false_of_ne fun heq => hq (List.mem_map.2 ⟨p, hp, heq⟩)
      rw [List.lookup_cons, hne]
      exact ih hrest hp

/-- A `report` that is taken in leaves a router grounded in what it says. -/
theorem Grounded.process {b : Bearings} (h : Grounded b r) {report : Report} {priority : UInt8}
    (haccept : r.ignores report priority = false) (now : Instant) :
    Grounded (b.after r (.report report priority now)) (r.process report priority now).2 := by
  have htracked : (r.process report priority now).2.Tracked := h.tracked.receive report priority
  have hfeed : (r.feed (.report report priority now)).2 = (r.process report priority now).2 := rfl
  rw [Bearings.after, if_neg (by simp [haccept]), hfeed]
  refine ⟨htracked, h.claims.process report priority, fun p hp hclaim => ?_,
    fun k hk => process_held h.claims h.tracked haccept hk (h.held k hk)⟩
  have hmatched := htracked.matched_of_mem hp
  have hpressed : (r.process report priority now).2.pressed = r.taken report := by
    rw [process_of_accepts haccept, passes_pressed]
  have hdown : p.1 ∈ (r.taken report).pressed := by
    rw [← hpressed]
    exact hmatched.perm.mem_iff.1 (List.mem_map_of_mem hp)
  refine List.mem_filter.2 ⟨hdown, ?_⟩
  rw [lookup_of_mem (hmatched.perm.nodup_iff.2 hmatched.nodup) hp]
  exact hclaim

/-- As time passes nothing else is held. -/
theorem tick_held (r : Router) (now : Instant) :
    (r.tick now).2.emulation.state = r.emulation.state := by
  by_cases hvisible : r.osdVisible
  · rw [tick, if_pos hvisible]
  · rw [tick, if_neg hvisible]
    change (r.emulation.tick now).2.state = r.emulation.state
    unfold Emulation.tick
    split <;> rfl

/-- Every input leaves a router `Grounded` in what it tells. -/
theorem Grounded.feed {b : Bearings} (h : Grounded b r) (i : Input) :
    Grounded (b.after r i) (r.feed i).2 := by
  cases i with
  | report report priority now =>
    change Grounded _ (r.process report priority now).2
    cases hignore : r.ignores report priority with
    | true =>
      rw [process_of_ignores hignore, Bearings.after, if_pos hignore]
      exact h
    | false => exact h.process hignore now
  | tick now =>
    change Grounded b (r.tick now).2
    refine h.congr ?_ ?_ ?_ (tick_held r now) <;> rw [tick_router]
  | osd visible => exact h.congr rfl rfl rfl rfl
  -- the routes are forgotten, and what they held is now left behind
  | adopt profile =>
    refine ⟨h.tracked.feed (.adopt profile), fun key d hmem => absurd hmem List.not_mem_nil,
      fun p hp => absurd hp List.not_mem_nil, fun k hk => ?_⟩
    exact (h.held k hk).trans (Bool.or_comm _ _)

/-- Every history `is` leaves a router `Grounded` in what it tells. -/
theorem grounded_run {b : Bearings} (h : Grounded b r) (is : List Input) :
    Grounded (b.along r is) (r.run is).2 := by
  induction is generalizing b r with
  | nil => exact h
  | cons i is ih => exact ih (h.feed i)

theorem grounded_ofSettings (s : Settings) : Grounded {} (ofSettings s) where
  tracked := tracked_ofSettings s
  claims _ _ hmem := absurd hmem List.not_mem_nil
  keys _ hp := absurd hp List.not_mem_nil
  held k _ := Flags.has_empty k

/-! ### Movement -/

/-- Whether the emulated mouse makes a step at `now`, if a direction is held. -/
def due (r : Router) (now : Instant) : Bool :=
  !r.osdVisible && (r.emulation.mode = .mouse && r.emulation.nextStep.reached now)

/-- The emulated mouse moves at `now`. -/
def Moves (r : Router) (now : Instant) : Prop :=
  ∃ buttons dx dy, (r.tick now).1 = some (.mouse buttons dx dy)

/-- The emulated mouse `Moves` just if a step is `due` and a direction is held. -/
theorem moves_iff (r : Router) (now : Instant) :
    r.Moves now ↔ r.due now = true ∧
      ∃ k : Switch, k.isDirection = true ∧ r.emulation.state.has k = true := by
  have hmeets : r.emulation.state.meets State.directions = true ↔
      ∃ k : Switch, k.isDirection = true ∧ r.emulation.state.has k = true := by
    rw [State.meets_iff]
    exact exists_congr fun k => by rw [State.has_directions, and_comm]
  rw [← hmeets, Moves, tick, due]
  cases r.osdVisible with
  | true => simp
  | false =>
    cases hstep : decide (r.emulation.mode = .mouse) && r.emulation.nextStep.reached now with
    | false => simp [Emulation.tick, hstep]
    | true => simp [Emulation.tick, hstep]

/-- **Not every movement is for a key that is down.**  After every history a direction is held just
if a key is down that the emulation has claimed for it (`Router.holds`), or a change of core left it
behind (`Bearings.left`).  So the movement that the passing of time brings (`Moves`) has a claimed
key in the last report taken in (`Bearings.keys`), unless it comes `due` while there is none and a
direction was left behind. -/
theorem moves_for_a_key_iff (s : Settings) (past : List Input) (now : Instant) :
    let r := ((ofSettings s).run past).2
    let b := Bearings.along {} (ofSettings s) past
    (∀ k : Switch, k.isDirection = true →
      r.emulation.state.has k = (r.holds k || b.left k)) ∧
    ((r.Moves now → b.keys ≠ []) ↔
      (r.due now = true → (∃ k : Switch, k.isDirection = true ∧ b.left k = true) →
        b.keys ≠ [])) := by
  intro r b
  have hgrounded : Grounded b r := grounded_run (grounded_ofSettings s) past
  refine ⟨hgrounded.held, fun h hdue hleft => ?_, fun h hmoves => ?_⟩
  · obtain ⟨k, hk, hleft⟩ := hleft
    refine h ((moves_iff r now).2 ⟨hdue, k, hk, ?_⟩)
    rw [hgrounded.held k hk, hleft, Bool.or_true]
  · obtain ⟨hdue, k, hk, hhas⟩ := (moves_iff r now).1 hmoves
    rw [hgrounded.held k hk] at hhas
    rcases Bool.or_eq_true_iff.1 hhas with hholds | hleft
    · obtain ⟨p, hp, hroute⟩ := List.any_eq_true.1 hholds
      obtain ⟨d, hclaim, -⟩ := Route.holds_iff.1 hroute
      refine List.ne_nil_of_mem (hgrounded.keys p hp ?_)
      rw [hclaim]
      rfl
    · exact h hdue ⟨k, hk, hleft⟩

/-- On the Minimig the mouse is selected, and right is pressed and held while the core changes. -/
def heldOver : List Input :=
  [.adopt Core.minimig1.profile?, .report (.ofKeys ∅ [0x6c]) 0 0,
    .report (.ofKeys ∅ [0x4f]) 0 1000, .adopt Core.atariSt.profile?]

/-- Right comes up, and the mouse goes on moving to the right. -/
theorem moves_for_no_key :
    let before := ((ofSettings {}).run heldOver).2
    before.ignores {} 0 = false ∧ (before.taken {}).pressed = [] ∧
      ((before.receive {} 0 2000).2.tick 20000).1 = some (.mouse 0 1 0) ∧
      (Bearings.along {} (ofSettings {}) (heldOver ++ [.report {} 0 2000])).keys = [] := by
  decide +kernel

end Router

end IoController.Keyboard
