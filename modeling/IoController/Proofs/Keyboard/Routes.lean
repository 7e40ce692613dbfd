import IoController.Proofs.Keyboard.History
import IoController.Proofs.Keyboard.Passes
import Mathlib.Data.List.Nodup
import Mathlib.Data.List.Perm.Lattice

/-!
# Keyboard — Routes

Every key that is down has its route, and there is always room for one more event.

* `Router.Tracked`: under a profile with a layout the routes are those of the pressed keys, one
  each; under any other there are none.  Every history keeps it (`Router.tracked_run`).
* `Router.process_length_le`: a report makes at most `maxEvents` events happen.
* `Router.nothing_lost`: no event of a report is dropped, no key goes down without room for its
  route, and the routes are exactly those of the keys that are kept.
-/

namespace IoController.Keyboard

/-! ### The keys of a report -/

/-- A report has at most `maxKeys` keys. -/
theorem Report.pressed_length_le (r : Report) : r.pressed.length ≤ maxKeys := by
  calc r.pressed.length ≤ r.keys.toList.length := List.length_filter_le _ _
    _ = maxKeys := r.keys.length_toList

/-- Its keys are what stands in a place that is not empty. -/
theorem Report.mem_pressed {r : Report} {key : UInt8} :
    key ∈ r.pressed ↔ key ≠ 0 ∧ key ∈ r.keys.toList := by
  rw [Report.pressed, List.mem_filter, and_comm]
  simp

/-- `dedup` empties every place whose key stands in one before it. -/
theorem Report.getElem_dedup (r : Report) {i : Nat} (hi : i < maxKeys) :
    r.dedup.keys[i] = if (r.keys.toList.take i).contains r.keys[i] then 0 else r.keys[i] := by
  simp only [dedup, Vector.getElem_ofFn, Fin.getElem_fin]

/-- After `dedup` no key stands in two places. -/
theorem Report.pressed_dedup_nodup (r : Report) : r.dedup.pressed.Nodup := by
  refine List.pairwise_filter.2 (List.pairwise_iff_getElem.2 fun i j hi hj hij hpi hpj heq => ?_)
  rw [Vector.length_toList] at hi hj
  simp only [Vector.getElem_toList, getElem_dedup, bne_iff_ne] at hpi hpj heq
  by_cases hfirst : (r.keys.toList.take i).contains r.keys[i] = true
  · exact hpi (if_pos hfirst)
  · by_cases hsecond : (r.keys.toList.take j).contains r.keys[j] = true
    · exact hpj (if_pos hsecond)
    · rw [if_neg hfirst, if_neg hsecond] at heq
      -- the earlier place is among those that the later one was compared with
      refine hsecond (List.contains_iff_mem.2 (List.mem_take_iff_getElem.2 ⟨i, ?_, ?_⟩))
      · rw [Vector.length_toList]
        exact Nat.lt_min.2 ⟨hij, hi⟩
      · rw [Vector.getElem_toList, heq]

namespace Router

variable {layout : Layout} {captures : Bool} {now : Instant}

/-! ### The keys that have a route -/

/-- The keys that have a route in `r`, each as often as it has one. -/
def heldKeys (r : Router) : List UInt8 := r.routes.map (·.1)

theorem length_heldKeys (r : Router) : r.heldKeys.length = r.routes.length := List.length_map _

/-- A `key` that comes up loses a route. -/
theorem heldKeys_breakKey (r : Router) (key : UInt8) :
    (r.breakKey key).2.heldKeys = r.heldKeys.erase key := by
  rw [breakKey_router, heldKeys, heldKeys, List.erase_eq_eraseP, List.eraseP_map]
  refine congrArg (fun p => (r.routes.eraseP p).map _) (funext fun p => ?_)
  exact Bool.beq_comm

/-- The `keys` that come up lose a route each. -/
theorem heldKeys_breakKeys (r : Router) (keys : List UInt8) :
    (r.forKeys breakKey keys).2.heldKeys = r.heldKeys.diff keys := by
  induction keys generalizing r with
  | nil => exact (List.diff_nil _).symm
  | cons key keys ih =>
    calc ((r.breakKey key).2.forKeys breakKey keys).2.heldKeys
        = (r.breakKey key).2.heldKeys.diff keys := ih _
      _ = r.heldKeys.diff (key :: keys) := by rw [heldKeys_breakKey, List.diff_cons]

/-- A `key` that goes down gets a route, if there is room for it. -/
theorem heldKeys_makeKey (layout : Layout) (captures : Bool) (now : Instant) {r : Router}
    (h : r.heldKeys.length < maxKeys) (key : UInt8) :
    (r.makeKey layout captures now key).2.heldKeys = r.heldKeys ++ [key] := by
  rw [length_heldKeys] at h
  rw [makeKey_of_room h]
  exact List.map_append

/-- The routers at which a `pass` comes to the keys of a list, each with its key. -/
def visits (pass : Router → UInt8 → List Event × Router) (r : Router) :
    List UInt8 → List (Router × UInt8)
  | [] => []
  | key :: keys => (r, key) :: visits pass (pass r key).2 keys

/-- The `keys` that go down get a route each, if there is room for all of them; then there is room
at every single one. -/
theorem heldKeys_makeKeys (layout : Layout) (captures : Bool) (now : Instant) {r : Router}
    {keys : List UInt8} (h : (r.heldKeys ++ keys).length ≤ maxKeys) :
    (r.forKeys (makeKey layout captures now) keys).2.heldKeys = r.heldKeys ++ keys ∧
      ∀ v ∈ r.visits (makeKey layout captures now) keys, v.1.routes.length < maxKeys := by
  induction keys generalizing r with
  | nil => exact ⟨(List.append_nil _).symm, by simp [visits]⟩
  | cons key keys ih =>
    have hroom : r.heldKeys.length < maxKeys := by
      rw [List.length_append, List.length_cons] at h
      omega
    have hnext := heldKeys_makeKey layout captures now hroom key
    obtain ⟨hkeys, hvisits⟩ := ih (r := (r.makeKey layout captures now key).2) (by
      rwa [hnext, List.append_assoc])
    refine ⟨?_, ?_⟩
    · rw [hnext, List.append_assoc] at hkeys
      exact hkeys
    · rintro v (_ | ⟨_, hv⟩)
      · rwa [← length_heldKeys]
      · exact hvisits v hv

/-! ### The routes are those of the pressed keys -/

/-- The routes of `r` are those of the pressed keys, one each, and no key is pressed twice. -/
structure Matched (r : Router) : Prop where
  perm : r.heldKeys.Perm r.pressed.pressed
  nodup : r.pressed.pressed.Nodup

/-- The keys of the last `report` that are still down keep their routes. -/
theorem heldKeys_breakPass {r : Router} (h : r.Matched) (report : Report) :
    (r.breakPass report).2.heldKeys.Perm
      (r.pressed.pressed.filter fun k => report.contains k) := by
  -- no key has two routes, so losing one is losing its only one
  have hheld : r.heldKeys.Nodup := h.perm.nodup_iff.2 h.nodup
  rw [breakPass, heldKeys_breakKeys, hheld.sdiff_eq_filter]
  refine (h.perm.filter _).trans (List.Perm.of_eq (List.filter_congr fun k hk => ?_))
  simp [hk]

/-- The keys that stay down and those that go down are the keys `new` of the report. -/
theorem stay_append_new {old new : List UInt8} (hold : old.Nodup) (hnew : new.Nodup) :
    (old.filter (fun k => new.contains k) ++ new.filter fun k => !old.contains k).Perm new := by
  refine (List.perm_ext_iff_of_nodup ?_ hnew).2 fun k => ?_
  · refine List.nodup_append'.2 ⟨hold.filter _, hnew.filter _, fun k hk hk' => ?_⟩
    have hold : k ∈ old := (List.mem_filter.1 hk).1
    have hfresh := (List.mem_filter.1 hk').2
    rw [List.contains_iff_mem.2 hold] at hfresh
    exact Bool.noConfusion hfresh
  · simp only [List.mem_append, List.mem_filter, List.contains_iff_mem, Bool.not_eq_true']
    -- whether a new key was there before says which of the two lists it is in
    by_cases hk : k ∈ old
    · simp [hk]
    · simp [hk]

/-- Comparing the `modifiers` leaves the routes. -/
theorem Matched.modifiersPass {r : Router} (h : r.Matched) (modifiers : Modifiers) :
    (r.modifiersPass layout modifiers).2.Matched := by
  rw [modifiersPass_router]
  exact ⟨h.perm, h.nodup⟩

/-- With the keys that came up gone, those that stay and those that go down are the keys of the
`report`. -/
theorem heldKeys_append_new {r : Router} (h : r.Matched) {report : Report}
    (hreport : report.pressed.Nodup) :
    ((r.breakPass report).2.heldKeys ++
        report.pressed.filter fun k => !r.pressed.contains k).Perm report.pressed :=
  ((heldKeys_breakPass h report).append_right _).trans (stay_append_new h.nodup hreport)

/-- So there is room for all those that go down. -/
theorem room_for_new {r : Router} (h : r.Matched) {report : Report}
    (hreport : report.pressed.Nodup) :
    ((r.breakPass report).2.heldKeys ++
        report.pressed.filter fun k => !r.pressed.contains k).length ≤ maxKeys :=
  (heldKeys_append_new h hreport).length_eq ▸ report.pressed_length_le

/-- The keys that come up leave the kept `report`. -/
theorem pressed_breakPass (r : Router) (report : Report) :
    (r.breakPass report).2.pressed = r.pressed := by
  rw [breakPass_router]

/-- Taking in the keys of a `report` makes the routes those of the report, and every key that goes
down finds room. -/
theorem heldKeys_makePass {r : Router} (h : r.Matched) {report : Report}
    (hreport : report.pressed.Nodup) :
    ((r.breakPass report).2.makePass layout captures report now).2.heldKeys.Perm report.pressed ∧
      ∀ v ∈ (r.breakPass report).2.visits (makeKey layout captures now)
          (report.pressed.filter fun k => !r.pressed.contains k),
        v.1.routes.length < maxKeys := by
  obtain ⟨hkeys, hvisits⟩ := heldKeys_makeKeys layout captures now (room_for_new h hreport)
  rw [makePass, pressed_breakPass, hkeys]
  exact ⟨heldKeys_append_new h hreport, hvisits⟩

/-- Under a profile with a layout the routes of `r` are those of the pressed keys; under any other
there are none. -/
structure Tracked (r : Router) : Prop where
  matched : ∀ profile, r.profile = some profile → profile.layout.isSome → r.Matched
  unrouted : (∀ profile, r.profile = some profile → profile.layout = none) → r.routes = []

/-- Under a `profile` with a layout that is to be `Matched`. -/
theorem Matched.tracked {r : Router} {profile : Profile} (h : r.Matched)
    (hprofile : r.profile = some profile) (hlayout : profile.layout = some layout) : r.Tracked where
  matched _ _ _ := h
  unrouted hnone := absurd (hnone profile hprofile) (by simp [hlayout])

/-- Under any other it is to have no `routes`. -/
theorem tracked_of_no_layout {r : Router} (hroutes : r.routes = [])
    (h : ∀ profile, r.profile = some profile → profile.layout = none) : r.Tracked where
  matched profile hprofile hlayout := by simp [h profile hprofile] at hlayout
  unrouted _ := hroutes

/-- If there is a route at all, the routes are those of the pressed keys (`Matched`). -/
theorem Tracked.matched_of_mem {r : Router} (h : r.Tracked) {p : UInt8 × Route}
    (hp : p ∈ r.routes) : r.Matched := by
  rcases r.layout_or_none with ⟨profile, layout, hprofile, hlayout⟩ | hnone
  · exact h.matched profile hprofile (by rw [hlayout]; rfl)
  · rw [h.unrouted hnone] at hp
    exact absurd hp List.not_mem_nil

/-- A router whose books are empty. -/
theorem tracked_of_empty {r : Router} (hroutes : r.routes = []) (hpressed : r.pressed = {}) :
    r.Tracked where
  matched _ _ _ := by
    have hkeys : r.pressed.pressed = [] := by rw [hpressed]; rfl
    exact ⟨by rw [heldKeys, hroutes, hkeys]; exact .refl _, by rw [hkeys]; exact List.nodup_nil⟩
  unrouted _ := hroutes

/-- The books are the `routes`, the kept report and the profile, and nothing else. -/
theorem Tracked.congr {r r' : Router} (h : r.Tracked) (hroutes : r'.routes = r.routes)
    (hpressed : r'.pressed = r.pressed) (hprofile : r'.profile = r.profile) : r'.Tracked := by
  refine ⟨fun profile hp hl => ?_, fun hnone => ?_⟩
  · rw [hprofile] at hp
    obtain ⟨hperm, hnodup⟩ := h.matched profile hp hl
    refine ⟨?_, ?_⟩
    · rwa [heldKeys, hroutes, hpressed]
    · rwa [hpressed]
  · rw [hroutes]
    rw [hprofile] at hnone
    exact h.unrouted hnone

/-- Looking for the reset combination keeps the books. -/
theorem Tracked.opened {r : Router} (h : r.Tracked) (report : Report) (priority : UInt8) :
    (r.opened report priority).Tracked := by
  rw [opened_router]
  exact h.congr rfl rfl rfl

/-- Taking in a `report` keeps the books. -/
theorem Tracked.passes {r : Router} (h : r.Tracked) {report : Report}
    (hreport : report.pressed.Nodup) : (r.passes report now).2.Tracked := by
  rcases r.layout_or_none with ⟨profile, layout, hprofile, hlayout⟩ | hnone
  · have hmatched : r.Matched := h.matched profile hprofile (by simp [hlayout])
    have hafter : (r.passes report now).2.profile = some profile := by rw [passes_router, hprofile]
    refine Matched.tracked ?_ hafter hlayout
    rw [passes_of_layout hprofile hlayout]
    exact ⟨(heldKeys_makePass (hmatched.modifiersPass report.modifiers) hreport).1, hreport⟩
  · rw [passes_of_no_layout hnone]
    exact tracked_of_no_layout (h.unrouted hnone) hnone

theorem Tracked.receive {r : Router} (h : r.Tracked) (report : Report) (priority : UInt8) :
    (r.receive report priority now).2.Tracked := by
  change (r.process report priority now).2.Tracked
  cases hignore : r.ignores report priority with
  | true => rw [process_of_ignores hignore]; exact h
  | false =>
    rw [process_of_accepts hignore]
    exact (h.opened report priority).passes (Report.pressed_dedup_nodup _)

theorem Tracked.feed {r : Router} (h : r.Tracked) (i : Input) : (r.feed i).2.Tracked := by
  cases i with
  | report report priority now => exact h.receive report priority
  | tick now =>
    change (r.tick now).2.Tracked
    rw [tick_router]
    exact h.congr rfl rfl rfl
  | osd visible => exact h.congr rfl rfl rfl
  -- what was pressed on the old core is forgotten together with its routes
  | adopt profile => exact tracked_of_empty rfl rfl

theorem tracked_ofSettings (s : Settings) : (ofSettings s).Tracked := tracked_of_empty rfl rfl

theorem tracked_run {r : Router} (h : r.Tracked) (is : List Input) : (r.run is).2.Tracked :=
  run_induction h fun _ i _ hr => hr.feed i

/-! ### Room for every event -/

theorem resetPass_length_le (r : Router) (report : Report) :
    (r.resetPass report).1.length ≤ 1 := by
  unfold resetPass
  split
  · split
    · exact Nat.zero_le 1
    · exact Nat.le_refl 1
  · split
    · exact Nat.le_refl 1
    · exact Nat.zero_le 1

/-- One event for the mouse, one for the joystick, and one for each of the `modifiers`. -/
theorem modifiersPass_length_le (r : Router) (modifiers : Modifiers) :
    (r.modifiersPass layout modifiers).1.length ≤ 10 := by
  simp only [Router.modifiersPass, List.length_append]
  have hmouse := Option.length_toList_le
    (o := (r.emulation.setButtons (r.emulationButtons modifiers)).1)
  have hjoystick := Option.length_toList_le
    (o := (r.emulation.setButtons (r.emulationButtons modifiers)).2.1)
  have hedges := List.length_filterMap_le (modifierEdge? layout r.sentModifiers
    (if r.osdVisible then r.sentModifiers ∩ modifiers
      else modifiers \ r.emulationButtons modifiers)) (List.range 8)
  rw [List.length_range] at hedges
  exact Nat.add_le_add (Nat.add_le_add hmouse hjoystick) hedges

/-- The release of a `key` goes to the core and to the OSD. -/
theorem breakKey_length_le (r : Router) (key : UInt8) : (r.breakKey key).1.length ≤ 2 := by
  unfold breakKey
  generalize (r.routes.lookup key).getD .nowhere = route
  cases route with
  | core code osd =>
    exact Nat.succ_le_succ Option.length_toList_le
  | emulation directions => exact Nat.le_succ_of_le Option.length_toList_le
  | osd code => exact Nat.le_succ 1
  | osdOpen => exact Nat.le_succ 1
  | nowhere => exact Nat.zero_le 2

/-- A `press` is told to the OSD, to the core and to an LED, or leaves a mode and sets two LEDs. -/
theorem press_length_le (r : Router) (key : UInt8) :
    (r.press layout captures key now).1.length ≤ 3 := by
  have h := press_outcome layout captures now r key
  have hecho := Option.length_toList_le (o := (r.echo? key).map Event.osdKey)
  generalize r.press layout captures key now = p at h ⊢
  cases h with
  | claimed hclaim => exact Nat.le_trans Option.length_toList_le (by decide)
  | toggled hclaim hopen => exact Nat.le_succ 2
  | selected hclaim hselect =>
    simp only [selectEmulation, List.length_append, List.length_cons, List.length_nil]
    exact Nat.add_le_add_right Option.length_toList_le 2
  | captured hclaim hselect hvisible hcaptures => exact Nat.le_trans hecho (by decide)
  | caps hclaim hcaps =>
    rw [List.length_append]
    exact Nat.add_le_add_right hecho 2
  | missed hclaim hcaps hmiss => exact Nat.le_trans hecho (by decide)
  | sent hclaim hcaps hmiss =>
    rw [List.length_append]
    exact Nat.le_succ_of_le (Nat.add_le_add_right hecho 1)

/-- A `key` that goes down makes no more happen than its press. -/
theorem makeKey_length_le (r : Router) (key : UInt8) :
    (r.makeKey layout captures now key).1.length ≤ 3 := by
  by_cases h : r.routes.length < maxKeys
  · rw [makeKey_of_room h]
    exact press_length_le r key
  · rw [makeKey, if_neg h]
    exact Nat.zero_le 3

/-- What the `passes` of a report make happen, key by key. -/
theorem passes_length_le (r : Router) (report : Report) :
    (r.passes report now).1.length ≤ 10 + 2 * maxKeys + 3 * maxKeys := by
  rcases r.layout_or_none with ⟨profile, layout, hprofile, hlayout⟩ | hnone
  · rw [passes_of_layout hprofile hlayout]
    simp only [List.length_append]
    refine Nat.add_le_add (Nat.add_le_add (modifiersPass_length_le r _) ?_) ?_
    · refine Nat.le_trans (forKeys_length_le breakKey_length_le _ _) (Nat.mul_le_mul_left 2 ?_)
      exact Nat.le_trans (List.length_filter_le _ _) (Report.pressed_length_le _)
    · refine Nat.le_trans (forKeys_length_le makeKey_length_le _ _) (Nat.mul_le_mul_left 3 ?_)
      exact Nat.le_trans (List.length_filter_le _ _) (Report.pressed_length_le _)
  · rw [passes_of_no_layout hnone]
    exact Nat.zero_le _

/-- A `report` makes at most `maxEvents` events happen. -/
theorem process_length_le (r : Router) (report : Report) (priority : UInt8) :
    (r.process report priority now).1.length ≤ maxEvents := by
  cases hignore : r.ignores report priority with
  | true =>
    rw [process_of_ignores hignore]
    exact Nat.zero_le _
  | false =>
    rw [process_of_accepts hignore, List.length_append]
    -- the reset combination, ten for the modifiers, two for a key up and three for a key down
    calc _ ≤ 1 + (10 + 2 * maxKeys + 3 * maxKeys) :=
          Nat.add_le_add (resetPass_length_le _ _) (passes_length_le _ _)
      _ ≤ maxEvents := by decide

/-- So none of the events of a `report` is dropped. -/
theorem receive_eq_process (r : Router) (report : Report) (priority : UInt8) :
    r.receive report priority now = r.process report priority now := by
  simp only [Router.receive, List.take_of_length_le (process_length_le r report priority)]

/-! ### Nothing is lost -/

/-- The routers at which the keys of a `report` go down, each with its key. -/
def pressings (r : Router) (report : Report) (priority : UInt8) (now : Instant) :
    List (Router × UInt8) :=
  match r.ignores report priority, r.profile with
  | false, some { layout := some layout, osdCapturesKeys, .. } =>
    let taken := r.taken report
    let modified := ((r.opened report priority).modifiersPass layout taken.modifiers).2
    (modified.breakPass taken).2.visits (makeKey layout osdCapturesKeys now)
      (taken.pressed.filter fun k => !modified.pressed.contains k)
  | _, _ => []

/-- Every key that goes down finds room for its route (`pressings`). -/
theorem room_of_mem_pressings {r : Router} (h : r.Tracked) {report : Report} {priority : UInt8}
    {v : Router × UInt8} (hv : v ∈ r.pressings report priority now) :
    v.1.routes.length < maxKeys := by
  unfold pressings at hv
  split at hv
  · next layout _ _ _ _ _ _ _ _ hprofile =>
    have hmatched : (r.opened report priority).Matched :=
      (h.opened report priority).matched _ (by rw [opened_router]; exact hprofile) rfl
    exact (heldKeys_makePass (hmatched.modifiersPass _) (Report.pressed_dedup_nodup _)).2 v hv
  · simp at hv

/-- Under a profile with a layout every pressed `key` has one route, and no other key has any. -/
theorem count_heldKeys {r : Router} (h : r.Matched) (key : UInt8) :
    r.heldKeys.count key = if key ≠ 0 ∧ key ∈ r.pressed.keys.toList then 1 else 0 := by
  rw [h.perm.count_eq, h.nodup.count]
  simp only [Report.mem_pressed]

/-- **Nothing is lost.**  Whatever went before, a report makes no more events happen than there is
room for (`maxEvents`), so that all of them are passed on; every key that goes down (`pressings`)
finds room for its route, before its `press` and after it; and afterwards the kept report is the
remapped one with every key in one place only (`dedup`), and under a profile with a layout each of
its keys has one route and no other key has any (`heldKeys`). -/
theorem nothing_lost (s : Settings) (inputs : List Input) (report : Report) (priority : UInt8)
    (now : Instant) :
    let r := ((ofSettings s).run inputs).2
    let after := (r.receive report priority now).2
    (r.process report priority now).1.length ≤ maxEvents ∧
    (r.receive report priority now).1 = (r.process report priority now).1 ∧
    (∀ v ∈ r.pressings report priority now, v.1.routes.length < maxKeys ∧
      ∀ layout captures, (v.1.press layout captures v.2 now).2.2.routes.length < maxKeys) ∧
    (r.ignores report priority = false → after.pressed = (s.remap.apply report).dedup) ∧
    ∀ profile, after.profile = some profile → profile.layout.isSome →
      ∀ key, after.heldKeys.count key =
        if key ≠ 0 ∧ key ∈ after.pressed.keys.toList then 1 else 0 := by
  intro r after
  have hr : r.Tracked := tracked_run (tracked_ofSettings s) inputs
  refine ⟨process_length_le r report priority, ?_, fun v hv => ?_, fun haccept => ?_,
    fun profile hprofile hlayout key => ?_⟩
  · rw [receive_eq_process]
  · have hroom := room_of_mem_pressings hr hv
    exact ⟨hroom, fun layout captures => by rwa [press_routes]⟩
  · have hremap : r.remap = s.remap := run_remap _ _
    change (r.process report priority now).2.pressed = _
    rw [process_of_accepts haccept, passes_pressed, taken, hremap]
  · exact count_heldKeys ((hr.receive report priority).matched profile hprofile hlayout) key

end Router

end IoController.Keyboard
