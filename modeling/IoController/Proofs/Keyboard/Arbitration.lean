import IoController.Proofs.Keyboard.Balance

/-!
# Keyboard — Arbitration

A second keyboard that nobody touches, beside one that is used.

* `Router.Arrival`: what comes to a router from both, and from anything else.
* `Router.Unnoticed`: the router that hears of both keyboards, beside the one that hears of the
  first alone.  Until the first keyboard speaks they differ in the priority last taken in, and
  from then on in nothing.
* `Router.Unnoticed.step`, `Router.Unnoticed.run`: every arrival keeps them so.
* `Router.idle_unnoticed`: the second keyboard makes nothing happen, and changes nothing of what
  the first one does.
-/

namespace IoController.Keyboard.Router

variable {q : UInt8} {now : Instant}

/-! ### Two keyboards -/

/-- Something that comes to a router when there are two keyboards. -/
inductive Arrival where
  /-- Of the keyboard that is used, or of anything but a keyboard. -/
  | own (i : Input)
  /-- An empty report of the keyboard that nobody touches. -/
  | idle (priority : UInt8) (now : Instant)

namespace Arrival

/-- What arrives, as an `Input` of the router. -/
def input : Arrival → Input
  | own i => i
  | idle priority now => .report {} priority now

/-- What is left of an arrival without the keyboard that nobody touches. -/
def own? : Arrival → Option Input
  | own i => some i
  | idle _ _ => none

/-- The keyboard that is used goes first: its priorities are below `q` and those of the other are
not.  The core stays the same. -/
def fits (q : UInt8) : Arrival → Bool
  | own (.report _ priority _) => priority < q
  | own i => i.keepsCore
  | idle priority _ => q ≤ priority

/-- What an arrival makes happen after those in `before` when nothing is heard of the keyboard that
nobody touches. -/
def alone (r : Router) (before : List Arrival) : Arrival → List Event
  | own i => r.answer (before.filterMap own?) i
  | idle _ _ => []

end Arrival

/-! ### Before anything was pressed -/

/-- A router `r` to which no keyboard has said anything. -/
structure Untouched (r : Router) : Prop where
  pressed : r.pressed = {}
  routes : r.routes = []
  sentModifiers : r.sentModifiers = ∅
  resetPending : r.resetPending = none
  emulation : r.emulation = {}
  /-- The reset combination is one of keys. -/
  combination : ResetCombination.ofReport {} ≠ r.resetCombination

/-- A new router with a profile is `Untouched`. -/
theorem untouched_ofSettings (s : Settings) (profile : Option Profile) :
    ((ofSettings s).adoptProfile profile).Untouched where
  pressed := rfl
  routes := rfl
  sentModifiers := rfl
  resetPending := rfl
  emulation := rfl
  combination := by
    change _ ≠ ResetCombination.ofNumber s.resetCombo
    unfold ResetCombination.ofNumber
    split <;> decide

theorem taken_idle (r : Router) : r.taken {} = {} := by
  refine congrArg (Report.mk ∅) (Vector.ext fun i hi => ?_)
  have hzero : (r.remap.apply {}).keys[i] = 0 := by simp [Remap.apply]
  rw [Vector.getElem_replicate]
  exact (Report.getElem_dedup _ hi).trans (by rw [hzero, ite_self])

/-- Modifiers that stay as they were `sent` make nothing happen. -/
theorem modifierEdge_of_same (layout : Layout) (sent : Modifiers) :
    (List.range 8).filterMap (modifierEdge? layout sent sent) = [] :=
  List.filterMap_eq_nil_iff.2 fun _ _ => if_pos (.inl rfl)

namespace Untouched

variable {r : Router}

theorem setOsdVisible (h : r.Untouched) (visible : Bool) : (r.setOsdVisible visible).Untouched :=
  ⟨h.pressed, h.routes, h.sentModifiers, h.resetPending, h.emulation, h.combination⟩

theorem setPriority (h : r.Untouched) (priority : UInt8) :
    { r with lastPriority := priority }.Untouched :=
  ⟨h.pressed, h.routes, h.sentModifiers, h.resetPending, h.emulation, h.combination⟩

/-- As time passes nothing happens on a router that is `Untouched`. -/
theorem tick (h : r.Untouched) (now : Instant) : r.tick now = (none, r) := by
  have hstill : r.emulation.tick now = (none, r.emulation) := by
    rw [h.emulation]
    rfl
  rw [Router.tick, hstill, ite_self]

theorem resetPass_idle (h : r.Untouched) : r.resetPass {} = ([], r) := by
  have hheld : r.resetHeld = false := by
    rw [resetHeld, h.resetPending]
    rfl
  rw [resetPass, if_neg h.combination, hheld, ← h.resetPending]
  rfl

theorem modifiersPass_idle (h : r.Untouched) (layout : Layout) :
    r.modifiersPass layout ∅ = ([], r) := by
  have hbuttons : r.emulationButtons ∅ = ∅ := by
    rw [emulationButtons, h.emulation]
    rfl
  have hstill : r.emulation.setButtons ∅ = (none, none, r.emulation) := by
    rw [h.emulation]
    rfl
  have hwanted : (if r.osdVisible then r.sentModifiers ∩ ∅ else (∅ : Modifiers) \ ∅) =
      r.sentModifiers := by
    rw [h.sentModifiers]
    exact ite_self _
  simp only [modifiersPass, hbuttons, hstill, hwanted, modifierEdge_of_same]
  rfl

/-- The `passes` find nothing in an empty report. -/
theorem passes_idle (h : r.Untouched) (now : Instant) : r.passes {} now = ([], r) := by
  have hsame : ({ r with pressed := {} } : Router) = r := by rw [← h.pressed]
  rcases r.layout_or_none with ⟨profile, layout, hprofile, hlayout⟩ | hnone
  · have hbreaks : r.breakPass {} = ([], r) := by
      rw [breakPass, h.pressed]
      rfl
    have hmakes : r.makePass layout profile.osdCapturesKeys {} now = ([], r) := rfl
    simp only [passes_of_layout hprofile hlayout, h.modifiersPass_idle layout, hbreaks, hmakes]
    exact congrArg (Prod.mk []) hsame
  · rw [passes_of_no_layout hnone, hsame]

/-- An empty report that is taken in is remembered by its `priority` alone. -/
theorem process_idle (h : r.Untouched) {priority : UInt8}
    (haccepts : r.ignores {} priority = false) (now : Instant) :
    r.process {} priority now = ([], { r with lastPriority := priority }) := by
  have hopened := (h.setPriority priority).resetPass_idle
  rw [process_of_accepts haccepts, taken_idle, opened, hopened,
    (h.setPriority priority).passes_idle]
  rfl

end Untouched

/-! ### What arbitration looks at -/

/-- No `priority` is above 255, which is that of a router that has taken in nothing. -/
theorem priority_le (priority : UInt8) : priority ≤ 255 :=
  UInt8.le_iff_toNat_le.2 (Nat.le_of_lt_succ priority.toNat_lt)

/-- A keyboard whose `priority` is not above `r.lastPriority` is listened to. -/
theorem accepts_of_le {r : Router} {report : Report} {priority : UInt8}
    (h : priority ≤ r.lastPriority) : r.ignores report priority = false := by
  rw [ignores, decide_eq_false (UInt8.not_lt.2 h), Bool.and_false]

/-- Whether the priority taken in last is `last` or `r.lastPriority` makes no difference to a report
that is taken in with either. -/
theorem process_setPriority {r : Router} {report : Report} {last priority : UInt8}
    (h : r.ignores report priority = false)
    (h' : { r with lastPriority := last }.ignores report priority = false) :
    { r with lastPriority := last }.process report priority now =
      r.process report priority now := by
  rw [process_of_accepts h, process_of_accepts h']
  rfl

/-- The `passes` have no part in arbitration. -/
theorem passes_lastPriority (r : Router) (report : Report) (now : Instant) :
    (r.passes report now).2.lastPriority = r.lastPriority := by
  rcases r.layout_or_none with ⟨profile, layout, hprofile, hlayout⟩ | hnone
  · rw [passes_of_layout hprofile hlayout]
    dsimp only
    rw [makePass_router, breakPass_router, modifiersPass_router]
  · rw [passes_of_no_layout hnone]

/-- The `priority` of a report that is taken in is remembered. -/
theorem process_lastPriority {r : Router} {report : Report} {priority : UInt8}
    (h : r.ignores report priority = false) :
    (r.process report priority now).2.lastPriority = priority := by
  rw [process_of_accepts h, passes_lastPriority, opened_router]

/-! ### The two runs -/

/-- The router that hears of the first keyboard alone, and the one that hears of both. -/
inductive Unnoticed (q : UInt8) : Router → Router → Prop where
  /-- The first keyboard has spoken last. -/
  | settled {r : Router} (hlast : r.lastPriority < q) : Unnoticed q r r
  /-- The first keyboard has not spoken yet, so that it will be listened to. -/
  | untouched {r : Router} (hr : r.Untouched) (hfirst : r.lastPriority = 255) {last : UInt8}
      (hlast : ∀ priority < q, priority ≤ last) : Unnoticed q r { r with lastPriority := last }

namespace Unnoticed

variable {r r' : Router}

/-- The second keyboard is passed over, or what it says is remembered by its `priority` alone. -/
theorem idle (h : Unnoticed q r r') {priority : UInt8} (hpriority : q ≤ priority)
    (now : Instant) :
    (r'.feed (.report {} priority now)).1 = [] ∧
      Unnoticed q r (r'.feed (.report {} priority now)).2 := by
  simp only [feed, receive_eq_process]
  cases h with
  | settled hlast =>
    have hignores : r.ignores {} priority = true :=
      decide_eq_true (UInt8.lt_of_lt_of_le hlast hpriority)
    rw [process_of_ignores hignores]
    exact ⟨rfl, .settled hlast⟩
  | @untouched hr hfirst last hlast =>
    cases hignore : { r with lastPriority := last }.ignores {} priority with
    | true =>
      rw [process_of_ignores hignore]
      exact ⟨rfl, .untouched hr hfirst hlast⟩
    | false =>
      rw [(hr.setPriority last).process_idle hignore]
      exact ⟨rfl, .untouched hr hfirst fun p hp => UInt8.le_trans (UInt8.le_of_lt hp) hpriority⟩

/-- A `report` of the first keyboard comes to the same, and from then on nothing tells the two
routers apart. -/
theorem report (h : Unnoticed q r r') {report : Report} {priority : UInt8}
    (hpriority : priority < q) (now : Instant) :
    (r'.feed (.report report priority now)).1 = (r.feed (.report report priority now)).1 ∧
      Unnoticed q (r.feed (.report report priority now)).2
        (r'.feed (.report report priority now)).2 := by
  simp only [feed, receive_eq_process]
  cases h with
  | settled hlast =>
    refine ⟨rfl, .settled ?_⟩
    cases hignore : r.ignores report priority with
    | true => rwa [process_of_ignores hignore]
    | false => rwa [process_lastPriority hignore]
  | @untouched hr hfirst last hlast =>
    have haccepts : r.ignores report priority = false :=
      accepts_of_le (hfirst ▸ priority_le priority)
    rw [process_setPriority haccepts (accepts_of_le (hlast priority hpriority))]
    refine ⟨rfl, .settled ?_⟩
    rwa [process_lastPriority haccepts]

theorem tick (h : Unnoticed q r r') (now : Instant) :
    (r'.feed (.tick now)).1 = (r.feed (.tick now)).1 ∧
      Unnoticed q (r.feed (.tick now)).2 (r'.feed (.tick now)).2 := by
  simp only [feed]
  cases h with
  | settled hlast =>
    refine ⟨rfl, .settled ?_⟩
    rwa [tick_router]
  | @untouched hr hfirst last hlast =>
    rw [hr.tick, (hr.setPriority last).tick]
    exact ⟨rfl, .untouched hr hfirst hlast⟩

/-- To open or close the OSD leaves the two routers alike (`Unnoticed`). -/
theorem osd (h : Unnoticed q r r') (visible : Bool) :
    Unnoticed q (r.setOsdVisible visible) (r'.setOsdVisible visible) := by
  cases h with
  | settled hlast => exact .settled hlast
  | untouched hr hfirst hlast => exact .untouched (hr.setOsdVisible visible) hfirst hlast

/-- Every arrival that is no empty report of the second keyboard, `Arrival.own`, comes to the same.
-/
theorem own (h : Unnoticed q r r') {i : Input} (hi : (Arrival.own i).fits q = true) :
    (r'.feed i).1 = (r.feed i).1 ∧ Unnoticed q (r.feed i).2 (r'.feed i).2 := by
  cases i with
  | report report priority now => exact h.report (of_decide_eq_true hi) now
  | tick now => exact h.tick now
  | osd visible => exact ⟨rfl, h.osd visible⟩
  | adopt profile => exact absurd hi Bool.false_ne_true

/-- Over all the `arrivals` that fit the two routers stay alike. -/
theorem run {arrivals : List Arrival} (h : Unnoticed q r r')
    (hfits : ∀ a ∈ arrivals, a.fits q = true) :
    Unnoticed q (r.run (arrivals.filterMap Arrival.own?)).2
      (r'.run (arrivals.map Arrival.input)).2 := by
  induction arrivals generalizing r r' with
  | nil => exact h
  | cons a arrivals ih =>
    obtain ⟨ha, hrest⟩ := List.forall_mem_cons.1 hfits
    cases a with
    | own i => exact ih (h.own ha).2 hrest
    | idle priority now => exact ih (h.idle (of_decide_eq_true ha) now).2 hrest

end Unnoticed

/-! ### The theorem -/

/-- **An idle keyboard cannot be noticed.**  On any core, whatever the settings `s`: beside a
keyboard whose priorities are below `q`, every empty report of a keyboard with a priority of `q` or
higher (`Arrival.idle`) makes nothing happen, and every `Arrival.own` makes the same happen as
without those reports, which is what `Arrival.alone` says. -/
theorem idle_unnoticed (s : Settings) (profile : Option Profile) (q : UInt8)
    (before : List Arrival) (a : Arrival) (h : ∀ b ∈ before ++ [a], b.fits q = true) :
    let fresh := (ofSettings s).adoptProfile profile
    fresh.answer (before.map Arrival.input) a.input = a.alone fresh before := by
  intro fresh
  obtain ⟨hbefore, ha⟩ := List.forall_mem_append.1 h
  have hfresh : Unnoticed q fresh fresh :=
    .untouched (untouched_ofSettings s profile) rfl fun p _ => priority_le p
  have hrun := hfresh.run hbefore
  cases a with
  | own i => exact (hrun.own (ha _ List.mem_cons_self)).1
  | idle priority now => exact (hrun.idle (of_decide_eq_true (ha _ List.mem_cons_self)) now).1

/-- On the Minimig left shift and A are pressed on one keyboard, while another keeps reporting that
nobody touches it. -/
def besideTyping : List Arrival :=
  [.idle 4 0, .own (.report (.ofKeys (.single .leftShift) [0x04]) 1 1000), .idle 2 2000,
    .own (.tick 3000)]

/-- The keys stay down over the reports of the second keyboard, and come up with the first
keyboard's own. -/
theorem idle_unnoticed_besideTyping :
    (∀ b ∈ besideTyping ++ [.own (.report {} 0 4000)], b.fits 2 = true) ∧
    (∀ b ∈ besideTyping ++ [.idle 2 4000], b.fits 2 = true) ∧
    let fresh := (ofSettings {}).adoptProfile Core.minimig1.profile?
    fresh.answer (besideTyping.map Arrival.input) (.report {} 2 4000) = [] ∧
      fresh.answer (besideTyping.map Arrival.input) (.report {} 0 4000) =
        [.key ⟨0x60⟩ false, .key ⟨0x20⟩ false] := by
  have hown : ∀ b ∈ besideTyping ++ [.own (.report {} 0 4000)], b.fits 2 = true := by
    decide +kernel
  have hidle : ∀ b ∈ besideTyping ++ [.idle 2 4000], b.fits 2 = true := by decide +kernel
  refine ⟨hown, hidle, ?_, ?_⟩
  · exact idle_unnoticed {} Core.minimig1.profile? 2 besideTyping (.idle 2 4000) hidle
  · refine (idle_unnoticed {} Core.minimig1.profile? 2 besideTyping _ hown).trans ?_
    decide +kernel

end IoController.Keyboard.Router
