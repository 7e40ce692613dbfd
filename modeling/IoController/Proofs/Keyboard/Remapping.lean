import IoController.Proofs.Keyboard.Balance

/-!
# Keyboard — Remapping

A keyboard whose keys are remapped, beside one that has the other keys to begin with.

* `Router.aside`: a router with other remapped keys and another pending reset.
  `Router.passes_aside`: the keys of a report come to the same there.
* `Router.Input.remapped`: an input as the other keyboard has it.
* `Router.remapped_first_iff`: but for resets, the two come to the same as long as no report with
  a key in it is left without one; the resets agree where the reset combination is in both reports
  or in neither; and the two come to the same in every history exactly if no key is taken away and
  delete stands for itself alone.
-/

namespace IoController.Keyboard

/-! ### Tables -/

namespace Remap

/-- A table without entries leaves a `report` as it is. -/
theorem apply_empty (report : Report) : (({} : Remap).apply report) = report := by
  have hkeys : report.keys.map (fun key => if key = 0 then 0 else ({} : Remap).map key) =
      report.keys := by
    refine (Vector.map_congr_left fun key _ => ?_).trans (Vector.map_id _)
    split
    · next hzero => exact hzero.symm
    · rfl
  rw [apply, hkeys]

/-- The keys of a remapped report are those that the keys of the `report` stand for. -/
theorem mem_pressed_apply {t : Remap} {report : Report} {key : UInt8} :
    key ∈ (t.apply report).pressed ↔ key ≠ 0 ∧ ∃ k ∈ report.pressed, t.map k = key := by
  rw [Report.mem_pressed, and_congr_right_iff]
  intro hkey
  simp only [apply, Vector.toList_map, List.mem_map, Report.mem_pressed]
  constructor
  · rintro ⟨k, hk, rfl⟩
    have hk₀ : k ≠ 0 := fun hzero => hkey (if_pos hzero)
    exact ⟨k, ⟨hk₀, hk⟩, (if_neg hk₀).symm⟩
  · rintro ⟨k, ⟨hk₀, hk⟩, rfl⟩
    exact ⟨k, hk, if_neg hk₀⟩

/-- A table that takes no key away leaves no `report` without its keys. -/
theorem isIdle_apply {t : Remap} (h : ∀ key ≠ 0, t.map key ≠ 0) (report : Report) :
    (t.apply report).isIdle = report.isIdle := by
  have hnone : (t.apply report).pressed = [] ↔ report.pressed = [] := by
    simp only [List.eq_nil_iff_forall_not_mem, mem_pressed_apply]
    constructor
    · exact fun hno k hk => hno (t.map k) ⟨h k (Report.mem_pressed.1 hk).1, k, hk, rfl⟩
    · rintro hno key ⟨-, k, hk, -⟩
      exact hno k hk
  have hsame : (t.apply report).pressed.isEmpty = report.pressed.isEmpty := by
    rw [Bool.eq_iff_iff, List.isEmpty_iff, List.isEmpty_iff, hnone]
  exact congrArg (report.modifiers.isEmpty && ·) hsame

/-- A table by which a `key` alone stands for itself shows that key in every report. -/
theorem contains_apply {t : Remap} {key : UInt8} (hkey : key ≠ 0)
    (h : ∀ k ≠ 0, t.map k = key ↔ k = key) (report : Report) :
    (t.apply report).contains key = report.contains key := by
  rw [Bool.eq_iff_iff, Report.contains, Report.contains, List.contains_iff_mem,
    List.contains_iff_mem, mem_pressed_apply]
  constructor
  · rintro ⟨-, k, hk, hmap⟩
    exact (h k (Report.mem_pressed.1 hk).1).1 hmap ▸ hk
  · exact fun hk => ⟨hkey, key, hk, (h key hkey).2 rfl⟩

end Remap

namespace Router

variable {layout : Layout} {captures : Bool} {now : Instant}

/-! ### What the keys of a report do not depend on -/

/-- The router with other remapped keys and another `pending` reset. -/
def aside (t : Remap) (pending : Option Reset) (r : Router) : Router :=
  { r with remap := t, resetPending := pending }

variable {t : Remap} {pending : Option Reset}

/-- Something that is done to a router and comes to the same where the remapped keys and the
`pending` reset are others. -/
def Overlooks (t : Remap) (pending : Option Reset) (pass : Router → List Event × Router) : Prop :=
  ∀ r, pass (r.aside t pending) = ((pass r).1, (pass r).2.aside t pending)

/-- A `release` does not look at either. -/
theorem release_aside (route : Route) : Overlooks t pending fun r => r.release route := by
  intro r
  cases route <;> rfl

theorem breakKey_aside (key : UInt8) : Overlooks t pending fun r => r.breakKey key := by
  intro r
  exact release_aside _ { r with routes := r.routes.eraseP (·.1 == key) }

/-- A key `code` that goes to the core, or nowhere, is sent the same. -/
theorem sendKey_aside (r : Router) (code : KeyCode) (osd : Option UInt8) :
    (r.aside t pending).sendKey code osd =
      ((r.sendKey code osd).1, (r.sendKey code osd).2.1,
        (r.sendKey code osd).2.2.aside t pending) := by
  unfold sendKey
  dsimp only
  split
  · rfl
  · split <;> rfl

/-- A `key` that the emulation does not claim goes the same way. -/
theorem routeKey_aside (r : Router) (key : UInt8) :
    (r.aside t pending).routeKey layout captures key now =
      ((r.routeKey layout captures key now).1, (r.routeKey layout captures key now).2.1,
        (r.routeKey layout captures key now).2.2.aside t pending) := by
  have hmenu : (r.aside t pending).menuAsRightGui = r.menuAsRightGui := rfl
  have hvisible : (r.aside t pending).osdVisible = r.osdVisible := rfl
  simp only [routeKey, hmenu, hvisible]
  by_cases hopen : (layout.lookup key r.menuAsRightGui).opensOsd &&
      (layout.lookup key r.menuAsRightGui).code == 0
  · rw [if_pos hopen, if_pos hopen]
    rfl
  · rw [if_neg hopen, if_neg hopen]
    cases (layout.lookup key r.menuAsRightGui).emulationSelector? with
    | some selector => rfl
    | none =>
      dsimp only
      by_cases hcapture : r.osdVisible && captures
      · rw [if_pos hcapture, if_pos hcapture]
      · rw [if_neg hcapture, if_neg hcapture, sendKey_aside]

/-- A `press` comes to the same events and the same route. -/
theorem press_aside (r : Router) (key : UInt8) :
    (r.aside t pending).press layout captures key now =
      ((r.press layout captures key now).1, (r.press layout captures key now).2.1,
        (r.press layout captures key now).2.2.aside t pending) := by
  have hclaimed : (r.aside t pending).claimed? key = r.claimed? key := rfl
  unfold press
  rw [hclaimed]
  cases r.claimed? key with
  | some directions => rfl
  | none => exact routeKey_aside r key

theorem makeKey_aside (key : UInt8) :
    Overlooks t pending fun r => makeKey layout captures now r key := by
  intro r
  by_cases h : r.routes.length < maxKeys
  · have hroom : (r.aside t pending).routes.length < maxKeys := h
    simp only [makeKey_of_room h, makeKey_of_room hroom, press_aside]
    rfl
  · have hfull : ¬ (r.aside t pending).routes.length < maxKeys := h
    simp only [makeKey, if_neg h, if_neg hfull]

/-- What each key of a `pass` overlooks, the pass does. -/
theorem forKeys_aside {pass : Router → UInt8 → List Event × Router}
    (h : ∀ key, Overlooks t pending fun r => pass r key) (keys : List UInt8) :
    Overlooks t pending fun r => r.forKeys pass keys := by
  induction keys with
  | nil => exact fun r => rfl
  | cons key keys ih =>
    intro r
    have hfirst := h key r
    have hrest := ih (pass r key).2
    simp only [forKeys, hfirst, hrest]

theorem breakPass_aside (report : Report) :
    Overlooks t pending fun r => r.breakPass report := by
  intro r
  exact forKeys_aside breakKey_aside _ r

theorem makePass_aside (report : Report) :
    Overlooks t pending fun r => r.makePass layout captures report now := by
  intro r
  exact forKeys_aside (fun key => makeKey_aside key) _ r

/-- The keys of a `report` come to the same. -/
theorem passes_aside (t : Remap) (pending : Option Reset) (r : Router) (report : Report)
    (now : Instant) :
    (r.aside t pending).passes report now =
      ((r.passes report now).1, (r.passes report now).2.aside t pending) := by
  rcases r.layout_or_none with ⟨profile, layout, hprofile, hlayout⟩ | hnone
  · have hprofile' : (r.aside t pending).profile = some profile := hprofile
    have hmodified : (r.aside t pending).modifiersPass layout report.modifiers =
        ((r.modifiersPass layout report.modifiers).1,
          (r.modifiersPass layout report.modifiers).2.aside t pending) := rfl
    have hbroken : ((r.modifiersPass layout report.modifiers).2.aside t pending).breakPass report =
        _ := breakPass_aside report _
    have hmade : (((r.modifiersPass layout report.modifiers).2.breakPass report).2.aside t
          pending).makePass layout profile.osdCapturesKeys report now = _ := makePass_aside report _
    simp only [passes_of_layout hprofile hlayout, passes_of_layout hprofile' hlayout, hmodified,
      hbroken, hmade]
    rfl
  · have hnone' : ∀ profile, (r.aside t pending).profile = some profile →
        profile.layout = none := hnone
    simp only [passes_of_no_layout hnone, passes_of_no_layout hnone']
    rfl

theorem tick_aside (t : Remap) (pending : Option Reset) (now : Instant) (r : Router) :
    (r.aside t pending).tick now = ((r.tick now).1, (r.tick now).2.aside t pending) := by
  have hvisible : (r.aside t pending).osdVisible = r.osdVisible := rfl
  simp only [tick, hvisible]
  cases r.osdVisible <;> rfl

/-! ### The two keyboards -/

/-- An input as the keyboard has it that has the keys to begin with that `t` gives it. -/
def Input.remapped (t : Remap) : Input → Input
  | .report seen priority now => .report (t.apply seen) priority now
  | i => i

/-- Whether a report is idle just if the one that is remapped by `t` is. -/
def Input.staysHeld (t : Remap) : Input → Bool
  | .report seen _ _ => (t.apply seen).isIdle == seen.isIdle
  | _ => true

/-- Whether the reset combination `c` is in a report just if it is in the remapped one. -/
def Input.keepsReset (t : Remap) (c : ResetCombination) : Input → Bool
  | .report seen _ _ =>
    decide (ResetCombination.ofReport (t.apply seen) = c) ==
      decide (ResetCombination.ofReport seen = c)
  | _ => true

/-- The `events` but for what the reset combination asks for. -/
def withoutResets (events : List Event) : List Event :=
  events.filter fun
    | .reset _ => false
    | _ => true

/-- What is asked for in between is left out as well. -/
theorem withoutResets_append (events events' : List Event) :
    withoutResets (events ++ events') = withoutResets events ++ withoutResets events' :=
  List.filter_append ..

/-- Looking for the reset combination leads to resets only (`withoutResets`). -/
theorem withoutResets_resetPass (r : Router) (report : Report) :
    withoutResets (r.resetPass report).1 = [] := by
  refine List.filter_eq_nil_iff.2 fun e he => ?_
  obtain ⟨request, rfl⟩ := r.resetPass_events report e he
  exact Bool.false_ne_true

/-! #### Whatever became of the reset combination -/

/-- The remapped report is passed over just if the `report` is. -/
theorem ignores_remapped (pending : Option Reset) {r : Router} {report : Report}
    (hidle : (r.remap.apply report).isIdle = report.isIdle) (priority : UInt8) :
    (r.aside {} pending).ignores (r.remap.apply report) priority = r.ignores report priority := by
  rw [ignores, ignores, hidle]
  rfl

/-- The same `report` is kept. -/
theorem taken_remapped (r : Router) (report : Report) :
    (r.aside {} pending).taken (r.remap.apply report) = r.taken report :=
  congrArg Report.dedup (Remap.apply_empty _)

/-- The two routers differ as before (`aside`) when its keys are looked at. -/
theorem opened_remapped (r : Router) (report : Report) (priority : UInt8) :
    (r.aside {} pending).opened (r.remap.apply report) priority =
      (r.opened report priority).aside {}
        ((r.aside {} pending).opened (r.remap.apply report) priority).resetPending := by
  rw [opened_router r]
  exact opened_router _ _ _

/-- A `report` comes to the same but for resets. -/
theorem process_remapped {r : Router} {report : Report}
    (hidle : (r.remap.apply report).isIdle = report.isIdle) (priority : UInt8) :
    ∃ pending', ((r.aside {} pending).process (r.remap.apply report) priority now).2 =
        (r.process report priority now).2.aside {} pending' ∧
      withoutResets ((r.aside {} pending).process (r.remap.apply report) priority now).1 =
        withoutResets (r.process report priority now).1 := by
  have hignores := ignores_remapped pending hidle priority
  cases hignore : r.ignores report priority with
  | true =>
    rw [process_of_ignores hignore, process_of_ignores (hignores.trans hignore)]
    exact ⟨pending, rfl, rfl⟩
  | false =>
    rw [process_of_accepts hignore, process_of_accepts (hignores.trans hignore), taken_remapped,
      opened_remapped, passes_aside]
    refine ⟨_, rfl, ?_⟩
    rw [withoutResets_append, withoutResets_append, withoutResets_resetPass,
      withoutResets_resetPass]

theorem feed_remapped (pending : Option Reset) {r : Router} {i : Input}
    (h : i.staysHeld r.remap = true) :
    ∃ pending', ((r.aside {} pending).feed (i.remapped r.remap)).2 =
        (r.feed i).2.aside {} pending' ∧
      withoutResets ((r.aside {} pending).feed (i.remapped r.remap)).1 =
        withoutResets (r.feed i).1 := by
  cases i with
  | report report priority now =>
    simp only [Input.remapped, feed, receive_eq_process]
    exact process_remapped (beq_iff_eq.1 h) priority
  | tick now =>
    have htick := tick_aside {} pending now r
    refine ⟨pending, congrArg (·.2) htick, ?_⟩
    exact congrArg (fun p => withoutResets p.1.toList) htick
  | osd visible => exact ⟨pending, rfl, rfl⟩
  | adopt profile => exact ⟨pending, rfl, rfl⟩

/-- After a history the two routers differ as before (`aside`). -/
theorem run_remapped (pending : Option Reset) {r : Router} {is : List Input}
    (h : ∀ i ∈ is, i.staysHeld r.remap = true) :
    ∃ pending', ((r.aside {} pending).run (is.map (·.remapped r.remap))).2 =
      (r.run is).2.aside {} pending' := by
  induction is generalizing r pending with
  | nil => exact ⟨pending, rfl⟩
  | cons i is ih =>
    obtain ⟨hi, his⟩ := List.forall_mem_cons.1 h
    obtain ⟨pending', hstate, -⟩ := feed_remapped pending hi
    have hremap : (r.feed i).2.remap = r.remap := by rw [feed_router]
    rw [List.map_cons, run, run, hstate, ← hremap]
    exact ih pending' (hremap ▸ his)

/-! #### With the same pending reset -/

/-- The router `r` without remapped keys. -/
def plain (r : Router) : Router := { r with remap := {} }

/-- The keys of a `report` have no part in the pending reset. -/
theorem passes_resetPending (r : Router) (report : Report) (now : Instant) :
    (r.passes report now).2.resetPending = r.resetPending :=
  congrArg (·.2.resetPending) (passes_aside r.remap r.resetPending r report now)

theorem passes_plain (r : Router) (report : Report) (now : Instant) :
    r.plain.passes report now = ((r.passes report now).1, (r.passes report now).2.plain) := by
  refine (passes_aside {} r.resetPending r report now).trans ?_
  rw [← passes_resetPending r report now]
  rfl

/-- As time passes nothing becomes of the pending reset either. -/
theorem tick_plain (r : Router) (now : Instant) :
    r.plain.tick now = ((r.tick now).1, (r.tick now).2.plain) := by
  refine (tick_aside {} r.resetPending now r).trans ?_
  rw [tick_router]
  rfl

/-- The reset combination is looked for alike (`resetPass`) where it is in both reports or in
neither. -/
theorem resetPass_plain {r : Router} {report report' : Report}
    (hmodifiers : report'.modifiers = report.modifiers)
    (hheld : ResetCombination.ofReport report' = r.resetCombination ↔
      ResetCombination.ofReport report = r.resetCombination) :
    r.plain.resetPass report' = ((r.resetPass report).1, (r.resetPass report).2.plain) := by
  have hcombination : r.plain.resetCombination = r.resetCombination := rfl
  have hpending : r.plain.resetPending = r.resetPending := rfl
  unfold resetPass
  rw [hcombination, hpending, hmodifiers]
  by_cases h : ResetCombination.ofReport report = r.resetCombination
  · rw [if_pos h, if_pos (hheld.2 h)]
    cases hreset : r.resetPending <;> rfl
  · rw [if_neg h, if_neg (mt hheld.1 h)]
    rfl

/-- A `report` comes to the same if the reset combination is in it just if it is in the remapped
one. -/
theorem process_plain {r : Router} {report : Report}
    (hidle : (r.remap.apply report).isIdle = report.isIdle)
    (hheld : ResetCombination.ofReport (r.remap.apply report) = r.resetCombination ↔
      ResetCombination.ofReport report = r.resetCombination) (priority : UInt8) :
    r.plain.process (r.remap.apply report) priority now =
      ((r.process report priority now).1, (r.process report priority now).2.plain) := by
  have hignores : r.plain.ignores (r.remap.apply report) priority = r.ignores report priority :=
    ignores_remapped r.resetPending hidle priority
  cases hignore : r.ignores report priority with
  | true => rw [process_of_ignores hignore, process_of_ignores (hignores.trans hignore)]
  | false =>
    have hreset : ({ r.plain with lastPriority := priority }.resetPass (r.remap.apply report)) =
        (({ r with lastPriority := priority }.resetPass report).1,
          (r.opened report priority).plain) :=
      resetPass_plain (r := { r with lastPriority := priority }) rfl hheld
    have hopened : r.plain.opened (r.remap.apply report) priority =
        (r.opened report priority).plain := congrArg Prod.snd hreset
    have htaken : r.plain.taken (r.remap.apply report) = r.taken report := taken_remapped r report
    rw [process_of_accepts hignore, process_of_accepts (hignores.trans hignore), htaken, hopened,
      passes_plain, hreset]

theorem feed_plain {r : Router} {i : Input} (hheld : i.staysHeld r.remap = true)
    (hreset : i.keepsReset r.remap r.resetCombination = true) :
    r.plain.feed (i.remapped r.remap) = ((r.feed i).1, (r.feed i).2.plain) := by
  cases i with
  | report report priority now =>
    simp only [Input.remapped, feed, receive_eq_process]
    exact process_plain (beq_iff_eq.1 hheld) (decide_eq_decide.1 (beq_iff_eq.1 hreset)) priority
  | tick now =>
    simp only [Input.remapped, feed, tick_plain]
  | osd visible => rfl
  | adopt profile => rfl

/-- A history of such inputs leaves the two routers alike (`plain`). -/
theorem run_plain {r : Router} {is : List Input} (hheld : ∀ i ∈ is, i.staysHeld r.remap = true)
    (hreset : ∀ i ∈ is, i.keepsReset r.remap r.resetCombination = true) :
    (r.plain.run (is.map (·.remapped r.remap))).2 = (r.run is).2.plain := by
  induction is generalizing r with
  | nil => rfl
  | cons i is ih =>
    obtain ⟨hi, his⟩ := List.forall_mem_cons.1 hheld
    obtain ⟨hi', his'⟩ := List.forall_mem_cons.1 hreset
    have hremap : (r.feed i).2.remap = r.remap := by rw [feed_router]
    have hcombination : (r.feed i).2.resetCombination = r.resetCombination := by rw [feed_router]
    rw [List.map_cons, run, run, feed_plain hi hi', ← hremap]
    exact ih (hremap ▸ his) (hcombination ▸ hremap ▸ his')

/-! ### What gives a table away -/

/-- The modifiers of the reset combination and a `key`, before there is a core. -/
def Input.chord (s : Settings) (key : UInt8) : Input :=
  .report (.ofKeys (ResetCombination.ofNumber s.resetCombo).modifiers [key]) 0 0

theorem pressed_ofKeys_zero (modifiers : Modifiers) :
    (Report.ofKeys modifiers [0]).pressed = [] := rfl

/-- A report of one `key` holds that key. -/
theorem pressed_ofKeys {key : UInt8} (hkey : key ≠ 0) (modifiers : Modifiers) :
    (Report.ofKeys modifiers [key]).pressed = [key] := by
  have hpressed : (Report.ofKeys modifiers [key]).pressed = [key].filter (· != 0) := rfl
  rw [hpressed, List.filter_cons_of_pos (by simpa using hkey), List.filter_nil]

/-- A report is idle without `modifiers` and without a `key`. -/
theorem isIdle_ofKeys (modifiers : Modifiers) (key : UInt8) :
    (Report.ofKeys modifiers [key]).isIdle = (modifiers.isEmpty && key == 0) := by
  refine congrArg (modifiers.isEmpty && ·) ?_
  by_cases hkey : key = 0
  · rw [hkey, pressed_ofKeys_zero]
    rfl
  · rw [pressed_ofKeys hkey, beq_false_of_ne hkey]
    rfl

/-- What such a report shows of a reset combination. -/
theorem ofReport_ofKeys (modifiers : Modifiers) (key : UInt8) :
    ResetCombination.ofReport (.ofKeys modifiers [key]) =
      ⟨modifiers \ .single .leftShift, key == ResetCombination.deleteUsage⟩ := by
  refine congrArg (ResetCombination.mk _) ?_
  rw [Report.contains]
  by_cases hkey : key = 0
  · rw [hkey, pressed_ofKeys_zero]
    rfl
  · rw [pressed_ofKeys hkey, List.contains_cons, List.contains_nil, Bool.or_false, Bool.beq_comm]

/-- The key that a `key` stands for, or an empty place for an empty place. -/
def mapped (t : Remap) (key : UInt8) : UInt8 := if key = 0 then 0 else t.map key

/-- A report of one `key` is remapped to a report of one key. -/
theorem apply_ofKeys (t : Remap) (modifiers : Modifiers) (key : UInt8) :
    t.apply (.ofKeys modifiers [key]) = .ofKeys modifiers [mapped t key] := by
  refine congrArg (Report.mk modifiers) (Vector.ext fun i hi => ?_)
  simp only [Report.ofKeys, Vector.getElem_map, Vector.getElem_ofFn]
  cases i with
  | zero => rfl
  | succ i => exact if_pos rfl

/-- A reset combination has modifiers, and left shift is none of them. -/
theorem modifiers_ofNumber (n : UInt8) :
    (ResetCombination.ofNumber n).modifiers \ .single .leftShift =
        (ResetCombination.ofNumber n).modifiers ∧
      (ResetCombination.ofNumber n).modifiers.has .leftShift = false ∧
      (ResetCombination.ofNumber n).modifiers.isEmpty = false := by
  unfold ResetCombination.ofNumber
  split <;> decide

/-- Without a core a `report` comes to what the reset combination asks for. -/
theorem process_of_no_profile {r : Router} {report : Report} {priority : UInt8}
    (hnone : r.profile = none) (haccepts : r.ignores report priority = false) :
    r.process report priority now =
      (({ r with lastPriority := priority }.resetPass report).1,
        { r.opened report priority with pressed := r.taken report }) := by
  have hlayout : ∀ profile, (r.opened report priority).profile = some profile →
      profile.layout = none := by
    rw [opened_router]
    exact fun profile hprofile => absurd (hnone.symm.trans hprofile) (Option.some_ne_none _).symm
  rw [process_of_accepts haccepts, passes_of_no_layout hlayout, List.append_nil]

/-- Whether the modifiers of the reset combination and a `key` are the reset combination. -/
def chordHeld (s : Settings) (key : UInt8) : Bool :=
  (key == ResetCombination.deleteUsage) == (ResetCombination.ofNumber s.resetCombo).delete

/-- The modifiers of the reset combination and a `key` come to a reset just if they are the reset
combination. -/
theorem resetPass_chord (s : Settings) (key : UInt8) {report : Report}
    (hreport : report = .ofKeys (ResetCombination.ofNumber s.resetCombo).modifiers [key]) :
    { ofSettings s with lastPriority := 0 }.resetPass report =
      (if chordHeld s key then [.reset (.core true)] else [],
        { ofSettings s with
          lastPriority := 0
          resetPending := if chordHeld s key then some (.core true) else none }) := by
  obtain ⟨hshift, hunshifted, -⟩ := modifiers_ofNumber s.resetCombo
  have hheld : ResetCombination.ofReport report = (ofSettings s).resetCombination ↔
      chordHeld s key = true := by
    rw [hreport, ofReport_ofKeys, hshift, chordHeld, beq_iff_eq]
    exact ⟨congrArg ResetCombination.delete, congrArg (ResetCombination.mk _)⟩
  have hshifted : report.modifiers.has .leftShift = false := by
    rw [hreport]
    exact hunshifted
  cases hchord : chordHeld s key with
  | true =>
    simp only [resetPass, if_pos (hheld.2 hchord), hshifted]
    rfl
  | false =>
    have hapart : ¬ ResetCombination.ofReport report = (ofSettings s).resetCombination := by
      rw [hheld, hchord]
      exact Bool.false_ne_true
    simp only [resetPass, if_neg hapart]
    rfl

/-- Before there is a core nothing else comes of such a `chord`, and what was held is held from then
on. -/
theorem feed_chord (s : Settings) (key : UInt8) :
    ∃ pressed, (ofSettings s).feed (.chord s key) =
      (if chordHeld s key then [.reset (.core true)] else [],
        { ofSettings s with
          lastPriority := 0
          pressed
          resetPending := if chordHeld s key then some (.core true) else none }) := by
  obtain ⟨-, -, hsome⟩ := modifiers_ofNumber s.resetCombo
  let report : Report := .ofKeys (ResetCombination.ofNumber s.resetCombo).modifiers [key]
  have haccepts : (ofSettings s).ignores report 0 = false := by
    rw [ignores, isIdle_ofKeys, hsome]
    rfl
  refine ⟨(ofSettings s).taken report, ?_⟩
  have hreset := resetPass_chord s key (rfl : report = _)
  rw [Input.chord, feed, receive_eq_process, process_of_no_profile rfl haccepts, opened, hreset]

/-- The settings `s` without remapped keys. -/
def unmapped (s : Settings) : Settings := { s with remap := {} }

/-- Remapped, the chord has the key that its `key` stands for. -/
theorem remapped_chord (s : Settings) (key : UInt8) :
    (Input.chord s key).remapped s.remap = .chord (unmapped s) (mapped s.remap key) :=
  congrArg (Input.report · 0 0) (apply_ofKeys _ _ key)

/-- A `key` alone, from a keyboard that goes second. -/
def Input.second (key : UInt8) : Input := .report (.ofKeys ∅ [key]) 1 0

/-- Remapped, it is the key that its `key` stands for. -/
theorem remapped_second (t : Remap) (key : UInt8) :
    (Input.second key).remapped t = .second (mapped t key) :=
  congrArg (Input.report · 1 0) (apply_ofKeys _ _ key)

/-- While the reset combination is held, a `key` of the second keyboard ends it, and an idle report
of the second keyboard does not. -/
theorem feed_second {r : Router} (hnone : r.profile = none) (hlast : r.lastPriority = 0)
    (hsome : r.resetCombination.modifiers.isEmpty = false)
    (hpending : r.resetPending = some (.core true)) (key : UInt8) :
    (r.feed (.second key)).1 = if key = 0 then [] else [.reset (.core false)] := by
  have hidle : (Report.ofKeys ∅ [key]).isIdle = (key == 0) := isIdle_ofKeys ∅ key
  simp only [Input.second, feed, receive_eq_process]
  by_cases hkey : key = 0
  · have hignores : r.ignores (.ofKeys ∅ [key]) 1 = true := by
      rw [ignores, hidle, hkey, hlast]
      rfl
    rw [process_of_ignores hignores, if_pos hkey]
  · have haccepts : r.ignores (.ofKeys ∅ [key]) 1 = false := by
      rw [ignores, hidle, beq_false_of_ne hkey, Bool.false_and]
    have hended : ResetCombination.ofReport (.ofKeys ∅ [key]) ≠ r.resetCombination := by
      intro hsame
      have hempty : (∅ \ .single .leftShift : Modifiers).isEmpty = true := by decide
      rw [← hsame, ofReport_ofKeys] at hsome
      exact absurd (hsome.symm.trans hempty) Bool.false_ne_true
    have hheld : r.resetHeld = true := by
      rw [resetHeld, hpending]
      rfl
    rw [process_of_no_profile hnone haccepts, resetPass, if_neg hended, if_neg hkey]
    exact if_pos hheld

theorem answer_second (s : Settings) {held : UInt8} (hheld : chordHeld s held = true)
    (key : UInt8) : (ofSettings s).answer [.chord s held] (.second key) =
      if key = 0 then [] else [.reset (.core false)] := by
  obtain ⟨pressed, hchord⟩ := feed_chord s held
  rw [answer, run, run, hchord]
  exact feed_second rfl rfl (modifiers_ofNumber s.resetCombo).2.2 (if_pos hheld) key

/-- The keyboard with the remapped keys of `s` answers every history as the one does that has the
other keys to begin with. -/
def RemappedFirst (s : Settings) : Prop :=
  ∀ is i, (ofSettings (unmapped s)).answer (is.map (·.remapped s.remap)) (i.remapped s.remap) =
    (ofSettings s).answer is i

/-- The `key` that belongs to the reset combination is then not taken for another. -/
theorem RemappedFirst.chordHeld_mapped {s : Settings} (h : RemappedFirst s) (key : UInt8) :
    chordHeld s (mapped s.remap key) = chordHeld s key := by
  obtain ⟨pressed, hraw⟩ := feed_chord s key
  obtain ⟨pressed', hplain⟩ := feed_chord (unmapped s) (mapped s.remap key)
  have hsame := h [] (.chord s key)
  rw [List.map_nil, answer, answer, run, run, remapped_chord, hraw, hplain] at hsame
  have hreset : ∀ held held' : Bool, (if held then [Event.reset (.core true)] else []) =
      (if held' then [Event.reset (.core true)] else []) → held = held' := by decide
  exact hreset _ _ hsame

/-- Of all keys only `deleteUsage` makes the difference to the reset combination. -/
theorem chordHeld_delete (s : Settings) (key : UInt8) :
    chordHeld s key = chordHeld s ResetCombination.deleteUsage ↔
      key = ResetCombination.deleteUsage := by
  simp only [chordHeld, beq_self_eq_true]
  by_cases hkey : key = ResetCombination.deleteUsage
  · simp [hkey]
  · rw [beq_false_of_ne hkey]
    cases (ResetCombination.ofNumber s.resetCombo).delete <;> simp [hkey]

/-- Delete then stands for itself alone. -/
theorem RemappedFirst.delete_iff {s : Settings} (h : RemappedFirst s) {key : UInt8}
    (hkey : key ≠ 0) :
    s.remap.map key = ResetCombination.deleteUsage ↔ key = ResetCombination.deleteUsage := by
  have hheld := h.chordHeld_mapped key
  rw [mapped, if_neg hkey] at hheld
  rw [← chordHeld_delete s, ← chordHeld_delete s, hheld]

/-- No `key` then is taken away: the report would be left without keys, and whether such a report is
looked at depends on the keyboard that spoke last. -/
theorem RemappedFirst.map_ne_zero {s : Settings} (h : RemappedFirst s) {key : UInt8}
    (hkey : key ≠ 0) : s.remap.map key ≠ 0 := by
  intro hgone
  obtain ⟨held, hheld⟩ : ∃ held, chordHeld s held = true := by
    cases hdelete : (ResetCombination.ofNumber s.resetCombo).delete with
    | true => exact ⟨ResetCombination.deleteUsage, by rw [chordHeld, hdelete]; rfl⟩
    | false => exact ⟨0, by rw [chordHeld, hdelete]; rfl⟩
  have hsame := h [.chord s held] (.second key)
  have hempty : mapped s.remap key = 0 := by rw [mapped, if_neg hkey, hgone]
  rw [List.map_singleton, remapped_chord, remapped_second, hempty, answer_second s hheld,
    answer_second (unmapped s) ((h.chordHeld_mapped held).trans hheld), if_neg hkey,
    if_pos rfl] at hsame
  exact (List.cons_ne_nil _ _).symm hsame

/-! ### The theorem -/

/-- But for resets the two answer alike where no report is left without its keys (`staysHeld`). -/
theorem withoutResets_answer_remapped {r : Router} {is : List Input} {i : Input}
    (h : ∀ j ∈ is ++ [i], j.staysHeld r.remap = true) :
    withoutResets (r.plain.answer (is.map (·.remapped r.remap)) (i.remapped r.remap)) =
      withoutResets (r.answer is i) := by
  obtain ⟨his, hi⟩ := List.forall_mem_append.1 h
  obtain ⟨pending, hstate⟩ := run_remapped r.resetPending his
  have hlast : i.staysHeld (r.run is).2.remap = true := by
    rw [run_remap]
    exact hi i List.mem_cons_self
  obtain ⟨-, -, hevents⟩ := feed_remapped pending hlast
  rw [run_remap, ← hstate] at hevents
  exact hevents

/-- The two answer alike where the reset combination also is in both reports or in neither
(`keepsReset`). -/
theorem answer_remapped {r : Router} {is : List Input} {i : Input}
    (hheld : ∀ j ∈ is ++ [i], j.staysHeld r.remap = true)
    (hreset : ∀ j ∈ is ++ [i], j.keepsReset r.remap r.resetCombination = true) :
    r.plain.answer (is.map (·.remapped r.remap)) (i.remapped r.remap) = r.answer is i := by
  obtain ⟨hisHeld, hiHeld⟩ := List.forall_mem_append.1 hheld
  obtain ⟨hisReset, hiReset⟩ := List.forall_mem_append.1 hreset
  have hcombination : (r.run is).2.resetCombination = r.resetCombination :=
    run_induction (P := fun s => s.resetCombination = r.resetCombination) rfl
      fun s i _ hs => by rw [feed_router, hs]
  have hlast : i.staysHeld (r.run is).2.remap = true := by
    rw [run_remap]
    exact hiHeld i List.mem_cons_self
  have hlast' : i.keepsReset (r.run is).2.remap (r.run is).2.resetCombination = true := by
    rw [run_remap, hcombination]
    exact hiReset i List.mem_cons_self
  have hfeed := congrArg Prod.fst (feed_plain hlast hlast')
  rw [run_remap, ← run_plain hisHeld hisReset] at hfeed
  exact hfeed

/-- A table that takes no key away leaves no report without its keys. -/
theorem staysHeld_of_map {t : Remap} (h : ∀ key ≠ 0, t.map key ≠ 0) (i : Input) :
    i.staysHeld t = true := by
  cases i with
  | report report priority now => exact beq_iff_eq.2 (Remap.isIdle_apply h report)
  | _ => rfl

/-- A table by which delete stands for itself alone keeps the reset combination. -/
theorem keepsReset_of_map {t : Remap} (h : ∀ key ≠ 0,
      t.map key = ResetCombination.deleteUsage ↔ key = ResetCombination.deleteUsage)
    (c : ResetCombination) (i : Input) : i.keepsReset t c = true := by
  cases i with
  | report report priority now =>
    have hsame : ResetCombination.ofReport (t.apply report) = ResetCombination.ofReport report :=
      congrArg (ResetCombination.mk _) (Remap.contains_apply (by decide) h report)
    rw [Input.keepsReset, hsame]
    exact beq_self_eq_true _
  | _ => rfl

/-- **Remapping and what comes before it.**  But for resets (`withoutResets`), a keyboard with the
remapped keys of `s` answers as the keyboard does that has the other keys to begin with
(`Input.remapped`, with the settings `unmapped s`), as long as no report is left without its keys
(`staysHeld`).  The resets are the same as long as the reset combination is in a report just if it
is in the remapped one (`keepsReset`).  The two answer alike in every history (`RemappedFirst`)
exactly if no key is taken away and delete stands for itself alone. -/
theorem remapped_first_iff (s : Settings) :
    (∀ is i, (∀ j ∈ is ++ [i], j.staysHeld s.remap = true) →
      withoutResets ((ofSettings (unmapped s)).answer (is.map (·.remapped s.remap))
          (i.remapped s.remap)) =
        withoutResets ((ofSettings s).answer is i)) ∧
    (∀ is i, (∀ j ∈ is ++ [i], j.staysHeld s.remap = true) →
      (∀ j ∈ is ++ [i], j.keepsReset s.remap (.ofNumber s.resetCombo) = true) →
      (ofSettings (unmapped s)).answer (is.map (·.remapped s.remap)) (i.remapped s.remap) =
        (ofSettings s).answer is i) ∧
    (RemappedFirst s ↔ ∀ key ≠ 0, s.remap.map key ≠ 0 ∧
      (s.remap.map key = ResetCombination.deleteUsage ↔ key = ResetCombination.deleteUsage)) := by
  refine ⟨fun is i => withoutResets_answer_remapped (r := ofSettings s),
    fun is i => answer_remapped (r := ofSettings s), ?_, ?_⟩
  · exact fun h key hkey => ⟨h.map_ne_zero hkey, h.delete_iff hkey⟩
  · intro h is i
    refine answer_remapped (r := ofSettings s) (fun j _ => ?_) fun j _ => ?_
    · exact staysHeld_of_map (fun key hkey => (h key hkey).1) j
    · exact keepsReset_of_map (fun key hkey => (h key hkey).2) _ j

/-- Delete stands for A, and the reset combination is the one with delete. -/
def deleteIsA : Settings := { resetCombo := 2, remap := ⟨[(0x4c, 0x04)]⟩ }

/-- Left control and left alt with delete. -/
def withDelete : Input := .report (.ofKeys (.ofList [.leftCtrl, .leftAlt]) [0x4c]) 0 0

/-- Delete alone, without the modifiers that would make it the reset combination. -/
def deleteAlone : Input := .report (.ofKeys ∅ [0x4c]) 0 1000

/-- On the Minimig the remapped keyboard answers like the other one but for the reset, and a report
without the reset combination as the other one does. -/
theorem remapped_first_deleteIsA :
    let before : List Input := [.adopt Core.minimig1.profile?]
    let plainly (i : Input) : List Event := (ofSettings (unmapped deleteIsA)).answer
      (before.map (·.remapped deleteIsA.remap)) (i.remapped deleteIsA.remap)
    withoutResets (plainly withDelete) =
        withoutResets ((ofSettings deleteIsA).answer before withDelete) ∧
      plainly deleteAlone = (ofSettings deleteIsA).answer before deleteAlone ∧
      ¬ RemappedFirst deleteIsA := by
  obtain ⟨hevents, hresets, halways⟩ := remapped_first_iff deleteIsA
  refine ⟨hevents _ _ (by decide), hresets _ _ (by decide +kernel) (by decide +kernel), fun h => ?_⟩
  exact absurd ((halways.1 h 0x4c (by decide)).2.2 rfl) (by decide)

/-- The reset combination sees delete although it stands for A (`deleteIsA`): the core is reset
while A goes down.  With A in the place of delete, A alone goes down. -/
theorem delete_seen_first :
    (ofSettings deleteIsA).answer [.adopt Core.minimig1.profile?] withDelete =
        [.reset (.core true), .key ⟨0x63⟩ true, .key ⟨0x64⟩ true, .key ⟨0x20⟩ true] ∧
      (ofSettings (unmapped deleteIsA)).answer [.adopt Core.minimig1.profile?]
          (withDelete.remapped deleteIsA.remap) =
        [.key ⟨0x63⟩ true, .key ⟨0x64⟩ true, .key ⟨0x20⟩ true] := by
  decide +kernel

end Router

end IoController.Keyboard
