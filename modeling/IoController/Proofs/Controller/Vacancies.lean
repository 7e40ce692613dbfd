import IoController.Proofs.Controller.Joysticks
import Mathlib.Logic.Function.Basic

/-!
# Controller — Vacancies

What stays behind in the slots of the core when the number of USB joysticks changes and the joystick
ports move to other slots.

* `Controller.moves`: the readings of the ports that differ from the one before of the same port.
* `Controller.Deserted`: a port that was held in a slot has gone on in others.
* `Controller.Follows`: the core is told of every such reading, in the slot of the port at the time.
* `Controller.slots_released_iff`: once both ports are let go no slot is held, but for the deserted.
-/

namespace IoController.Controller

open Device (Deed)

variable {c c' : Controller} {turns past : List Turn} {turn : Turn} {slot : UInt8}

/-! ### Readings -/

/-- A joystick port as it was found, and the slot that it had then. -/
structure Reading where
  port : Nat
  slot : UInt8
  state : Joystick.State
  deriving DecidableEq

/-- The joystick ports as the `turn` found them. -/
def Turn.readings (turn : Turn) : List Reading :=
  (Device.samples turn.words).map fun sample =>
    ⟨sample.1, turn.before.portSlot (.ofNat sample.1), sample.2⟩

/-- The states of the ports after one more `reading`. -/
def learn (known : Nat → Joystick.State) (reading : Reading) : Nat → Joystick.State :=
  Function.update known reading.port reading.state

/-- The states of the ports after more `readings`. -/
def afterReadings (known : Nat → Joystick.State) (readings : List Reading) :
    Nat → Joystick.State :=
  readings.foldl learn known

/-- The readings that differ from what was `known` of the port. -/
def changes (known : Nat → Joystick.State) : List Reading → List Reading
  | [] => []
  | reading :: readings =>
    if reading.state = known reading.port then changes known readings
    else reading :: changes (learn known reading) readings

/-- The state of each port after `turns` as it was found last, with nothing pressed at first. -/
def portState (turns : List Turn) : Nat → Joystick.State :=
  afterReadings (fun _ => ∅) (turns.flatMap (·.readings))

/-- The readings of the `turns` that differ from the one before of the same port. -/
def moves (turns : List Turn) : List Reading :=
  changes (fun _ => ∅) (turns.flatMap (·.readings))

/-- A port that was held in `slot` was read anew since, and no reading since has told of the slot.
-/
def Deserted (slot : UInt8) (moves : List Reading) : Prop :=
  ∃ before reading later, moves = before ++ reading :: later ∧ reading.slot = slot ∧
    reading.state ≠ ∅ ∧ (∃ next ∈ later, next.port = reading.port) ∧
    ∀ next ∈ later, next.slot ≠ slot

variable {known : Nat → Joystick.State} {reading : Reading} {readings : List Reading}

theorem learn_same (h : reading.state = known reading.port) : learn known reading = known := by
  rw [learn, h, Function.update_eq_self]

theorem afterReadings_append (known : Nat → Joystick.State) (readings readings' : List Reading) :
    afterReadings known (readings ++ readings') =
      afterReadings (afterReadings known readings) readings' := List.foldl_append

/-- What is known of a `port` is not changed by readings of others. -/
theorem afterReadings_of_ne {port : Nat} (h : ∀ reading ∈ readings, reading.port ≠ port) :
    afterReadings known readings port = known port := by
  refine List.foldlRecOn (motive := fun (later : Nat → Joystick.State) => later port = known port)
    readings _ rfl fun later hlater reading hreading => ?_
  rw [learn, Function.update_of_ne (h reading hreading).symm, hlater]

/-- The changes of `readings` in a row are those of the first ones, and those of the others from
what is `known` by then. -/
theorem changes_append (known : Nat → Joystick.State) (readings readings' : List Reading) :
    changes known (readings ++ readings') =
      changes known readings ++ changes (afterReadings known readings) readings' := by
  induction readings generalizing known with
  | nil => rfl
  | cons reading readings ih =>
    rw [List.cons_append, changes, changes]
    by_cases hsame : reading.state = known reading.port
    · rw [if_pos hsame, if_pos hsame, ih, afterReadings, afterReadings, List.foldl_cons,
        learn_same hsame]
    · rw [if_neg hsame, if_neg hsame, ih]
      rfl

/-- The `readings` that tell nothing new may be left out. -/
theorem afterReadings_changes (known : Nat → Joystick.State) (readings : List Reading) :
    afterReadings known (changes known readings) = afterReadings known readings := by
  induction readings generalizing known with
  | nil => rfl
  | cons reading readings ih =>
    rw [changes]
    by_cases hsame : reading.state = known reading.port
    · rw [if_pos hsame, ih, afterReadings, afterReadings, List.foldl_cons, learn_same hsame]
    · rw [if_neg hsame]
      exact ih _

/-- A `turn` more adds what it finds changed. -/
theorem moves_snoc (past : List Turn) (turn : Turn) :
    moves (past ++ [turn]) = moves past ++ changes (portState past) turn.readings := by
  rw [moves, List.flatMap_append, changes_append, List.flatMap_singleton]
  rfl

/-- A `turn` more finds the ports anew. -/
theorem portState_snoc (past : List Turn) (turn : Turn) :
    portState (past ++ [turn]) = afterReadings (portState past) turn.readings := by
  rw [portState, List.flatMap_append, afterReadings_append, List.flatMap_singleton]
  rfl

/-- A port of which nothing new was told since `reading` is as it was told. -/
theorem portState_of_last {before later : List Reading} {reading : Reading}
    (hmoves : moves turns = before ++ reading :: later)
    (hlast : ∀ next ∈ later, next.port ≠ reading.port) :
    portState turns reading.port = reading.state := by
  rw [portState, ← afterReadings_changes]
  change afterReadings _ (moves turns) _ = _
  rw [hmoves, List.append_cons, afterReadings_append, afterReadings_of_ne hlast,
    afterReadings_append]
  exact Function.update_self ..

/-! ### What the core is told of them -/

/-- The joystick state that the `reading` sends, if its slot is one that cores have. -/
def Reading.told (reading : Reading) : List (UInt8 × UInt32) :=
  if reading.slot < Joystick.slotCount then [(reading.slot, reading.state.bits.toUInt32)] else []

/-- A `state` is sent as zero just if nothing is pressed. -/
theorem toUInt32_eq_zero {state : Joystick.State} : state.bits.toUInt32 = 0 ↔ state = ∅ := by
  constructor
  · intro hzero
    have hbits : state.bits = 0 := by
      have hnat := congrArg UInt32.toNat hzero
      exact UInt8.toNat_inj.1 (by simpa using hnat)
    exact congrArg Flags.mk hbits
  · rintro rfl
    rfl

/-- No reading tells of `slot`, or one is the last that does. -/
theorem none_or_last (slot : UInt8) (readings : List Reading) :
    (∀ reading ∈ readings, reading.slot ≠ slot) ∨
      ∃ before reading later, readings = before ++ reading :: later ∧ reading.slot = slot ∧
        ∀ next ∈ later, next.slot ≠ slot := by
  induction readings with
  | nil => exact .inl fun _ hreading => nomatch hreading
  | cons first readings ih =>
    rcases ih with hnone | ⟨before, reading, later, rfl, hrest⟩
    · by_cases hfirst : first.slot = slot
      · exact .inr ⟨[], first, readings, rfl, hfirst, hnone⟩
      · exact .inl (List.forall_mem_cons.2 ⟨hfirst, hnone⟩)
    · exact .inr ⟨first :: before, reading, later, rfl, hrest⟩

/-- The `readings` of other slots tell nothing of this one. -/
theorem told_readings_of_ne {w : UInt32} (h : ∀ reading ∈ readings, reading.slot ≠ slot) :
    told slot w (readings.flatMap Reading.told) = w := by
  refine told_of_ne fun state hstate => ?_
  obtain ⟨reading, hreading, htold⟩ := List.mem_flatMap.1 hstate
  unfold Reading.told at htold
  split at htold
  · rw [List.mem_singleton.1 htold]
    exact h reading hreading
  · exact absurd htold List.not_mem_nil

/-- The last reading that tells of `slot` is what is known of it. -/
theorem told_readings_of_last (hslot : slot < Joystick.slotCount) (w : UInt32)
    {before later : List Reading} {reading : Reading} (hreading : reading.slot = slot)
    (hlast : ∀ next ∈ later, next.slot ≠ slot) :
    told slot w ((before ++ reading :: later).flatMap Reading.told) =
      reading.state.bits.toUInt32 := by
  rw [List.append_cons, List.flatMap_append, told_append, told_readings_of_ne hlast,
    List.flatMap_append, told_append, List.flatMap_singleton, Reading.told, hreading, if_pos hslot]
  exact if_pos rfl

/-! ### One turn -/

/-- Whether a call has to do with the joystick ports alone, and the number of USB joysticks. -/
def Call.isOfPorts : Call → Bool
  | .start | .poll _ | .handle (.joystickCount _) _ => true
  | _ => false

/-- Only the joystick ports are used in `turns`, and the OSD stays closed. -/
structure PortsAlone (turns : List Turn) : Prop where
  calls : ∀ turn ∈ turns, turn.call.isOfPorts = true
  closed : ∀ turn ∈ turns, turn.before.router.osdVisible = false

/-- Such a `call` sends no joystick state but by a round. -/
theorem callStates_of_isOfPorts {call : Call} (h : call.isOfPorts = true) :
    c.callStates call = [] := by
  cases call with
  | handle input now =>
    cases input with
    | joystickCount count => rfl
    | _ => exact absurd h Bool.false_ne_true
  | _ => rfl

/-- A `turn` that has sampled both ports has read both, in the slots that they had. -/
theorem readings_of_samples {s₀ s₁ : Joystick.State}
    (h : Device.samples turn.words = [(0, s₀), (1, s₁)]) :
    turn.readings = [⟨0, turn.before.portSlot 0, s₀⟩, ⟨1, turn.before.portSlot 1, s₁⟩] := by
  rw [Turn.readings, h]
  rfl

/-- Only a count (`joystickCount`) changes the number of USB joysticks. -/
theorem Takes.usbJoysticks {call : Call} {ds : List Deed} (h : Takes c call ds c') :
    c'.usbJoysticks = c.usbJoysticks ∨ ∃ count now, call = .handle (.joystickCount count) now ∧
      c'.usbJoysticks = count := by
  cases h with
  | start | setOsdVisible => exact .inl rfl
  | @handle input now _ _ _ heeds =>
    rw [heeds.rest]
    cases input with
    | joystickCount count => exact .inr ⟨count, now, rfl, rfl⟩
    | _ => exact .inl rfl
  | poll polls =>
    cases polls with
    | restart | checked => exact .inl rfl
    | round _ _ round =>
      rw [round.rest]
      exact .inl rfl

/-- The slots of the ports change only with the number of USB joysticks. -/
theorem Takes.portSlot {call : Call} {ds : List Deed} (h : Takes c call ds c') :
    c'.portSlot = c.portSlot ∨ ∃ count now, call = .handle (.joystickCount count) now ∧
      c'.portSlot = (Joystick.portSlot · count c.joystick0PreferDb9) := by
  have hslots : c'.portSlot = (Joystick.portSlot · c'.usbJoysticks c.joystick0PreferDb9) := by
    funext port
    rw [Controller.portSlot, h.preferDb9]
  rw [hslots]
  obtain hsame | ⟨count, now, hcall, hcount⟩ := h.usbJoysticks
  · exact .inl (by rw [hsame]; rfl)
  · exact .inr ⟨count, now, hcall, by rw [hcount]⟩

/-! ### Whole lives -/

/-- What is remembered of the ports is what was found last, nothing is to be reported again, and the
core was told of every reading in `moves`. -/
structure Follows (past : List Turn) (c : Controller) : Prop where
  last : ∀ port < Joystick.portCount, c.db9.last[port]? = some (portState past port)
  absent : ∀ port, Joystick.portCount ≤ port → portState past port = ∅
  due : c.db9.resendPending = false
  closed : c.osdWasVisible = false
  sent : past.flatMap (·.states) = (moves past).flatMap Reading.told

/-- Both ports are read in a round, `first` and `second`. -/
theorem changes_pair (known : Nat → Joystick.State) {first second : Reading}
    (hports : second.port ≠ first.port) :
    changes known [first, second] =
      (if first.state = known first.port then [] else [first]) ++
        if second.state = known second.port then [] else [second] := by
  have hother : learn known first second.port = known second.port :=
    Function.update_of_ne hports ..
  rw [changes]
  split
  · rfl
  · rw [changes, hother]
    rfl

namespace Follows

/-- With the OSD closed `port` is reported if it was found changed. -/
theorem told_port (h : Follows past c) (hclosed : c.router.osdVisible = false) {port : Nat}
    (hport : port < Joystick.portCount) (state : Joystick.State) :
    c.portStates (if c.db9.last[port]? ≠ some state ∨ c.db9.resendPending = true then
        [(.ofNat port, state)] else []) =
      (if state = portState past port then []
        else [(⟨port, c.portSlot (.ofNat port), state⟩ : Reading)]).flatMap Reading.told := by
  have hnew : (c.db9.last[port]? ≠ some state ∨ c.db9.resendPending = true) ↔
      ¬ state = portState past port := by
    rw [h.last port hport, h.due, Ne, Option.some_inj, eq_comm]
    simp
  by_cases hsame : state = portState past port
  · rw [if_neg (hnew.not.2 (not_not.2 hsame)), if_pos hsame]
    rfl
  · rw [if_pos (hnew.2 hsame), if_neg hsame]
    simp [portStates, joystickStates, joystickSpeaks, hclosed, Reading.told]

/-- A round with the OSD closed tells the core what is new (`changes`). -/
theorem told_round (h : Follows past c) (hclosed : c.router.osdVisible = false)
    (s₀ s₁ : Joystick.State) :
    c.portStates (portReports c.noteOsd.db9 s₀ s₁).1 =
      (changes (portState past) [⟨0, c.portSlot 0, s₀⟩, ⟨1, c.portSlot 1, s₁⟩]).flatMap
        Reading.told := by
  have hdb9 : c.noteOsd.db9 = c.db9 := by
    rw [noteOsd, h.closed]
    rfl
  rw [hdb9, (portReports_eq _ s₀ s₁).1, portStates_append, changes_pair _ Nat.one_ne_zero,
    List.flatMap_append]
  exact congrArg₂ _ (h.told_port hclosed zero_lt_portCount s₀)
    (h.told_port hclosed one_lt_portCount s₁)

theorem step (h : Follows past turn.before) (hleaves : turn.Leaves c')
    (hcall : turn.call.isOfPorts = true) (hclosed : turn.before.router.osdVisible = false) :
    Follows (past ++ [turn]) c' := by
  cases hleaves.ports with
  | apart samples states kept =>
    have hstates : turn.states = [] := states.trans (callStates_of_isOfPorts hcall)
    have hreadings : turn.readings = [] := congrArg (List.map _) samples
    have hknown : portState (past ++ [turn]) = portState past := by
      rw [portState_snoc, hreadings]
      rfl
    have hmoves : moves (past ++ [turn]) = moves past := by
      rw [moves_snoc, hreadings]
      exact List.append_nil _
    refine ⟨fun port hport => ?_, ?_, ?_, ?_, ?_⟩
    · rw [kept.1, hknown]
      exact h.last port hport
    · rw [hknown]
      exact h.absent
    · rw [kept.1]
      exact h.due
    · rw [kept.2]
      exact h.closed
    · rw [hmoves, List.flatMap_append, List.flatMap_singleton, hstates, List.append_nil]
      exact h.sent
  | sampled now s₀ s₁ polls samples states kept =>
    have hreadings := readings_of_samples samples
    obtain ⟨-, hlast₀, hlast₁⟩ := portReports_eq turn.before.noteOsd.db9 s₀ s₁
    refine ⟨fun port hport => ?_, fun port hport => ?_, ?_, kept.2.trans hclosed, ?_⟩
    · rw [kept.1, portState_snoc, hreadings]
      match port, hport with
      | 0, _ => exact hlast₀
      | 1, _ => exact hlast₁
    · rw [portState_snoc, hreadings, afterReadings_of_ne, h.absent port hport]
      exact List.forall_mem_cons.2 ⟨(zero_lt_portCount.trans_le hport).ne,
        List.forall_mem_singleton.2 (one_lt_portCount.trans_le hport).ne⟩
    · rw [kept.1]
      rfl
    · rw [moves_snoc, List.flatMap_append, List.flatMap_append, List.flatMap_singleton, h.sent,
        Turn.states, states, hreadings, h.told_round hclosed]

end Follows

theorem PortsAlone.of_append {future : List Turn} (h : PortsAlone (past ++ future)) :
    PortsAlone past where
  calls turn hturn := h.calls turn (List.mem_append_left future hturn)
  closed turn hturn := h.closed turn (List.mem_append_left future hturn)

variable {s : Settings} {medium : Disk.Medium}

/-- At the end of a life the controller `Follows` its turns. -/
theorem Lives.follows (hlives : Lives (ofSettings s medium) turns c) (halone : PortsAlone turns) :
    Follows turns c := by
  refine hlives.invariant ⟨fun port hport => ?_, fun _ _ => rfl, rfl, rfl, rfl⟩
    fun past turn hturn c₁ hleaves hpast =>
      hpast.step hleaves (halone.calls turn hturn) (halone.closed turn hturn)
  exact Vector.getElem?_replicate.trans (if_pos hport)

/-- What the core knows of `slot` is in the last reading of that slot that was new. -/
theorem Lives.slotState_ports (hlives : Lives (ofSettings s medium) turns c)
    (halone : PortsAlone turns) (slot : UInt8) :
    slotState slot turns = told slot 0 ((moves turns).flatMap Reading.told) := by
  rw [slotState, (hlives.follows halone).sent]

/-- With both ports let go, the slots that are held are the `Deserted` ones. -/
theorem Lives.slotState_eq_zero_iff (hlives : Lives (ofSettings s medium) turns c)
    (halone : PortsAlone turns) (hidle : ∀ port, portState turns port = ∅)
    (hslot : slot < Joystick.slotCount) :
    slotState slot turns = 0 ↔ ¬ Deserted slot (moves turns) := by
  rw [hlives.slotState_ports halone]
  constructor
  · rintro hzero ⟨before, reading, later, hmoves, hreading, hheld, -, hlast⟩
    rw [hmoves, told_readings_of_last hslot 0 hreading hlast] at hzero
    exact hheld (toUInt32_eq_zero.1 hzero)
  · intro hdeserted
    obtain hnone | ⟨before, reading, later, hmoves, hreading, hlast⟩ :=
      none_or_last slot (moves turns)
    · exact told_readings_of_ne hnone
    · rw [hmoves, told_readings_of_last hslot 0 hreading hlast, toUInt32_eq_zero]
      by_contra hheld
      by_cases hread : ∃ next ∈ later, next.port = reading.port
      · exact hdeserted ⟨before, reading, later, hmoves, hreading, hheld, hread, hlast⟩
      · -- the port would be held still
        have hstill := portState_of_last hmoves fun next hnext hport => hread ⟨next, hnext, hport⟩
        exact hheld (hstill.symm.trans (hidle _))

/-! ### Ports that are held in place -/

/-- No port is held in `turns` while it moves to another slot. -/
def HeldInPlace (turns : List Turn) : Prop :=
  ∀ past turn future, turns = past ++ turn :: future →
    ∀ count now, turn.call = .handle (.joystickCount count) now →
      ∀ port, portState past port ≠ ∅ →
        Joystick.portSlot (.ofNat port) count turn.before.joystick0PreferDb9 =
          turn.before.portSlot (.ofNat port)

/-- A slot that is held, `w` being what the core knows of it, is the slot of a port that is. -/
def Owned (slot : UInt8) (slots : UInt8 → UInt8) (known : Nat → Joystick.State) (w : UInt32) :
    Prop :=
  w ≠ 0 → ∃ port, slots (.ofNat port) = slot ∧ known port ≠ ∅

namespace Owned

variable {slots : UInt8 → UInt8} {w : UInt32}

/-- A `reading` that the core is told of keeps it so. -/
theorem told_reading (h : Owned slot slots known w) (hslot : slot < Joystick.slotCount)
    (hreading : reading.slot = slots (.ofNat reading.port)) :
    Owned slot slots (learn known reading) (told slot w reading.told) := by
  intro hheld
  by_cases hsame : reading.slot = slot
  · refine ⟨reading.port, hreading.symm.trans hsame, fun hempty => hheld ?_⟩
    rw [learn, Function.update_self] at hempty
    rw [Reading.told, hsame, if_pos hslot, hempty]
    exact if_pos rfl
  · have hnone : told slot w ([reading].flatMap Reading.told) = w :=
      told_readings_of_ne (List.forall_mem_singleton.2 hsame)
    rw [List.flatMap_singleton] at hnone
    obtain ⟨port, hport, hknown⟩ := h (hnone ▸ hheld)
    have hother : port ≠ reading.port := by
      rintro rfl
      exact hsame (hreading.trans hport)
    refine ⟨port, hport, ?_⟩
    rwa [learn, Function.update_of_ne hother]

/-- So do more `readings`, of which the core is told what is new. -/
theorem told_changes (h : Owned slot slots known w) (hslot : slot < Joystick.slotCount)
    (hreadings : ∀ reading ∈ readings, reading.slot = slots (.ofNat reading.port)) :
    Owned slot slots (afterReadings known readings)
      (told slot w ((changes known readings).flatMap Reading.told)) := by
  induction readings generalizing known w with
  | nil => exact h
  | cons reading readings ih =>
    obtain ⟨hreading, hrest⟩ := List.forall_mem_cons.1 hreadings
    rw [changes, afterReadings, List.foldl_cons]
    by_cases hsame : reading.state = known reading.port
    · rw [if_pos hsame, learn_same hsame]
      exact ih h hrest
    · rw [if_neg hsame, List.flatMap_cons, told_append]
      exact ih (h.told_reading hslot hreading) hrest

end Owned

theorem HeldInPlace.of_append {future : List Turn} (h : HeldInPlace (past ++ future)) :
    HeldInPlace past := by
  rintro before turn later rfl
  exact h before turn (later ++ future) (by simp)

/-- In a turn that moves no port that is held, every `slot` stays with the port that holds it. -/
theorem Follows.owned (h : Follows past turn.before) (hleaves : turn.Leaves c')
    (hcall : turn.call.isOfPorts = true) (hclosed : turn.before.router.osdVisible = false)
    (hplace : HeldInPlace (past ++ [turn])) (hslot : slot < Joystick.slotCount)
    (howned : Owned slot turn.before.portSlot (portState past) (slotState slot past)) :
    Owned slot c'.portSlot (portState (past ++ [turn])) (slotState slot (past ++ [turn])) := by
  have hslots := hleaves.takes.2.portSlot
  rw [slotState_snoc, portState_snoc]
  cases hleaves.ports with
  | apart samples states kept =>
    have hstates : turn.states = [] := states.trans (callStates_of_isOfPorts hcall)
    have hreadings : turn.readings = [] := congrArg (List.map _) samples
    rw [hreadings, hstates]
    intro hheld
    obtain ⟨port, hport, hknown⟩ := howned hheld
    refine ⟨port, ?_, hknown⟩
    obtain hsame | ⟨count, now, hcounted, hmoved⟩ := hslots
    · rw [hsame, hport]
    · rw [hmoved, ← hport]
      exact hplace past turn [] rfl count now hcounted port hknown
  | sampled now s₀ s₁ polls samples states kept =>
    have hsame : c'.portSlot = turn.before.portSlot := by
      obtain hsame | ⟨count, now', hcounted, -⟩ := hslots
      · exact hsame
      · cases polls.symm.trans hcounted
    rw [hsame, readings_of_samples samples, Turn.states, states, h.told_round hclosed]
    exact howned.told_changes hslot
      (List.forall_mem_cons.2 ⟨rfl, List.forall_mem_singleton.2 rfl⟩)

/-- Over a life in which no port moves while it is held, every `slot` stays with the port that holds
it. -/
theorem Lives.owned (hlives : Lives (ofSettings s medium) turns c) (halone : PortsAlone turns)
    (hplace : HeldInPlace turns) (hslot : slot < Joystick.slotCount) :
    Owned slot c.portSlot (portState turns) (slotState slot turns) := by
  have hkept : Follows turns c ∧ (HeldInPlace turns →
      Owned slot c.portSlot (portState turns) (slotState slot turns)) := by
    refine hlives.invariant (P := fun past c => Follows past c ∧ (HeldInPlace past →
      Owned slot c.portSlot (portState past) (slotState slot past)))
      ⟨(Lives.nil _).follows ⟨by simp, by simp⟩, fun _ hheld => absurd rfl hheld⟩
      fun past turn hturn c₁ hleaves hpast => ?_
    obtain ⟨hfollows, howned⟩ := hpast
    have hcall := halone.calls turn hturn
    have hclosed := halone.closed turn hturn
    exact ⟨hfollows.step hleaves hcall hclosed, fun hplace =>
      hfollows.owned hleaves hcall hclosed hplace hslot (howned hplace.of_append)⟩
  exact hkept.2 hplace

/-- The turns up to the end of a round that found both ports let go are `past`. -/
def IdleRound (turns past : List Turn) : Prop :=
  ∃ before turn future, turns = before ++ turn :: future ∧ past = before ++ [turn] ∧
    Device.samples turn.words = [(0, ∅), (1, ∅)]

/-- **A slot is released unless it was deserted.**  In every life with nothing but the joystick
ports and any numbers of USB joysticks (`PortsAlone`), after every `IdleRound`, which found both
ports let go, a slot is released just if it was not `Deserted`: no port was held in it that has gone
on in other slots.  If no port is held while it moves to another slot (`HeldInPlace`) then all are
released. -/
theorem slots_released_iff (hlives : Lives (ofSettings s medium) turns c)
    (halone : PortsAlone turns) :
    (∀ past, IdleRound turns past → ∀ slot < Joystick.slotCount,
      slotState slot past = 0 ↔ ¬ Deserted slot (moves past)) ∧
    (HeldInPlace turns → ∀ past, IdleRound turns past → ∀ slot < Joystick.slotCount,
      slotState slot past = 0) := by
  have hround (past : List Turn) (h : IdleRound turns past) :
      (∃ future, turns = past ++ future) ∧ (∃ c, Lives (ofSettings s medium) past c) ∧
        PortsAlone past ∧ ∀ port, portState past port = ∅ := by
    obtain ⟨before, turn, future, rfl, rfl, hsamples⟩ := h
    have hsplit : before ++ turn :: future = (before ++ [turn]) ++ future := by simp
    obtain ⟨-, c₁, -, hpast⟩ := hlives.cut
    have halone : PortsAlone (before ++ [turn]) := (hsplit ▸ halone).of_append
    refine ⟨⟨future, hsplit⟩, ⟨c₁, hpast⟩, halone, fun port => ?_⟩
    have habsent := (hpast.follows halone).absent
    rw [portState_snoc, Turn.readings, hsamples] at habsent ⊢
    match port with
    | 0 => rfl
    | 1 => rfl
    | port + 2 => exact habsent (port + 2) (Nat.le_add_left ..)
  constructor
  · intro past hpast slot hslot
    obtain ⟨-, ⟨c₁, hlives⟩, halone, hidle⟩ := hround past hpast
    exact hlives.slotState_eq_zero_iff halone hidle hslot
  · intro hplace past hpast slot hslot
    obtain ⟨⟨future, hsplit⟩, ⟨c₁, hlives⟩, halone, hidle⟩ := hround past hpast
    by_contra hheld
    obtain ⟨port, -, hport⟩ := hlives.owned halone (hsplit ▸ hplace).of_append hslot hheld
    exact hport (hidle port)

/-- A joystick port is held upwards while a USB joystick comes, which moves it to another slot, and
then let go. -/
def heldAcross : List Turn × Controller :=
  (ofSettings {} ⟨64, true⟩).play
    [(.start, answering 0xa2), (.poll 0, holding 0 (.single .up) 0xa2),
      (.handle (.joystickCount 1) 500, answering 0xa2), (.poll 1000, answering 0xa2)]

theorem heldAcross_ne_nil : heldAcross.1 ≠ [] := by decide +kernel

theorem portsAlone_heldAcross : PortsAlone heldAcross.1 :=
  ⟨by decide +kernel, by decide +kernel⟩

theorem idleRound_heldAcross : IdleRound heldAcross.1 heldAcross.1 :=
  ⟨heldAcross.1.dropLast, heldAcross.1.getLast heldAcross_ne_nil, [],
    (List.dropLast_append_getLast _).symm, (List.dropLast_append_getLast _).symm,
    by decide +kernel⟩

/-- In `heldAcross` the core, which takes joysticks, is told that the new slot is released.  The old
one stays held. -/
theorem left_held :
    Lives (ofSettings {} ⟨64, true⟩) heldAcross.1 heldAcross.2 ∧ PortsAlone heldAcross.1 ∧
      (∀ turn ∈ heldAcross.1.tail, turn.before.profile?.isSome) ∧
      IdleRound heldAcross.1 heldAcross.1 ∧
      heldAcross.1.map (·.states) = [[], [(0, 0x08)], [], [(2, 0)]] ∧
      slotState 0 heldAcross.1 = 0x08 :=
  ⟨lives_play _ _, portsAlone_heldAcross, by decide +kernel, idleRound_heldAcross,
    by decide +kernel, by decide +kernel⟩

/-- Here the port is let go before the USB joystick comes, and held upwards again after. -/
def letGoFirst : List Turn × Controller :=
  (ofSettings {} ⟨64, true⟩).play
    [(.start, answering 0xa2), (.poll 0, holding 0 (.single .up) 0xa2),
      (.poll 500, answering 0xa2), (.handle (.joystickCount 1) 600, answering 0xa2),
      (.poll 1000, holding 0 (.single .up) 0xa2), (.poll 1500, answering 0xa2)]

theorem letGoFirst_ne_nil : letGoFirst.1 ≠ [] := by decide +kernel

theorem heldInPlace_letGoFirst : HeldInPlace letGoFirst.1 := by
  intro past turn future hturns count now hcall port hport
  -- the count comes fourth, and nothing is held by then
  have hcalls : letGoFirst.1.map (·.call) =
      [.start, .poll 0, .poll 500, .handle (.joystickCount 1) 600, .poll 1000, .poll 1500] :=
    play_calls ..
  have hlength : past.length = 3 := by
    rw [hturns, List.map_append, List.map_cons, hcall] at hcalls
    have hget := congrArg (·[past.length]?) hcalls
    rw [List.getElem?_append_right (by simp)] at hget
    simp only [List.length_map, Nat.sub_self, List.getElem?_cons_zero] at hget
    generalize past.length = n at hget
    rcases n with _ | _ | _ | _ | _ | _ | n <;> simp at hget ⊢
  have hpast : past = letGoFirst.1.take 3 := by rw [hturns, ← hlength, List.take_left]
  have hreadings : past.flatMap (·.readings) =
      [⟨0, 0, .single .up⟩, ⟨1, 1, ∅⟩, ⟨0, 0, ∅⟩, ⟨1, 1, ∅⟩] := by
    rw [hpast]
    decide +kernel
  refine absurd ?_ hport
  rw [portState, hreadings]
  match port with
  | 0 => rfl
  | 1 => rfl
  | port + 2 => rfl

/-- In `heldAcross` only slot 0 was deserted.  In `letGoFirst` none stays held. -/
theorem slots_released_iff_heldAcross :
    Deserted 0 (moves heldAcross.1) ∧
      (∀ slot < Joystick.slotCount, slot ≠ 0 → ¬ Deserted slot (moves heldAcross.1)) ∧
      letGoFirst.1.map (·.states) = [[], [(0, 0x08)], [(0, 0)], [], [(2, 0x08)], [(2, 0)]] ∧
      ∀ slot < Joystick.slotCount, slotState slot letGoFirst.1 = 0 := by
  have hlives : Lives (ofSettings {} ⟨64, true⟩) heldAcross.1 heldAcross.2 := lives_play _ _
  have hreleased := (slots_released_iff hlives portsAlone_heldAcross).1 _ idleRound_heldAcross
  refine ⟨?_, fun slot hslot hother => ?_, by decide +kernel, ?_⟩
  · by_contra hdeserted
    have hzero := (hreleased 0 (by decide)).2 hdeserted
    exact absurd hzero (by decide +kernel)
  · refine (hreleased slot hslot).1 ?_
    have hzeros : ∀ i : Fin 256, UInt8.ofFin i ≠ 0 → slotState (.ofFin i) heldAcross.1 = 0 := by
      decide +kernel
    exact hzeros slot.toFin hother
  · have hlives : Lives (ofSettings {} ⟨64, true⟩) letGoFirst.1 letGoFirst.2 := lives_play _ _
    have hidle : IdleRound letGoFirst.1 letGoFirst.1 :=
      ⟨letGoFirst.1.dropLast, letGoFirst.1.getLast letGoFirst_ne_nil, [],
        (List.dropLast_append_getLast _).symm, (List.dropLast_append_getLast _).symm,
        by decide +kernel⟩
    exact (slots_released_iff hlives ⟨by decide +kernel, by decide +kernel⟩).2
      heldInPlace_letGoFirst _ hidle

end IoController.Controller
