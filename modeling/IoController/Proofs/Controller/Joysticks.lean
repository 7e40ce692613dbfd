import IoController.Proofs.Controller.Rounds

/-!
# Controller — Joysticks

What the core knows of the joysticks, over all that a controller lives through.

* `Controller.slotState`: the state that the last extended command for a slot carried.
* `Controller.Ports`: what a call has to do with the joystick ports.
* `Controller.Abreast`: what the core knows of the joystick ports between two rounds.
* `Controller.ports_catch_up`: once the OSD is closed the core knows the joystick ports as they
  were sampled, whatever was held back meanwhile.
-/

namespace IoController.Controller

open Device (Deed Word)

variable {c c' : Controller} {turns : List Turn} {turn : Turn} {slot : UInt8}

/-! ### What the core was told -/

/-- The joystick states that the `turn` sends, each with its slot. -/
def Turn.states (turn : Turn) : List (UInt8 × UInt32) := Device.extended turn.words

/-- The state of `slot` after more `states` were sent, if it was `known` before. -/
def told (slot : UInt8) (known : UInt32) (states : List (UInt8 × UInt32)) : UInt32 :=
  states.foldl (fun known state => if state.1 = slot then state.2 else known) known

/-- The state that the last extended command for `slot` carried, or none pressed if there was none.
-/
def slotState (slot : UInt8) (turns : List Turn) : UInt32 :=
  told slot 0 (turns.flatMap (·.states))

theorem told_append (slot : UInt8) (known : UInt32) (states states' : List (UInt8 × UInt32)) :
    told slot known (states ++ states') = told slot (told slot known states) states' :=
  List.foldl_append

theorem told_of_ne {known : UInt32} {states : List (UInt8 × UInt32)}
    (h : ∀ state ∈ states, state.1 ≠ slot) : told slot known states = known := by
  refine List.foldlRecOn (motive := fun w => w = known) states _ rfl fun w hw state hstate => ?_
  rw [if_neg (h state hstate), hw]

theorem slotState_snoc (slot : UInt8) (past : List Turn) (turn : Turn) :
    slotState slot (past ++ [turn]) = told slot (slotState slot past) turn.states := by
  rw [slotState, List.flatMap_append, told_append, List.flatMap_singleton]
  rfl

/-! ### Held back while the OSD is open -/

/-- Whether the OSD is open when the frames of the `turn` go out.  The keys of a report are looked
at before anything goes out. -/
def Turn.osdVisible (turn : Turn) : Bool :=
  match turn.call with
  | .handle (.keyboard priority report) now =>
    (turn.before.router.receive report priority now).2.osdVisible
  | _ => turn.before.router.osdVisible

/-- While the OSD is open no joystick `state` goes out. -/
theorem joystickStates_of_visible (h : c.router.osdVisible = true) (slot : UInt8)
    (state : Joystick.State) : c.joystickStates slot state = [] := by
  rw [joystickStates, joystickSpeaks, h, Bool.not_true, Bool.and_false, if_neg Bool.false_ne_true]

/-- While the OSD is open no `event` sends one. -/
theorem eventStates_of_visible (h : c.router.osdVisible = true) (event : Event) :
    c.eventStates event = [] := by
  cases event with
  | joystick port state =>
    rw [eventStates, joystickStates_of_visible h, ite_self]
  | _ => rfl

theorem portStates_append (c : Controller) (reports reports' : List (UInt8 × Joystick.State)) :
    c.portStates (reports ++ reports') = c.portStates reports ++ c.portStates reports' :=
  List.flatMap_append

theorem portStates_of_visible (h : c.router.osdVisible = true)
    (reports : List (UInt8 × Joystick.State)) : c.portStates reports = [] :=
  List.flatMap_eq_nil_iff.2 fun _ _ => joystickStates_of_visible h _ _

/-! ### One turn -/

/-- The joystick states that a call other than a `poll` sends. -/
def callStates (c : Controller) : Call → List (UInt8 × UInt32)
  | .handle input now => c.reportStates now input
  | _ => []

/-- What a call has to do with the joystick ports: it lets them alone (`apart`), or it is a poll
that samples both (`sampled`). -/
inductive Ports (c : Controller) (call : Call) (ws : List Word) (c' : Controller) : Prop where
  | apart (samples : Device.samples ws = []) (states : Device.extended ws = c.callStates call)
      (kept : c'.db9 = c.db9 ∧ c'.osdWasVisible = c.osdWasVisible)
  | sampled (now : Instant) (s₀ s₁ : Joystick.State) (polls : call = .poll now)
      (samples : Device.samples ws = [(0, s₀), (1, s₁)])
      (states : Device.extended ws = c.portStates (portReports c.noteOsd.db9 s₀ s₁).1)
      (kept : c'.db9 = (portReports c.noteOsd.db9 s₀ s₁).2 ∧
        c'.osdWasVisible = c.router.osdVisible)

/-- Every `call` lets the ports alone or samples both. -/
theorem Takes.ports {call : Call} {ds : List Deed} (h : Takes c call ds c') :
    Ports c call (Device.words ds) c' := by
  cases h with
  | start framed within =>
    have hsilent := silent_detection within
    exact .apart hsilent.samples hsilent.extended ⟨rfl, rfl⟩
  | setOsdVisible => exact .apart rfl rfl ⟨rfl, rfl⟩
  | @handle input now _ _ framed heeds =>
    refine .apart heeds.samples heeds.extended ?_
    rw [heeds.rest]
    cases input <;> exact ⟨rfl, rfl⟩
  | @poll now _ _ _ polls =>
    cases polls with
    | restart => exact .apart rfl rfl ⟨rfl, rfl⟩
    | checked => exact .apart rfl rfl ⟨rfl, rfl⟩
    | @round id extra _ _ s₀ s₁ _ restart framed round =>
      refine .sampled now s₀ s₁ rfl ?_ ?_ ?_
      · rw [Device.words_append, Device.samples_append, (silent_checking _ _).samples,
          round.samples, List.nil_append]
      · rw [Device.words_append, Device.extended_append, (silent_checking _ _).extended,
          round.extended, List.nil_append]
        rfl
      · rw [round.rest]
        exact ⟨rfl, rfl⟩

theorem Turn.Leaves.ports (h : turn.Leaves c') : Ports turn.before turn.call turn.words c' :=
  h.takes.2.ports

/-- While the OSD is open no joystick state is sent. -/
theorem Takes.states_of_visible {call : Call} {ds : List Deed} {t : Trace Device}
    {phase? : Option Phase} (h : Takes c call ds c')
    (hvisible : Turn.osdVisible ⟨c, call, t, phase?⟩ = true) :
    Device.extended (Device.words ds) = [] := by
  cases h.ports with
  | sampled now s₀ s₁ polls samples states kept =>
    cases polls
    exact states.trans (portStates_of_visible hvisible _)
  | apart samples states kept =>
    refine states.trans ?_
    cases call with
    | handle input now =>
      cases input with
      | keyboard priority report =>
        exact List.flatMap_eq_nil_iff.2 fun event _ => eventStates_of_visible hvisible event
      | mouse buttons dx dy => rfl
      | joystick index state =>
        rw [callStates, reportStates, joystickStates_of_visible hvisible, ite_self]
      | joystickCount count => rfl
    | _ => rfl

/-! ### The ports -/

theorem zero_lt_portCount : 0 < Joystick.portCount := Nat.zero_lt_two

theorem one_lt_portCount : 1 < Joystick.portCount := Nat.one_lt_two

/-- A `port` that there is, is reported if it has changed or is to be reported anew. -/
theorem sample_eq (d : Joystick.Db9) {port : Nat} (h : port < Joystick.portCount)
    (state : Joystick.State) :
    d.sample port state =
      (if d.last[port]? ≠ some state ∨ d.resendPending = true then some state else none,
        { d with last := d.last.set port state }) := by
  simp [Joystick.Db9.sample, h]

/-- What a round reports of the ports: both if a resend is due, and otherwise those that have
changed.  The port state `d` remembers what was sampled. -/
theorem portReports_eq (d : Joystick.Db9) (s₀ s₁ : Joystick.State) :
    (portReports d s₀ s₁).1 =
      (if d.last[0]? ≠ some s₀ ∨ d.resendPending = true then [(0, s₀)] else []) ++
        (if d.last[1]? ≠ some s₁ ∨ d.resendPending = true then [(1, s₁)] else []) ∧
      (portReports d s₀ s₁).2.last[0]? = some s₀ ∧
      (portReports d s₀ s₁).2.last[1]? = some s₁ := by
  have hfirst := sample_eq d zero_lt_portCount s₀
  have hsecond := sample_eq (d.sample 0 s₀).2 one_lt_portCount s₁
  have hother : (d.sample 0 s₀).2.last[1]? = d.last[1]? := by
    rw [hfirst]
    exact Vector.getElem?_set_ne zero_lt_portCount Nat.zero_ne_one
  have hresend : (d.sample 0 s₀).2.resendPending = d.resendPending := by rw [hfirst]
  rw [hother, hresend] at hsecond
  refine ⟨?_, ?_, ?_⟩
  · show ((d.sample 0 s₀).1.map fun s => ((0 : UInt8), s)).toList ++
      (((d.sample 0 s₀).2.sample 1 s₁).1.map fun s => ((1 : UInt8), s)).toList = _
    rw [hsecond, hfirst]
    congr 1 <;> split <;> rfl
  · show ((d.sample 0 s₀).2.sample 1 s₁).2.last[0]? = _
    rw [hsecond, hfirst]
    exact (Vector.getElem?_set_ne one_lt_portCount Nat.one_ne_zero).trans
      (Vector.getElem?_set_self zero_lt_portCount)
  · show ((d.sample 0 s₀).2.sample 1 s₁).2.last[1]? = _
    rw [hsecond]
    exact Vector.getElem?_set_self one_lt_portCount

/-- With the OSD closed, the `state` of a slot that cores have is told. -/
theorem told_self (hclosed : c.router.osdVisible = false) (hslot : slot < Joystick.slotCount)
    (known : UInt32) (state : Joystick.State) :
    told slot known (c.joystickStates slot state) = state.bits.toUInt32 := by
  simp [joystickStates, joystickSpeaks, hclosed, hslot, told]

/-- What goes out with the `state` of a slot is about that slot. -/
theorem fst_of_mem_joystickStates {state : Joystick.State} {told : UInt8 × UInt32}
    (h : told ∈ c.joystickStates slot state) : told.1 = slot := by
  unfold joystickStates at h
  split at h
  · rw [List.mem_singleton.1 h]
  · exact absurd h List.not_mem_nil

/-- The `state` of another slot tells nothing of this one. -/
theorem told_other {other : UInt8} (hother : other ≠ slot) (known : UInt32)
    (state : Joystick.State) : told slot known (c.joystickStates other state) = known :=
  told_of_ne fun _ hstate => fst_of_mem_joystickStates hstate ▸ hother

/-- A port that may be reported, if `p` holds. -/
theorem told_port (hclosed : c.router.osdVisible = false) (p : Prop) [Decidable p]
    (port : UInt8) (hslot : c.portSlot port < Joystick.slotCount) (known : UInt32)
    (state : Joystick.State) :
    told (c.portSlot port) known (c.portStates (if p then [(port, state)] else [])) =
      if p then state.bits.toUInt32 else known := by
  split
  · rw [portStates, List.flatMap_singleton]
    exact told_self hclosed hslot known state
  · rfl

/-- The report of a `port` that has another slot tells nothing of this one. -/
theorem told_other_port (p : Prop) [Decidable p] {port : UInt8} (hother : c.portSlot port ≠ slot)
    (known : UInt32) (state : Joystick.State) :
    told slot known (c.portStates (if p then [(port, state)] else [])) = known := by
  split
  · rw [portStates, List.flatMap_singleton]
    exact told_other hother known state
  · rfl

/-- Unless the OSD was open when the joystick ports were sampled last, the core knows each port as
it was sampled last, by the `slots` that the ports have. -/
def Abreast (slots : UInt8 → UInt8) (turns : List Turn) (c : Controller) : Prop :=
  c.osdWasVisible = false → ∀ port < Joystick.portCount,
    slots (.ofNat port) < Joystick.slotCount →
    ∃ state, c.db9.last[port]? = some state ∧
      slotState (slots (.ofNat port)) turns = state.bits.toUInt32

namespace Abreast

variable {past : List Turn}

/-- With the OSD closed, a `port` that a round does not report is as the core knows it, or else a
resend would be due. -/
theorem known_of_quiet (h : Abreast c.portSlot past c) (hclosed : c.router.osdVisible = false)
    {port : Nat} (hport : port < Joystick.portCount)
    (hslot : c.portSlot (.ofNat port) < Joystick.slotCount) {state : Joystick.State}
    (hquiet : ¬ (c.noteOsd.db9.last[port]? ≠ some state ∨ c.noteOsd.db9.resendPending = true)) :
    slotState (c.portSlot (.ofNat port)) past = state.bits.toUInt32 := by
  obtain ⟨hlast, hresend⟩ := not_or.1 hquiet
  have hwas : c.osdWasVisible = false := by
    cases hwas : c.osdWasVisible with
    | false => rfl
    | true => exact absurd (by simp [noteOsd, hwas, hclosed, Joystick.Db9.resend]) hresend
  obtain ⟨state', hstate', hknown⟩ := h hwas port hport hslot
  have hsame : c.noteOsd.db9.last[port]? = some state' := by
    rw [noteOsd, hwas]
    exact hstate'
  rw [hknown, Option.some_inj.1 (hsame.symm.trans (not_not.1 hlast))]

/-- A round with the OSD closed tells the core both ports as they were sampled, `s₀` and `s₁`. -/
theorem told_round (h : Abreast c.portSlot past c) (hslots : c.portSlot 0 ≠ c.portSlot 1)
    (hclosed : c.router.osdVisible = false) (s₀ s₁ : Joystick.State) :
    ∀ sample ∈ [(0, s₀), (1, s₁)], c.portSlot (.ofNat sample.1) < Joystick.slotCount →
      told (c.portSlot (.ofNat sample.1)) (slotState (c.portSlot (.ofNat sample.1)) past)
        (c.portStates (portReports c.noteOsd.db9 s₀ s₁).1) = sample.2.bits.toUInt32 := by
  rw [(portReports_eq _ s₀ s₁).1, portStates_append]
  refine List.forall_mem_cons.2 ⟨fun hslot => ?_, List.forall_mem_singleton.2 fun hslot => ?_⟩
  · refine (told_append ..).trans ((told_other_port _ hslots.symm _ s₁).trans ?_)
    refine (told_port hclosed _ 0 hslot _ s₀).trans ?_
    split
    · rfl
    · next hquiet => exact h.known_of_quiet hclosed zero_lt_portCount hslot hquiet
  · refine (told_append ..).trans ((congrArg (told _ · _) (told_other_port _ hslots _ s₀)).trans ?_)
    refine (told_port hclosed _ 1 hslot _ s₁).trans ?_
    split
    · rfl
    · next hquiet => exact h.known_of_quiet hclosed one_lt_portCount hslot hquiet

/-- A round keeps the core `Abreast`. -/
theorem of_round {s₀ s₁ : Joystick.State} (h : Abreast c.portSlot past c)
    (hslots : c.portSlot 0 ≠ c.portSlot 1)
    (hstates : turn.states = c.portStates (portReports c.noteOsd.db9 s₀ s₁).1)
    (hkept : c'.db9 = (portReports c.noteOsd.db9 s₀ s₁).2 ∧
      c'.osdWasVisible = c.router.osdVisible) : Abreast c.portSlot (past ++ [turn]) c' := by
  intro hwas port hport hslot
  rw [hkept.2] at hwas
  have htold := h.told_round hslots hwas s₀ s₁
  rw [← hstates] at htold
  obtain ⟨-, hlast₀, hlast₁⟩ := portReports_eq c.noteOsd.db9 s₀ s₁
  rw [slotState_snoc, hkept.1]
  match port, hport with
  | 0, _ => exact ⟨s₀, hlast₀, htold _ List.mem_cons_self hslot⟩
  | 1, _ => exact ⟨s₁, hlast₁, htold _ (List.mem_cons_of_mem _ (List.mem_singleton_self _)) hslot⟩

/-- What leaves the `slots` of the ports alone keeps the core abreast. -/
theorem of_ne {slots : UInt8 → UInt8} (h : Abreast slots past c)
    (hports : c'.db9 = c.db9 ∧ c'.osdWasVisible = c.osdWasVisible)
    (hstates : ∀ port < Joystick.portCount, ∀ state ∈ turn.states,
      state.1 ≠ slots (.ofNat port)) : Abreast slots (past ++ [turn]) c' := by
  intro hwas port hport hslot
  rw [hports.2] at hwas
  rw [hports.1, slotState_snoc, told_of_ne (hstates port hport)]
  exact h hwas port hport hslot

end Abreast

/-! ### Whole lives -/

/-- No `call` changes the preference. -/
theorem Takes.preferDb9 {call : Call} {ds : List Deed} (h : Takes c call ds c') :
    c'.joystick0PreferDb9 = c.joystick0PreferDb9 := by
  cases h with
  | start | setOsdVisible => rfl
  | @handle input _ _ _ _ heeds =>
    rw [heeds.rest]
    cases input <;> rfl
  | poll polls =>
    cases polls with
    | restart | checked => rfl
    | round _ _ round => rw [round.rest]

/-- The joystick ports keep their slots to themselves: whenever they are sampled there are `count`
USB joysticks, the two slots differ, and no report of a USB device is about them. -/
structure PortsApart (count : UInt8) (preferDb9 : Bool) (turns : List Turn) : Prop where
  counted : ∀ turn ∈ turns, ∀ now, turn.call = .poll now → turn.before.usbJoysticks = count
  differ : Joystick.portSlot 0 count preferDb9 ≠ Joystick.portSlot 1 count preferDb9
  others : ∀ turn ∈ turns, ∀ input now, turn.call = .handle input now →
    ∀ port < Joystick.portCount, ∀ state ∈ turn.states,
      state.1 ≠ Joystick.portSlot (.ofNat port) count preferDb9

theorem PortsApart.of_append {count : UInt8} {preferDb9 : Bool} {past future : List Turn}
    (h : PortsApart count preferDb9 (past ++ future)) : PortsApart count preferDb9 past where
  counted turn hturn := h.counted turn (List.mem_append_left future hturn)
  differ := h.differ
  others turn hturn := h.others turn (List.mem_append_left future hturn)

/-- The slots of the ports (`portSlot`), as a controller has them when it samples them. -/
theorem PortsApart.portSlot_eq {count : UInt8} {preferDb9 : Bool}
    (h : PortsApart count preferDb9 turns) (hturn : turn ∈ turns) (now : Instant)
    (hcall : turn.call = .poll now) (hprefer : turn.before.joystick0PreferDb9 = preferDb9) :
    turn.before.portSlot = (Joystick.portSlot · count preferDb9) := by
  funext port
  rw [portSlot, h.counted turn hturn now hcall, hprefer]

theorem Turn.Leaves.abreast {count : UInt8} {preferDb9 : Bool} {past : List Turn}
    (hleaves : turn.Leaves c') (hturn : turn ∈ turns) (hapart : PortsApart count preferDb9 turns)
    (hprefer : turn.before.joystick0PreferDb9 = preferDb9)
    (h : Abreast (Joystick.portSlot · count preferDb9) past turn.before) :
    Abreast (Joystick.portSlot · count preferDb9) (past ++ [turn]) c' := by
  cases hleaves.ports with
  | apart samples states kept =>
    refine h.of_ne kept fun port hport state hstate => ?_
    cases hcall : turn.call with
    | handle input now => exact hapart.others turn hturn input now hcall port hport state hstate
    | _ =>
      rw [Turn.states, states, hcall] at hstate
      exact absurd hstate List.not_mem_nil
  | sampled now s₀ s₁ polls samples states kept =>
    have hslots := hapart.portSlot_eq hturn now polls hprefer
    rw [← hslots] at h ⊢
    refine h.of_round ?_ states kept
    rw [hslots]
    exact hapart.differ

/-- At the end of a life the core is `Abreast`. -/
theorem Lives.abreast {s : Settings} {medium : Disk.Medium} {count : UInt8}
    (hlives : Lives (ofSettings s medium) turns c)
    (hapart : PortsApart count s.joystick0PreferDb9 turns) :
    Abreast (Joystick.portSlot · count s.joystick0PreferDb9) turns c := by
  have hkept : c.joystick0PreferDb9 = s.joystick0PreferDb9 ∧
      Abreast (Joystick.portSlot · count s.joystick0PreferDb9) turns c := by
    refine hlives.invariant (P := fun past c => c.joystick0PreferDb9 = s.joystick0PreferDb9 ∧
      Abreast (Joystick.portSlot · count s.joystick0PreferDb9) past c) ⟨rfl, ?_⟩
      fun past turn hturn c₁ hleaves hpast => ?_
    · -- nothing was sampled, and nothing was told
      intro _ port hport _
      exact ⟨∅, Vector.getElem?_replicate.trans (if_pos hport), rfl⟩
    · exact ⟨hleaves.takes.2.preferDb9.trans hpast.1,
        hleaves.abreast hturn hapart hpast.1 hpast.2⟩
  exact hkept.2

/-- Only a round samples the joystick ports, and it remembers what it has sampled. -/
theorem Takes.sampled {call : Call} {ds : List Deed} (h : Takes c call ds c') {port : Nat}
    {state : Joystick.State} (hsample : (port, state) ∈ Device.samples (Device.words ds)) :
    c'.osdWasVisible = c.router.osdVisible ∧ port < Joystick.portCount ∧
      c'.db9.last[port]? = some state := by
  cases h.ports with
  | apart samples states kept =>
    rw [samples] at hsample
    exact absurd hsample List.not_mem_nil
  | sampled now s₀ s₁ polls samples states kept =>
    rw [samples] at hsample
    obtain ⟨-, hlast₀, hlast₁⟩ := portReports_eq c.noteOsd.db9 s₀ s₁
    rw [kept.1]
    refine ⟨kept.2, ?_⟩
    rcases List.mem_cons.1 hsample with hfirst | hsecond
    · obtain ⟨rfl, rfl⟩ := Prod.mk.inj hfirst
      exact ⟨zero_lt_portCount, hlast₀⟩
    · obtain ⟨rfl, rfl⟩ := Prod.mk.inj (List.mem_singleton.1 hsecond)
      exact ⟨one_lt_portCount, hlast₁⟩

/-- **Joystick ports catch up.**  In every life in which the ports keep their slots to themselves
(`PortsApart`), whatever was sampled and held back while the OSD was open, and however it was opened
and closed: after every `turn` that sampled the ports with the OSD closed, the core knows each port
that has a slot as it was sampled, by `slotState`.  While the OSD is open (`osdVisible`) no joystick
state is sent at all. -/
theorem ports_catch_up {s : Settings} {medium : Disk.Medium} {count : UInt8}
    (hlives : Lives (ofSettings s medium) turns c)
    (hapart : PortsApart count s.joystick0PreferDb9 turns) :
    (∀ past turn future, turns = past ++ turn :: future →
      turn.before.router.osdVisible = false →
      ∀ port state, (port, state) ∈ Device.samples turn.words →
        port < Joystick.portCount ∧
          (Joystick.portSlot (.ofNat port) count s.joystick0PreferDb9 < Joystick.slotCount →
            slotState (Joystick.portSlot (.ofNat port) count s.joystick0PreferDb9)
              (past ++ [turn]) = state.bits.toUInt32)) ∧
      ∀ turn ∈ turns, turn.osdVisible = true → turn.states = [] := by
  refine ⟨?_, fun turn hturn hvisible => ?_⟩
  · rintro past turn future rfl hclosed port state hsample
    obtain ⟨-, c₁, hleaves, hpast⟩ := hlives.cut
    obtain ⟨hwas, hport, hlast⟩ := hleaves.takes.2.sampled hsample
    have hsplit : past ++ turn :: future = (past ++ [turn]) ++ future := by simp
    have hapart : PortsApart count s.joystick0PreferDb9 (past ++ [turn]) :=
      (hsplit ▸ hapart).of_append
    refine ⟨hport, fun hslot => ?_⟩
    obtain ⟨state', hstate', hknown⟩ := hpast.abreast hapart (hwas.trans hclosed) port hport hslot
    rw [hknown, Option.some_inj.1 (hstate'.symm.trans hlast)]
  · obtain ⟨-, c₁, htakes⟩ := hlives.takes turn hturn
    exact htakes.states_of_visible hvisible

/-- Surroundings in which the joystick port `port` is held in `state`. -/
def holding (port : Nat) (state : Joystick.State) (byte : UInt8) :
    (r : Device.Request) → Device.Reply r
  | .host (.readDb9 sampled) => if sampled = port then state else ∅
  | r => answering byte r

/-- The joystick port is held to the right while the OSD is open, and still when it has closed. -/
def heldRight : List Turn × Controller :=
  (ofSettings {} ⟨64, true⟩).play
    [(.start, answering 0xa2), (.setOsdVisible true, answering 0xa2),
      (.poll 0, holding 1 (.single .right) 0xa2), (.setOsdVisible false, answering 0xa2),
      (.poll 1000, holding 1 (.single .right) 0xa2)]

theorem heldRight_ne_nil : heldRight.1 ≠ [] := by decide +kernel

/-- In `heldRight` nothing is sent at first, and both ports after the OSD has closed. -/
theorem ports_catch_up_heldRight :
    Lives (ofSettings {} ⟨64, true⟩) heldRight.1 heldRight.2 ∧ PortsApart 0 false heldRight.1 ∧
      heldRight.1.map (·.states) = [[], [], [], [], [(0, 0), (1, 0x01)]] ∧
      slotState 1 heldRight.1 = 0x01 := by
  have hlives : Lives (ofSettings {} ⟨64, true⟩) heldRight.1 heldRight.2 := lives_play _ _
  have hapart : PortsApart 0 false heldRight.1 := by
    have hcounted : ∀ turn ∈ heldRight.1, turn.before.usbJoysticks = 0 := by decide +kernel
    refine ⟨fun turn hturn _ _ => hcounted turn hturn, by decide, ?_⟩
    intro turn hturn input now hcall
    have hmem : turn.call ∈ heldRight.1.map (·.call) := List.mem_map_of_mem hturn
    rw [heldRight, play_calls, hcall] at hmem
    simp at hmem
  have hlast := (ports_catch_up hlives hapart).1 heldRight.1.dropLast
    (heldRight.1.getLast heldRight_ne_nil) [] (List.dropLast_append_getLast _).symm
    (by decide +kernel) 1 (.single .right) (by decide +kernel)
  rw [List.dropLast_append_getLast] at hlast
  exact ⟨hlives, hapart, by decide +kernel, hlast.2 (by decide)⟩

end IoController.Controller
