import IoController.Controller.Input
import IoController.Proofs.Controller.Speech
import IoController.Proofs.Device.Vocabulary
import IoController.Proofs.Keyboard.Messages

/-!
# Controller — Channels

What a report of a USB device has to say on the two channels of the core that carry state: the
extended joystick commands, and the Atari's keyboard link.

* `Device.extended`, `Device.serial`, `Device.samples`: what the words of a journal come to on
  these channels, and what the joystick ports said.
* `Controller.reportStates`, `Controller.reportMessages`: in a closed form, the joystick states
  and the messages that a report makes.
* `Controller.says_handle`: they are right, whatever the surroundings answer.
-/

namespace IoController

open Device (Says Word Within)

/-! ### Channels -/

namespace Device

variable {ws ws' : List Word}

/-- The slot and the state that an extended joystick command carries. -/
def Word.extended? : Word → Option (UInt8 × UInt32)
  | .command (opcode :: payload) =>
    if 0x60 ≤ opcode ∧ opcode < 0x66 then some (opcode - 0x60, Bytes.ofLittleEndian payload)
    else none
  | _ => none

/-- What is sent over the Atari's keyboard link. -/
def Word.serial? : Word → Option Bytes
  | .command (opcode :: payload) => if opcode = Link.Opcode.ikbd then some payload else none
  | _ => none

/-- The sample of a joystick port. -/
def Word.sample? : Word → Option (Nat × Joystick.State)
  | .sample port state => some (port, state)
  | .command _ => none

/-- The joystick states that are sent in `ws`, in order, each with its slot. -/
def extended (ws : List Word) : List (UInt8 × UInt32) := ws.filterMap Word.extended?

/-- The bytes that are sent in `ws` over the Atari's keyboard link. -/
def serial (ws : List Word) : Bytes := (ws.filterMap Word.serial?).flatten

/-- The samples of the joystick ports in `ws`. -/
def samples (ws : List Word) : List (Nat × Joystick.State) := ws.filterMap Word.sample?

@[simp] theorem extended_append (ws ws' : List Word) :
    extended (ws ++ ws') = extended ws ++ extended ws' := List.filterMap_append

@[simp] theorem serial_append (ws ws' : List Word) :
    serial (ws ++ ws') = serial ws ++ serial ws' := by simp [serial]

@[simp] theorem samples_append (ws ws' : List Word) :
    samples (ws ++ ws') = samples ws ++ samples ws' := List.filterMap_append

/-- Whether a command with this `opcode` is on neither channel: neither over the Atari's keyboard
link nor about an extended joystick state. -/
def isAside (opcode : UInt8) : Bool :=
  opcode != Link.Opcode.ikbd && !(0x60 ≤ opcode && opcode < 0x66)

/-- Nothing is sent on the channels in `ws`, and no joystick port is sampled. -/
structure Silent (ws : List Word) : Prop where
  extended : extended ws = []
  serial : serial ws = []
  samples : samples ws = []

theorem Silent.nil : Silent [] := ⟨rfl, rfl, rfl⟩

/-- Commands from a `vocabulary` that is all aside are silent. -/
theorem Within.silent {vocabulary : List UInt8} (h : Within vocabulary ws)
    (haside : vocabulary.all isAside = true) : Silent ws := by
  have hopcode : ∀ opcode ∈ vocabulary,
      opcode ≠ Link.Opcode.ikbd ∧ ¬ (0x60 ≤ opcode ∧ opcode < 0x66) := by
    intro opcode hmem
    have haside := List.all_eq_true.1 haside opcode hmem
    simp only [isAside, Bool.and_eq_true, bne_iff_ne, Bool.not_eq_true', Bool.and_eq_false_iff,
      decide_eq_false_iff_not] at haside
    exact ⟨haside.1, fun h => haside.2.elim (absurd h.1) (absurd h.2)⟩
  refine ⟨h.filterMap_eq_nil fun opcode hmem _ => if_neg (hopcode opcode hmem).2, ?_,
    h.filterMap_eq_nil fun _ _ _ => rfl⟩
  rw [serial, h.filterMap_eq_nil fun opcode hmem _ => if_neg (hopcode opcode hmem).1]
  rfl

theorem Silent.command {opcode : UInt8} (haside : isAside opcode = true) (payload : Bytes) :
    Silent [.command (opcode :: payload)] :=
  (Within.command (List.mem_singleton_self opcode) payload).silent (by simp [haside])

end Device

namespace Controller

variable {c c' c₁ : Controller} {profile : Profile} {now : Instant} {ws ws' : List Word}
  {messages messages' : List Bytes} {states states' : List (UInt8 × UInt32)}

/-! ### Sending -/

/-- The `profile` is the Atari's, which has the keyboard link. -/
def IsAtari (profile : Profile) : Prop := Core.atariSt.profile? = some profile

/-- Something was sent: `messages` were offered to the Atari's keyboard link, and the joystick
`states` went out.  Only the limiter has changed. -/
structure Output (now : Instant) (messages : List Bytes) (states : List (UInt8 × UInt32))
    (profile : Profile) (c : Controller) (ws : List Word) (c' : Controller) : Prop where
  rest : c' = { c with limiter := c'.limiter }
  extended : Device.extended ws = states
  samples : Device.samples ws = []
  serial : IsAtari profile →
    (Device.serial ws, c'.limiter) = c.limiter.offer now messages.flatten

theorem Output.silent (c : Controller) (h : Device.Silent ws) :
    Output now [] [] profile c ws c :=
  ⟨rfl, h.extended, h.samples, fun _ => by rw [h.serial]; rfl⟩

theorem Output.trans (h : Output now messages states profile c ws c₁)
    (h' : Output now messages' states' profile c₁ ws' c') :
    Output now (messages ++ messages') (states ++ states') profile c (ws ++ ws') c' where
  rest := by rw [h'.rest, h.rest]
  extended := by rw [Device.extended_append, h.extended, h'.extended]
  samples := by rw [Device.samples_append, h.samples, h'.samples]; rfl
  serial hatari := by
    obtain ⟨hfirst, hlimiter⟩ := Prod.mk.inj (h.serial hatari)
    obtain ⟨hrest, hlast⟩ := Prod.mk.inj (h'.serial hatari)
    rw [hlimiter] at hrest hlast
    rw [List.flatten_append, Keyboard.Limiter.offer_append, Device.serial_append, hfirst, hrest,
      hlast]

/-- A command that is on neither channel (`isAside`). -/
theorem says_aside (c : Controller) (profile : Profile) (now : Instant) {opcode : UInt8}
    (h : Device.isAside opcode = true) (payload : Bytes) :
    Says (do
      Link.command opcode payload
      pure c) (Output now [] [] profile c) := by
  refine .bind ((Says.command opcode payload).mono fun ws _ hws => .done ?_)
  rw [hws, List.append_nil]
  exact .silent c (.command h payload)

/-! ### Keys -/

/-- A `value` that comes through the limiter is one byte on the Atari's keyboard link. -/
theorem says_sendLimited (profile : Profile) (value : UInt16) :
    Says (sendLimited profile value) fun ws _ =>
      Device.extended ws = [] ∧ Device.samples ws = [] ∧
        (IsAtari profile → Device.serial ws = [value.toUInt8]) := by
  refine (Says.command _ _).mono fun ws _ hws => ?_
  rw [hws]
  refine ⟨?_, rfl, ?_⟩
  · cases profile.keyboard with
    | amiga =>
      dsimp only
      split <;> rfl
    | _ => rfl
  · rintro ⟨⟩
    rfl

/-- A `value` for the limited link.  On the Atari's it is a message of one byte. -/
theorem says_submit (c : Controller) (profile : Profile) {value : UInt16} {messages : List Bytes}
    (now : Instant)
    (hvalue : IsAtari profile → ∃ b : UInt8, value = b.toUInt16 ∧ messages = [[b]]) :
    Says (c.submit profile value now) (Output now messages [] profile c) := by
  unfold submit
  generalize hsubmit : c.limiter.submit value now = submitted
  obtain ⟨ready, limiter⟩ := submitted
  have hoffer : IsAtari profile →
      c.limiter.offer now messages.flatten = ((ready.map (·.toUInt8)).toList, limiter) := by
    intro hatari
    obtain ⟨b, rfl, rfl⟩ := hvalue hatari
    simp [Keyboard.Limiter.offer, hsubmit]
  cases ready with
  | none =>
    refine .bind (.done (.done ⟨rfl, rfl, rfl, fun hatari => ?_⟩))
    rw [hoffer hatari]
    rfl
  | some value =>
    refine .bind ((says_sendLimited profile value).mono fun ws _ hws => .done ?_)
    obtain ⟨hextended, hsamples, hserial⟩ := hws
    rw [List.append_nil]
    refine ⟨rfl, hextended, hsamples, fun hatari => ?_⟩
    rw [hoffer hatari, hserial hatari]
    rfl

/-- A byte `b` for the Atari's keyboard link. -/
theorem says_submitByte (c : Controller) (profile : Profile) (b : UInt8) (now : Instant) :
    Says (c.submit profile b.toUInt16 now) (Output now [[b]] [] profile c) :=
  says_submit c profile now fun _ => ⟨b, rfl, rfl⟩

/-- A key is a message of one byte, by `serial`. -/
theorem says_sendKey (c : Controller) (profile : Profile) (code : Keyboard.KeyCode) (make : Bool)
    (now : Instant) :
    Says (c.sendKey profile code make now)
      (Output now [[code.serial make]] [] profile c) := by
  unfold sendKey
  cases hkeyboard : profile.keyboard with
  | amiga => exact says_submit c profile now fun hatari => by cases hatari; cases hkeyboard
  | ikbd => exact says_submitByte c profile _ now
  | archie => exact says_submitByte c profile _ now
  | ps2 =>
    dsimp only
    split
    · exact .done ⟨rfl, rfl, rfl, fun hatari => by cases hatari; cases hkeyboard⟩
    · refine (says_aside c profile now rfl _).mono fun ws c' hws => ?_
      exact ⟨hws.rest, hws.extended, hws.samples, fun hatari => by cases hatari; cases hkeyboard⟩
  | none => exact .done ⟨rfl, rfl, rfl, fun hatari => by cases hatari; cases hkeyboard⟩

theorem says_submitBytes (c : Controller) (profile : Profile) (now : Instant) (bytes : Bytes) :
    Says (c.submitBytes profile now bytes) (Output now [bytes] [] profile c) := by
  -- byte by byte a message is many of one byte each, which come to the same
  have hsingle : Says (c.submitBytes profile now bytes)
      (Output now (bytes.map fun b => [b]) [] profile c) := by
    induction bytes generalizing c with
    | nil => exact .done (.silent c .nil)
    | cons b bytes ih =>
      refine .bind ((says_submitByte c profile b now).mono fun ws c₁ hfirst => ?_)
      exact (ih c₁).mono fun ws' c' hrest => hfirst.trans hrest
  refine hsingle.mono fun ws c' hws => ⟨hws.rest, hws.extended, hws.samples, fun hatari => ?_⟩
  rw [hws.serial hatari]
  simp [← List.flatMap_def]

/-! ### Mouse -/

/-- A mouse `packet` is one message. -/
theorem says_sendMouse (c : Controller) (profile : Profile) (packet : Bytes) (now : Instant) :
    Says (c.sendMouse profile packet now) (Output now [packet] [] profile c) := by
  unfold sendMouse
  split
  · exact says_submitBytes c profile now packet
  · next hmouse =>
    refine (says_aside c profile now rfl _).mono fun ws c' hws => ?_
    refine ⟨hws.rest, hws.extended, hws.samples, fun hatari => ?_⟩
    cases hatari
    exact absurd rfl hmouse

/-- Buttons that go as `keys` are a message each. -/
theorem says_sendMouseKeys (c : Controller) (profile : Profile) (now : Instant)
    (keys : List (UInt8 × Bool)) :
    Says (c.sendMouseKeys profile now keys)
      (Output now (keys.map fun key => [Keyboard.KeyCode.serial ⟨key.1.toUInt16⟩ key.2]) []
        profile c) := by
  induction keys generalizing c with
  | nil => exact .done (.silent c .nil)
  | cons key keys ih =>
    refine .bind ((says_sendKey c profile _ key.2 now).mono fun ws c₁ hfirst => ?_)
    exact (ih c₁).mono fun ws' c' hrest => hfirst.trans hrest

/-! ### Joysticks -/

/-- The joystick states that go out with the `state` of `slot`. -/
def joystickStates (c : Controller) (slot : UInt8) (state : Joystick.State) :
    List (UInt8 × UInt32) :=
  if c.joystickSpeaks slot then [(slot, state.bits.toUInt32)] else []

/-- The messages on the Atari's keyboard link that go out with the `state` of `slot`. -/
def joystickMessages (c : Controller) (slot : UInt8) (state : Joystick.State) : List Bytes :=
  if c.joystickSpeaks slot && slot < 2 then [[ikbdJoystickHeader + slot, state.ikbd]] else []

/-- The commands that carry the digital state of a `slot` are not the extended ones. -/
theorem joystickOpcode_lt (slot : UInt8) (h : slot < Joystick.slotCount) :
    joystickOpcode slot < 0x60 :=
  (by decide +kernel : ∀ i : Fin 256, UInt8.ofFin i < Joystick.slotCount →
    joystickOpcode (.ofFin i) < 0x60) slot.toFin h

/-- The command with the extended state of a `slot` tells the slot. -/
theorem extendedOpcode_eq (slot : UInt8) (h : slot < Joystick.slotCount) :
    (0x60 ≤ Link.Opcode.joystickExtended + slot ∧ Link.Opcode.joystickExtended + slot < 0x66) ∧
      Link.Opcode.joystickExtended + slot - 0x60 = slot ∧
        Link.Opcode.joystickExtended + slot ≠ Link.Opcode.ikbd :=
  (by decide +kernel : ∀ i : Fin 256, UInt8.ofFin i < Joystick.slotCount →
    (0x60 ≤ Link.Opcode.joystickExtended + .ofFin i ∧
      Link.Opcode.joystickExtended + .ofFin i < 0x66) ∧
      Link.Opcode.joystickExtended + .ofFin i - 0x60 = UInt8.ofFin i ∧
        Link.Opcode.joystickExtended + .ofFin i ≠ Link.Opcode.ikbd) slot.toFin h

/-- The command of a `slot` from 2 on is not the Atari's keyboard link. -/
theorem joystickOpcode_ne (slot : UInt8) (h : slot < Joystick.slotCount) (hslot : ¬ slot < 2) :
    joystickOpcode slot ≠ Link.Opcode.ikbd :=
  (by decide +kernel : ∀ i : Fin 256, UInt8.ofFin i < Joystick.slotCount → ¬ UInt8.ofFin i < 2 →
    joystickOpcode (.ofFin i) ≠ Link.Opcode.ikbd) slot.toFin h hslot

/-- The bytes of a word, put together again. -/
theorem ofLittleEndian_littleEndian (b : UInt8) :
    Bytes.ofLittleEndian (Bytes.littleEndian b.toUInt32) = b.toUInt32 :=
  (by decide +kernel : ∀ i : Fin 256,
    Bytes.ofLittleEndian (Bytes.littleEndian (UInt8.ofFin i).toUInt32) = (UInt8.ofFin i).toUInt32)
    b.toFin

/-- The digital `state` of one of the first two slots is a message, and that of any other is not. -/
theorem says_sendJoystickState (c : Controller) (profile : Profile) {slot : UInt8}
    (hslot : slot < Joystick.slotCount) (state : Joystick.State) (now : Instant) :
    Says (c.sendJoystickState profile slot state now)
      (Output now (if slot < 2 then [[ikbdJoystickHeader + slot, state.ikbd]] else []) []
        profile c) := by
  unfold sendJoystickState
  by_cases hlow : slot < 2
  · rw [if_pos hlow, decide_eq_true hlow, Bool.and_true]
    split
    · exact says_submitBytes c profile now _
    · next hjoysticks =>
      refine .bind ((Says.command _ _).mono fun ws _ hws => .done ?_)
      have hnot : ¬ (0x60 ≤ joystickOpcode slot ∧ joystickOpcode slot < 0x66) :=
        fun h => absurd (joystickOpcode_lt slot hslot) (UInt8.not_lt.2 h.1)
      rw [hws]
      refine ⟨rfl, List.filterMap_cons_none (if_neg hnot), rfl, fun hatari => ?_⟩
      cases hatari
      exact absurd rfl hjoysticks
  · rw [if_neg hlow, decide_eq_false hlow, Bool.and_false, if_neg Bool.false_ne_true]
    refine says_aside c profile now ?_ _
    have hopcode := joystickOpcode_lt slot hslot
    have hserial := joystickOpcode_ne slot hslot hlow
    simp [Device.isAside, hserial, UInt8.not_le.2 hopcode]

/-- The state of a slot sends what `joystickMessages` and `joystickStates` say. -/
theorem says_sendJoystick (c : Controller) (profile : Profile) (slot : UInt8)
    (state : Joystick.State) (now : Instant) :
    Says (c.sendJoystick profile slot state now)
      (Output now (c.joystickMessages slot state) (c.joystickStates slot state) profile c) := by
  unfold sendJoystick joystickMessages joystickStates joystickSpeaks
  by_cases hheld : Joystick.slotCount ≤ slot ∨ c.router.osdVisible = true
  · rw [if_pos hheld]
    have hsilent : (decide (slot < Joystick.slotCount) && !c.router.osdVisible) = false := by
      rcases hheld with hslot | hvisible
      · rw [decide_eq_false (UInt8.not_lt.2 hslot), Bool.false_and]
      · rw [hvisible, Bool.not_true, Bool.and_false]
    rw [hsilent]
    exact .done (.silent c .nil)
  · rw [if_neg hheld]
    obtain ⟨hle, hvisible⟩ := not_or.1 hheld
    have hslot : slot < Joystick.slotCount := UInt8.not_le.1 hle
    have hsaid : (decide (slot < Joystick.slotCount) && !c.router.osdVisible) = true := by
      rw [decide_eq_true hslot, Bool.eq_false_iff.2 hvisible]
      rfl
    rw [hsaid, Bool.true_and, if_pos rfl]
    obtain ⟨hrange, hback, hserial⟩ := extendedOpcode_eq slot hslot
    refine .bind ((says_sendJoystickState c profile hslot state now).mono fun ws c₁ hstate => ?_)
    refine .bind ((Says.command _ _).mono fun ws' _ hextended => ?_)
    have hsent : Output now [] [(slot, state.bits.toUInt32)] profile c₁ ws' c₁ := by
      rw [hextended]
      refine ⟨rfl, ?_, rfl, fun _ => ?_⟩
      · simp only [Device.extended, Device.Word.extended?, if_pos hrange, hback,
          ofLittleEndian_littleEndian, List.filterMap_cons, List.filterMap_nil]
      · simp [Device.serial, Device.Word.serial?, hserial, Keyboard.Limiter.offer]
    have hboth := hstate.trans hsent
    simp only [List.append_nil, List.nil_append, decide_eq_true_eq] at hboth ⊢
    split
    · refine .bind ((Says.command _ _).mono fun ws'' _ hanalog => .done ?_)
      have haside : Device.Silent ws'' := hanalog ▸ .command rfl _
      have hall := hboth.trans (.silent c₁ haside)
      simp only [List.append_nil, List.append_assoc] at hall ⊢
      exact hall
    · refine .bind (.done (.done ?_))
      rw [List.append_nil, List.append_nil]
      exact hboth

/-! ### Events -/

/-- The joystick states that go out with an event of `c`. -/
def eventStates (c : Controller) : Event → List (UInt8 × UInt32)
  | .joystick port state =>
    if c.profile?.isSome then c.joystickStates (c.portSlot port) state else []
  | _ => []

/-- The messages that an event makes for the Atari's keyboard link. -/
def eventMessages (c : Controller) : Event → List Bytes
  | .key code make => [[code.serial make]]
  | .joystick port state => c.joystickMessages (c.portSlot port) state
  | _ => []

/-- Mouse movement is added up in `mouse`, and other events leave it alone. -/
def moved (mouse : Option Mouse.Accumulator) : Event → Option Mouse.Accumulator
  | .mouse buttons dx dy => mouse.map (·.add buttons dx dy)
  | _ => mouse

/-- The `events` have happened: what they come to by `eventStates` and `eventMessages` was sent, and
the mouse has `moved`. -/
structure Response (now : Instant) (events : List Event) (c : Controller) (ws : List Word)
    (c' : Controller) : Prop where
  rest : c' = { c with
    limiter := c'.limiter, mouse := c'.mouse, mouseKeys := c'.mouseKeys, leds := c'.leds
    restart := c'.restart }
  extended : Device.extended ws = events.flatMap c.eventStates
  samples : Device.samples ws = []
  serial : c.monitor.core = .atariSt →
    (Device.serial ws, c'.limiter) =
      c.limiter.offer now (events.flatMap c.eventMessages).flatten ∧
    c'.mouse = events.foldl moved c.mouse

namespace Response

variable {events events' : List Event}

theorem silent (h : Device.Silent ws)
    (hrest : c' = { c with
      mouse := c'.mouse, mouseKeys := c'.mouseKeys, leds := c'.leds, restart := c'.restart })
    (hstates : events.flatMap c.eventStates = [])
    (hmessages : c.monitor.core = .atariSt → events.flatMap c.eventMessages = [])
    (hmouse : c.monitor.core = .atariSt → c'.mouse = events.foldl moved c.mouse) :
    Response now events c ws c' where
  rest := by rw [hrest]
  extended := by rw [h.extended, hstates]
  samples := h.samples
  serial hatari := by
    rw [h.serial, hmessages hatari, hrest]
    rw [hrest] at hmouse
    exact ⟨rfl, hmouse hatari⟩

theorem trans (h : Response now events c ws c₁) (h' : Response now events' c₁ ws' c') :
    Response now (events ++ events') c (ws ++ ws') c' where
  rest := by rw [h'.rest, h.rest]
  extended := by
    -- what an event comes to depends on nothing that events change
    have hstates : c₁.eventStates = c.eventStates := by
      rw [h.rest]
      funext event
      cases event <;> rfl
    rw [Device.extended_append, h.extended, h'.extended, List.flatMap_append, hstates]
  samples := by rw [Device.samples_append, h.samples, h'.samples]; rfl
  serial hatari := by
    have hmessages : c₁.eventMessages = c.eventMessages := by
      rw [h.rest]
      funext event
      cases event <;> rfl
    have hcore : c₁.monitor.core = .atariSt := by rw [h.rest]; exact hatari
    obtain ⟨hserial, hmouse⟩ := h.serial hatari
    obtain ⟨hserial', hmouse'⟩ := h'.serial hcore
    obtain ⟨hfirst, hlimiter⟩ := Prod.mk.inj hserial
    obtain ⟨hrest, hlast⟩ := Prod.mk.inj hserial'
    rw [hlimiter, hmessages] at hrest hlast
    refine ⟨?_, by rw [hmouse', hmouse, List.foldl_append]⟩
    rw [List.flatMap_append, List.flatten_append, Keyboard.Limiter.offer_append,
      Device.serial_append, hfirst, hrest, hlast]

end Response

theorem isAtari_of_core (hprofile : c.profile? = some profile) (hcore : c.monitor.core = .atariSt) :
    IsAtari profile := by
  rw [IsAtari, ← hcore]
  exact hprofile

/-- What an `event` has sent, if it leaves the mouse alone. -/
theorem Output.response {event : Event} (hprofile : c.profile? = some profile)
    (h : Output now (c.eventMessages event) (c.eventStates event) profile c ws c')
    (hmouse : moved c.mouse event = c.mouse) : Response now [event] c ws c' where
  rest := by rw [h.rest]
  extended := by rw [h.extended, List.flatMap_singleton]
  samples := h.samples
  serial hatari := by
    rw [List.flatMap_singleton]
    refine ⟨h.serial (isAtari_of_core hprofile hatari), ?_⟩
    rw [h.rest]
    exact hmouse.symm

/-- Mouse movement is added up; only the Archimedes takes the `buttons` as keys. -/
theorem says_moveMouse (hprofile : c.profile? = some profile) (buttons : UInt8) (dx dy : Int8)
    (now : Instant) :
    Says (c.moveMouse profile buttons dx dy now) (Response now [.mouse buttons dx dy] c) := by
  unfold moveMouse
  split
  · next hmouse =>
    refine .bind ((says_sendMouseKeys _ profile now _).mono fun ws c₁ hkeys => .done ?_)
    rw [List.append_nil]
    refine ⟨by rw [hkeys.rest], hkeys.extended, hkeys.samples, fun hatari => ?_⟩
    cases isAtari_of_core hprofile hatari
    cases hmouse
  · refine .bind (.done (.done ?_))
    exact .silent .nil rfl rfl (fun _ => rfl) fun _ => rfl

/-- A `request` for a reset that is granted says nothing on the channels. -/
theorem says_reset (c : Controller) (request : Reset) (now : Instant) :
    Says (c.reset request) (Response now [.reset request] c) := by
  have hstill : Response now [.reset request] c [] c :=
    .silent .nil rfl rfl (fun _ => rfl) fun _ => rfl
  cases request with
  | firmware => exact .done (.silent .nil rfl rfl (fun _ => rfl) fun _ => rfl)
  | core held =>
    unfold reset
    dsimp only
    split
    · refine .bind ((Says.host fun _ => rfl).mono fun ws _ hws => .done ?_)
      rwa [hws, List.append_nil]
    · exact .bind (.done (.done hstill))

/-- The firmware's `locks` say nothing on the channels. -/
theorem says_setLeds (c : Controller) (locks : Keyboard.Locks) (on : Bool) (now : Instant) :
    Says (c.setLeds locks on) (Response now [.leds locks on] c) := by
  unfold setLeds
  generalize c.leds.set locks on = set
  obtain ⟨forward, leds⟩ := set
  have hstill : Response now [.leds locks on] c [] { c with leds } :=
    .silent .nil rfl rfl (fun _ => rfl) fun _ => rfl
  dsimp only
  split
  · refine .bind ((Says.host fun _ => rfl).mono fun ws _ hws => .done ?_)
    rwa [hws, List.append_nil]
  · exact .bind (.done (.done hstill))

/-- An event is answered by what `Response` says of it. -/
theorem says_handleEvent (c : Controller) (event : Event) (now : Instant) :
    Says (c.handleEvent event now) (Response now [event] c) := by
  -- without a profile there is no Atari either
  have hnone : c.profile? = none → ¬ c.monitor.core = .atariSt := by
    intro hprofile hatari
    rw [profile?, Core.Monitor.profile?, hatari] at hprofile
    cases hprofile
  unfold handleEvent
  cases event with
  | reset request => exact says_reset c request now
  | osdKey code =>
    refine .bind ((Says.host fun _ => rfl).mono fun ws _ hws => .done ?_)
    rw [hws, List.append_nil]
    exact .silent .nil rfl rfl (fun _ => rfl) fun _ => rfl
  | osdVisible visible =>
    refine .bind ((Says.host fun _ => rfl).mono fun ws _ hws => .done ?_)
    rw [hws, List.append_nil]
    exact .silent .nil rfl rfl (fun _ => rfl) fun _ => rfl
  | leds locks on => exact says_setLeds c locks on now
  | key code make =>
    dsimp only
    cases hprofile : c.profile? with
    | none => exact .done (.silent .nil rfl rfl (fun h => absurd h (hnone hprofile)) fun _ => rfl)
    | some profile =>
      exact (says_sendKey c profile code make now).mono fun ws c' h => h.response hprofile rfl
  | mouse buttons dx dy =>
    dsimp only
    cases hprofile : c.profile? with
    | none =>
      exact .done (.silent .nil rfl rfl (fun _ => rfl) fun h => absurd h (hnone hprofile))
    | some profile => exact says_moveMouse hprofile buttons dx dy now
  | joystick port state =>
    dsimp only
    cases hprofile : c.profile? with
    | none =>
      refine .done (.silent .nil rfl ?_ (fun h => absurd h (hnone hprofile)) fun _ => rfl)
      simp [eventStates, hprofile]
    | some profile =>
      refine (says_sendJoystick c profile _ state now).mono fun ws c' h => ?_
      refine Output.response hprofile ?_ rfl
      simpa [eventStates, eventMessages, hprofile] using h

theorem says_handleEvents (c : Controller) (now : Instant) (events : List Event) :
    Says (c.handleEvents now events) (Response now events c) := by
  induction events generalizing c with
  | nil => exact .done (.silent .nil rfl rfl (fun _ => rfl) fun _ => rfl)
  | cons event events ih =>
    refine .bind ((says_handleEvent c event now).mono fun ws c₁ hfirst => ?_)
    exact (ih c₁).mono fun ws' c' hrest => hfirst.trans hrest

/-! ### Reports -/

/-- The events that a report at `now` comes to, and the controller that they happen to.  A USB
joystick speaks for itself. -/
def reportEvents (c : Controller) (now : Instant) : UsbReport → List Event × Controller
  | .keyboard priority report =>
    let (events, router) := c.router.receive report priority now
    (events, { c with router })
  | .mouse buttons dx dy => ([.mouse buttons dx dy], c)
  | .joystick .. => ([], c)
  | .joystickCount count => ([], { c with usbJoysticks := count })

/-- The joystick states that go out with the report `input`. -/
def reportStates (c : Controller) (now : Instant) (input : UsbReport) : List (UInt8 × UInt32) :=
  match input with
  | .joystick index state =>
    if c.profile?.isSome then c.joystickStates (Joystick.usbSlot index) state else []
  | _ => (c.reportEvents now input).1.flatMap (c.reportEvents now input).2.eventStates

/-- The messages that the report `input` makes for the Atari's keyboard link. -/
def reportMessages (c : Controller) (now : Instant) (input : UsbReport) : List Bytes :=
  match input with
  | .joystick index state => c.joystickMessages (Joystick.usbSlot index) state
  | _ => (c.reportEvents now input).1.flatMap (c.reportEvents now input).2.eventMessages

/-- The report `input` was taken in: what it comes to by `reportStates` and `reportMessages` was
sent, and the joystick ports were left alone. -/
structure Heeds (now : Instant) (input : UsbReport) (c : Controller) (ws : List Word)
    (c' : Controller) : Prop where
  rest : c' = { (c.reportEvents now input).2 with
    limiter := c'.limiter, mouse := c'.mouse, mouseKeys := c'.mouseKeys, leds := c'.leds
    restart := c'.restart }
  extended : Device.extended ws = c.reportStates now input
  samples : Device.samples ws = []
  serial : c.monitor.core = .atariSt →
    (Device.serial ws, c'.limiter) =
      c.limiter.offer now (c.reportMessages now input).flatten ∧
    c'.mouse = (c.reportEvents now input).1.foldl moved c.mouse

/-- **What a report says.**  Whatever the surroundings answer, a report of a USB device sends the
joystick states and offers the Atari's keyboard link the messages that `Heeds` gives in a closed
form, samples no port, and leaves alone what the ports were last. -/
theorem says_handle (c : Controller) (input : UsbReport) (now : Instant) :
    Says (c.handle input now) (Heeds now input c) := by
  unfold handle
  cases input with
  | keyboard priority report =>
    refine (says_handleEvents _ now _).mono fun ws c' h => ?_
    exact ⟨h.rest, h.extended, h.samples, h.serial⟩
  | mouse buttons dx dy =>
    refine (says_handleEvent c _ now).mono fun ws c' h => ?_
    exact ⟨h.rest, h.extended, h.samples, h.serial⟩
  | joystick index state =>
    dsimp only
    cases hprofile : c.profile? with
    | none =>
      refine .done ⟨rfl, ?_, rfl, fun hatari => ?_⟩
      · simp [reportStates, hprofile, Device.extended]
      · rw [profile?, Core.Monitor.profile?, hatari] at hprofile
        cases hprofile
    | some profile =>
      refine (says_sendJoystick c profile _ state now).mono fun ws c' h => ?_
      refine ⟨h.rest.trans (by rw [h.rest]; rfl), ?_, h.samples, fun hatari => ?_⟩
      · simp [reportStates, hprofile, h.extended]
      · refine ⟨h.serial (isAtari_of_core hprofile hatari), ?_⟩
        rw [h.rest]
        rfl
  | joystickCount count => exact .done ⟨rfl, rfl, rfl, fun _ => ⟨rfl, rfl⟩⟩

end Controller

end IoController
