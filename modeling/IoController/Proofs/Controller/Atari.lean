import IoController.Proofs.Controller.Rounds
import IoController.Proofs.Keyboard.Codes
import IoController.Proofs.Mouse.Packets

/-!
# Controller — Atari

What goes over the Atari's keyboard link, on which keys, mouse packets and joysticks share one
queue byte by byte.

* `Controller.Turn.offers`: the messages that a turn makes, each with the room that it finds.
* `Controller.Lives.stream_eq`: of each message the core gets as many bytes as there was room for.
* `Controller.messages_whole_iff`: the core gets whole messages just as long as none finds room
  for some of its bytes but not for all.
-/

namespace IoController

namespace Mouse.Accumulator

/-- The `ikbdHeader` of a mouse packet is one of four bytes. -/
theorem ikbdHeader_bounds (buttons : UInt8) :
    0xf8 ≤ ikbdHeader buttons ∧ ikbdHeader buttons ≤ 0xfb :=
  (by decide +kernel : ∀ i : Fin 256,
    0xf8 ≤ ikbdHeader (.ofFin i) ∧ ikbdHeader (.ofFin i) ≤ 0xfb) buttons.toFin

/-- The Atari's mouse packets begin with a `header` of their own. -/
theorem poll_ikbd {m : Accumulator} (h : m.protocol = .ikbd) {now : Instant} {packet : Bytes}
    (hpacket : (m.poll now).1 = some packet) :
    ∃ header dx dy, packet = [header, dx, dy] ∧ 0xf8 ≤ header ∧ header ≤ 0xfb := by
  rw [poll_eq_some hpacket, Accumulator.packet, h]
  exact ⟨_, _, _, rfl, ikbdHeader_bounds _⟩

end Mouse.Accumulator

namespace Controller

open Device (Deed Word Within)
open Keyboard (IsMessage Layout Limiter Router isCut kept)

variable {c c' : Controller} {turns past : List Turn} {turn : Turn} {now : Instant}

/-! ### What is offered -/

/-- The messages that `call` offers the Atari's keyboard link, each with the room that it finds, if
the joystick ports were sampled as in `samples`. -/
def offering (c : Controller) (samples : List (Nat × Joystick.State)) : Call → List (Nat × Bytes)
  | .handle input now => c.limiter.offers now (c.reportMessages now input)
  | .poll now =>
    match samples with
    | [(_, s₀), (_, s₁)] => (c.limiter.poll now).2.offers now (c.roundMessages now s₀ s₁)
    | _ => []
  | .start | .setOsdVisible _ => []

/-- The messages that the `turn` makes for the Atari's keyboard link, each with the room that it
finds. -/
def Turn.offers (turn : Turn) : List (Nat × Bytes) :=
  turn.before.offering (Device.samples turn.words) turn.call

/-- The messages that the `turn` makes for the Atari's keyboard link. -/
def Turn.messages (turn : Turn) : List Bytes := turn.offers.map (·.2)

/-- What was sent in `turns` over the Atari's keyboard link, and what waits for it in `c`. -/
def stream (turns : List Turn) (c : Controller) : Bytes :=
  turns.flatMap (fun turn => Device.serial turn.words) ++ c.limiter.waiting

/-! ### A controller of the Atari -/

/-- The `mouse`, if there is one, moves in the Atari's packets. -/
def IkbdMouse (mouse : Option Mouse.Accumulator) : Prop := ∀ m ∈ mouse, m.protocol = .ikbd

/-- Whatever moves the `mouse`, it moves in the Atari's packets. -/
theorem IkbdMouse.moved {mouse : Option Mouse.Accumulator} (h : IkbdMouse mouse) (event : Event) :
    IkbdMouse (moved mouse event) := by
  cases event with
  | mouse buttons dx dy =>
    intro m hm
    obtain ⟨m', hm', rfl⟩ := Option.map_eq_some_iff.1 hm
    exact h m' hm'
  | _ => exact h

theorem IkbdMouse.foldl_moved {mouse : Option Mouse.Accumulator} (h : IkbdMouse mouse)
    (events : List Event) : IkbdMouse (events.foldl Controller.moved mouse) :=
  List.foldlRecOn (motive := IkbdMouse) events _ h fun _ hmouse event _ => hmouse.moved event

/-- A packet that is due (`duePacket`) is one of the Atari's, and leaves the mouse one of the
Atari's. -/
theorem IkbdMouse.duePacket {mouse : Option Mouse.Accumulator} (h : IkbdMouse mouse)
    (now : Instant) :
    (∀ packet ∈ (duePacket mouse now).1,
      ∃ header dx dy, packet = [header, dx, dy] ∧ 0xf8 ≤ header ∧ header ≤ 0xfb) ∧
      IkbdMouse (duePacket mouse now).2 := by
  cases mouse with
  | none => exact ⟨fun packet hpacket => (nomatch hpacket), h⟩
  | some m =>
    have hm : m.protocol = .ikbd := h m rfl
    refine ⟨fun packet hpacket => Mouse.Accumulator.poll_ikbd hm hpacket, fun m' hm' => ?_⟩
    obtain rfl := Option.some.inj hm'
    exact (m.protocol_poll now).trans hm

/-- The controller `c` has been readied for the Atari: the keys that are down are the Atari's, the
mouse moves in its packets, and bytes wait for one another. -/
structure Tuned (c : Controller) : Prop where
  core : c.monitor.core = .atariSt
  profile : c.router.profile = Core.atariSt.profile?
  routes : Router.RoutesNamed .atari c.router
  mouse : IkbdMouse c.mouse
  interval : 0 < c.limiter.interval

/-- To `adopt` the Atari is to be readied for it, with nothing that waits. -/
theorem tuned_adopt (h : c.monitor.core = .atariSt) :
    Tuned c.adopt ∧ c.adopt.limiter.waiting = [] := by
  have hprofile : c.profile? = Core.atariSt.profile? := by
    rw [profile?, Core.Monitor.profile?, h]
  refine ⟨⟨h, hprofile, fun _ _ _ hroute => absurd hroute List.not_mem_nil, ?_, ?_⟩, rfl⟩
  · intro m hm
    unfold adopt at hm
    dsimp only at hm
    rw [hprofile] at hm
    cases hm
    rfl
  · unfold adopt
    dsimp only
    rw [hprofile]
    decide

/-! ### What a call makes -/

theorem joystickMessages_isMessage (c : Controller) (slot : UInt8) (state : Joystick.State) :
    ∀ m ∈ c.joystickMessages slot state, IsMessage m := by
  intro m hm
  unfold joystickMessages at hm
  split at hm
  · next hsaid =>
    have hslot : slot < 2 := of_decide_eq_true (Bool.and_eq_true_iff.1 hsaid).2
    rw [List.mem_singleton.1 hm]
    refine .joystick ?_
    exact (by decide +kernel : ∀ i : Fin 256, UInt8.ofFin i < 2 →
      ikbdJoystickHeader + UInt8.ofFin i = 0xfe ∨ ikbdJoystickHeader + UInt8.ofFin i = 0xff)
      slot.toFin hslot
  · exact absurd hm List.not_mem_nil

/-- What is sent for the Atari's own keys and for joysticks (`eventMessages`) are messages. -/
theorem eventMessages_isMessage (c : Controller) {events : List Event}
    (h : Keyboard.EventsNamed .atari events) :
    ∀ m ∈ events.flatMap c.eventMessages, IsMessage m := by
  intro m hm
  obtain ⟨event, hevent, hm⟩ := List.mem_flatMap.1 hm
  cases event with
  | key code make =>
    rw [List.mem_singleton.1 hm]
    exact .key (Keyboard.serial_lt_of_atari (h code make hevent) make)
  | joystick port state => exact c.joystickMessages_isMessage _ state m hm
  | _ => exact absurd hm List.not_mem_nil

namespace Tuned

/-- The keyboard after a `report`, and the events that it made happen, are of the Atari's keys. -/
theorem receive_named (h : Tuned c) (report : Keyboard.Report) (priority : UInt8) (now : Instant) :
    Keyboard.EventsNamed .atari (c.router.receive report priority now).1 ∧
      Router.RoutesNamed .atari (c.router.receive report priority now).2 :=
  Router.receive_named h.profile rfl h.routes report priority now

theorem reportMessages_isMessage (h : Tuned c) (now : Instant) (input : UsbReport) :
    ∀ m ∈ c.reportMessages now input, IsMessage m := by
  cases input with
  | keyboard priority report =>
    exact eventMessages_isMessage _ (h.receive_named report priority now).1
  | mouse buttons dx dy => exact fun m hm => absurd hm List.not_mem_nil
  | joystick index state => exact c.joystickMessages_isMessage _ state
  | joystickCount count => exact fun m hm => absurd hm List.not_mem_nil

theorem roundMessages_isMessage (h : Tuned c) (now : Instant) (s₀ s₁ : Joystick.State) :
    ∀ m ∈ c.roundMessages now s₀ s₁, IsMessage m := by
  intro m hm
  rcases List.mem_append.1 hm with hpacket | hport
  · obtain ⟨header, dx, dy, rfl, hheader⟩ :=
      ((h.mouse.foldl_moved _).duePacket now).1 m (Option.mem_toList.1 hpacket)
    exact .mouse hheader
  · obtain ⟨report, -, hreport⟩ := List.mem_flatMap.1 hport
    exact c.joystickMessages_isMessage _ report.2 m hreport

/-- Whatever was sampled, a call offers `messages`, one after another at one time. -/
theorem offering_eq (h : Tuned c) (samples : List (Nat × Joystick.State)) (call : Call) :
    ∃ (l : Limiter) (now : Instant) (messages : List Bytes), 0 < l.interval ∧
      (∀ m ∈ messages, IsMessage m) ∧ c.offering samples call = l.offers now messages := by
  have hnone : ∃ (l : Limiter) (now : Instant) (messages : List Bytes), 0 < l.interval ∧
      (∀ m ∈ messages, IsMessage m) ∧ [] = l.offers now messages :=
    ⟨c.limiter, 0, [], h.interval, fun m hm => absurd hm List.not_mem_nil, rfl⟩
  cases call with
  | start | setOsdVisible => exact hnone
  | handle input now =>
    exact ⟨c.limiter, now, _, h.interval, h.reportMessages_isMessage now input, rfl⟩
  | poll now =>
    unfold offering
    dsimp only
    split
    · refine ⟨(c.limiter.poll now).2, now, _, ?_, h.roundMessages_isMessage now _ _, rfl⟩
      rw [Limiter.poll_interval]
      exact h.interval
    · exact hnone

end Tuned

/-! ### A call -/

/-- To take in a report keeps a controller the Atari's, and what waited and what is `kept` of the
report's messages is what is sent and what waits then. -/
theorem Tuned.heeds {input : UsbReport} {ws : List Word} (h : Tuned c)
    (heeds : Heeds now input c ws c') : Tuned c' ∧
      c.limiter.waiting ++ (c.limiter.offers now (c.reportMessages now input)).flatMap kept =
        Device.serial ws ++ c'.limiter.waiting := by
  obtain ⟨hserial, hmouse⟩ := heeds.serial h.core
  obtain ⟨hsent, hlimiter⟩ := Prod.mk.inj hserial
  refine ⟨⟨?_, ?_, ?_, ?_, ?_⟩, ?_⟩
  · rw [heeds.rest]
    cases input <;> exact h.core
  · rw [heeds.rest]
    cases input with
    | keyboard priority report =>
      have hkept : (c.router.process report priority now).2.profile = c.router.profile := by
        rw [Router.process_router]
      exact hkept.trans h.profile
    | _ => exact h.profile
  · rw [heeds.rest]
    cases input with
    | keyboard priority report => exact (h.receive_named report priority now).2
    | _ => exact h.routes
  · rw [hmouse]
    exact h.mouse.foldl_moved _
  · rw [hlimiter, Limiter.offer_interval]
    exact h.interval
  · rw [hsent, hlimiter]
    exact Limiter.offers_stream h.interval now _

/-- After a `round` the controller is tuned still, and the bytes for the Atari are those of the
`roundMessages` that found room. -/
theorem Tuned.round {s₀ s₁ : Joystick.State} {ws : List Word} (h : Tuned c)
    (round : Round now s₀ s₁ c ws c') : Tuned c' ∧
      c.limiter.waiting ++
          ((c.limiter.poll now).2.offers now (c.roundMessages now s₀ s₁)).flatMap kept =
        Device.serial ws ++ c'.limiter.waiting := by
  obtain ⟨hsent, hlimiter, hmouse⟩ := round.serial h.core
  have hinterval : 0 < (c.limiter.poll now).2.interval := by
    rw [Limiter.poll_interval]
    exact h.interval
  refine ⟨⟨?_, ?_, ?_, ?_, ?_⟩, ?_⟩
  · rw [round.rest]
    exact h.core
  · rw [round.rest]
    exact h.profile
  · rw [round.rest]
    exact h.routes
  · rw [hmouse]
    exact ((h.mouse.foldl_moved _).duePacket now).2
  · rw [hlimiter, Limiter.offer_interval]
    exact hinterval
  · rw [hsent, hlimiter, c.limiter.poll_stream now, List.append_assoc, List.append_assoc,
      Limiter.offers_stream hinterval]

/-- Until it is started anew a controller stays one of the Atari, and what waited and what is `kept`
of what a call offers is what is sent and what waits then. -/
theorem Tuned.takes {call : Call} {ds : List Deed} (h : Tuned c) (htakes : Takes c call ds c')
    (hcall : call ≠ .start) : Tuned c' ∧
      c.limiter.waiting ++
          (c.offering (Device.samples (Device.words ds)) call).flatMap kept =
        Device.serial (Device.words ds) ++ c'.limiter.waiting := by
  cases htakes with
  | start => exact absurd rfl hcall
  | setOsdVisible =>
    exact ⟨⟨h.core, h.profile, h.routes, h.mouse, h.interval⟩, List.append_nil _⟩
  | handle framed heeds => exact h.heeds heeds
  | @poll now _ _ _ polls =>
    cases polls with
    | restart restart => exact ⟨h, List.append_nil _⟩
    | @checked id extra _ restart =>
      refine ⟨⟨(check_core _ id).trans h.core, h.profile, h.routes, h.mouse, h.interval⟩, ?_⟩
      exact List.append_nil _
    | @round id extra _ _ s₀ s₁ _ restart framed round =>
      have hchecked : Tuned { c with monitor := (c.monitor.check id).2 } :=
        ⟨(check_core _ id).trans h.core, h.profile, h.routes, h.mouse, h.interval⟩
      obtain ⟨htuned, hstream⟩ := hchecked.round round
      refine ⟨htuned, ?_⟩
      rw [Device.words_append, Device.samples_append, Device.serial_append,
        (silent_checking id extra).samples, (silent_checking id extra).serial, round.samples]
      exact hstream

/-! ### A life -/

/-- Over turns none of which is a start, what waited and what is `kept` of what the turns offer is
their `stream`. -/
theorem Tuned.stream_eq (h : Tuned c) (hlives : Lives c turns c')
    (hcalls : ∀ turn ∈ turns, turn.call ≠ .start) : Tuned c' ∧
      c.limiter.waiting ++ (turns.flatMap (·.offers)).flatMap kept = stream turns c' := by
  refine hlives.invariant (P := fun past c' => Tuned c' ∧
    c.limiter.waiting ++ (past.flatMap (·.offers)).flatMap kept = stream past c')
    ⟨h, List.append_nil _⟩ fun past turn hturn c₁ hleaves hpast => ?_
  obtain ⟨hbefore, hstream⟩ := hpast
  obtain ⟨hafter, hturned⟩ := hbefore.takes hleaves.takes.2 (hcalls turn hturn)
  refine ⟨hafter, ?_⟩
  calc c.limiter.waiting ++ ((past ++ [turn]).flatMap (·.offers)).flatMap kept
      = past.flatMap (fun turn => Device.serial turn.words) ++
          (turn.before.limiter.waiting ++ turn.offers.flatMap kept) := by
        rw [List.flatMap_append, List.flatMap_append, ← List.append_assoc, hstream, stream,
          List.append_assoc, List.flatMap_singleton]
    _ = stream (past ++ [turn]) c₁ := by
        rw [Turn.offers, Turn.words, hturned, stream, List.flatMap_append, List.append_assoc,
          List.flatMap_singleton]
        rfl

/-- A life of the Atari: it begins with the start in which the core is found to be one, whatever the
controller `c₀` was before, and is not started anew. -/
structure AtariLife (c₀ : Controller) (first : Turn) (turns : List Turn) (c : Controller) :
    Prop where
  lives : Lives c₀ (first :: turns) c
  starts : first.call = .start
  others : ∀ turn ∈ turns, turn.call ≠ .start
  core : c.monitor.core = .atariSt

namespace AtariLife

variable {c₀ : Controller} {first : Turn} {future : List Turn}

/-- Up to any moment `c'` it is a life of the Atari too. -/
theorem before (h : AtariLife c₀ first (past ++ future) c)
    (hpast : Lives c₀ (first :: past) c') (hfuture : Lives c' future c) :
    AtariLife c₀ first past c' where
  lives := hpast
  starts := h.starts
  others turn hturn := h.others turn (List.mem_append_left future hturn)
  core := by
    rw [← hfuture.core fun turn hturn => h.others turn (List.mem_append_right past hturn)]
    exact h.core

/-- After the `first` turn, the start, nothing was sent, and nothing waits. -/
theorem opened (h : AtariLife c₀ first turns c) : ∃ c₁, Lives c₁ turns c ∧ Tuned c₁ ∧
    c₁.limiter.waiting = [] ∧ Device.serial first.words = [] := by
  obtain ⟨-, c₁, hleaves, hrest⟩ := lives_cons_iff.1 h.lives
  have hcore : c₁.monitor.core = .atariSt := by
    rw [← hrest.core h.others]
    exact h.core
  have htakes := hleaves.takes.2
  rw [h.starts] at htakes
  refine ⟨c₁, hrest, ?_⟩
  unfold Turn.words
  generalize Device.journal first.trace = ds at htakes
  cases htakes with
  | start framed within =>
    obtain ⟨htuned, hwaiting⟩ := tuned_adopt hcore
    exact ⟨htuned, hwaiting, (silent_detection within).serial⟩

/-- The `stream` holds, of each message, the bytes that there was room for. -/
theorem stream_eq (h : AtariLife c₀ first turns c) :
    Tuned c ∧ stream (first :: turns) c = (turns.flatMap (·.offers)).flatMap kept := by
  obtain ⟨c₁, hrest, htuned, hwaiting, hsilent⟩ := h.opened
  have hkept := htuned.stream_eq hrest h.others
  refine ⟨hkept.1, ?_⟩
  rw [hwaiting, List.nil_append] at hkept
  rw [hkept.2, stream, List.flatMap_cons, hsilent]
  rfl

/-- A `turn` begins with a controller of the Atari, and ends at a moment of the life. -/
theorem at_turn (h : AtariLife c₀ first (past ++ turn :: future) c) :
    Tuned turn.before ∧ ∃ c', Lives c₀ (first :: (past ++ [turn])) c' ∧ Lives c' future c := by
  obtain ⟨c₁, hpast, hrest⟩ := lives_append_iff.1
    (show Lives c₀ ((first :: past) ++ turn :: future) c from h.lives)
  obtain ⟨rfl, c', hleaves, hfuture⟩ := lives_cons_iff.1 hrest
  refine ⟨(h.before hpast hrest).stream_eq.1, c', ?_, hfuture⟩
  exact lives_append_iff.2 ⟨_, hpast, .cons hleaves (.nil c')⟩

/-- A turn of the life offers `messages`, one after another at one time. -/
theorem offers_eq (h : AtariLife c₀ first turns c) (hturn : turn ∈ turns) :
    ∃ (l : Limiter) (now : Instant) (messages : List Bytes), 0 < l.interval ∧
      (∀ m ∈ messages, IsMessage m) ∧ turn.offers = l.offers now messages := by
  obtain ⟨past, future, rfl⟩ := List.append_of_mem hturn
  exact h.at_turn.1.offering_eq _ turn.call

/-- Everything that is made for the link is a message, by `IsMessage`. -/
theorem messages_isMessage (h : AtariLife c₀ first turns c) (hturn : turn ∈ turns) :
    ∀ m ∈ turn.messages, IsMessage m := by
  obtain ⟨l, now, messages, -, hmessages, hoffers⟩ := h.offers_eq hturn
  rw [Turn.messages, hoffers, Limiter.offers_map_snd]
  exact hmessages

end AtariLife

/-- The messages of `turns` are those that they offer. -/
theorem flatMap_messages (turns : List Turn) :
    turns.flatMap (·.messages) = (turns.flatMap (·.offers)).map (·.2) := List.map_flatMap.symm

/-- If any turn cuts a message there is a first `turn` that does. -/
theorem exists_first_cut (h : ¬ ∀ turn ∈ turns, ∀ o ∈ turn.offers, isCut o = false) :
    ∃ past turn future o, turns = past ++ turn :: future ∧ o ∈ turn.offers ∧ isCut o = true ∧
      ∀ o ∈ past.flatMap (·.offers), isCut o = false := by
  have hcuts : ∃ turn ∈ turns, turn.offers.any isCut = true := by
    by_contra hnone
    refine h fun turn hturn o ho => Bool.eq_false_iff.2 fun hcut => hnone ⟨turn, hturn, ?_⟩
    exact List.any_eq_true.2 ⟨o, ho, hcut⟩
  obtain ⟨turn, hfound⟩ := Option.isSome_iff_exists.1 (List.find?_isSome.2 hcuts)
  obtain ⟨hturn, past, future, hturns, hpast⟩ := List.find?_eq_some_iff_append.1 hfound
  obtain ⟨o, ho, hcut⟩ := List.any_eq_true.1 hturn
  refine ⟨past, turn, future, o, hturns, ho, hcut, fun o' ho' => ?_⟩
  obtain ⟨turn', hturn', ho'⟩ := List.mem_flatMap.1 ho'
  refine Bool.eq_false_iff.2 fun hcut' => ?_
  have hnone := hpast turn' hturn'
  rw [List.any_eq_true.2 ⟨o', ho', hcut'⟩] at hnone
  exact absurd hnone (by decide)

/-- A moment between two turns of a life that begins with a start: the turns up to it are `past`,
and the controller at it is `c'`. -/
def Moment (c₀ : Controller) (first : Turn) (turns : List Turn) (c : Controller)
    (past : List Turn) (c' : Controller) : Prop :=
  ∃ future, turns = past ++ future ∧ Lives c₀ (first :: past) c' ∧ Lives c' future c

/-- **Whole messages.**  In every `AtariLife`, whatever the surroundings answer, nothing but
messages, by `IsMessage`, is offered to the keyboard link; and at any `Moment` the `stream`, what
was sent and what waits, is of each message the bytes that there was room for (`kept`).  So at every
moment the stream is made of whole messages, in the order in which they were made, just if no
message `o` of the life `isCut`: none has found room for some of its bytes but not for all. -/
theorem messages_whole_iff {c₀ : Controller} {first : Turn}
    (h : AtariLife c₀ first turns c) :
    (∀ turn ∈ turns, ∀ m ∈ turn.messages, IsMessage m) ∧
    (∀ past c', Moment c₀ first turns c past c' →
      stream (first :: past) c' = (past.flatMap (·.offers)).flatMap kept) ∧
    ((∀ past c', Moment c₀ first turns c past c' →
        ∃ messages, List.Sublist messages (past.flatMap (·.messages)) ∧
          stream (first :: past) c' = messages.flatten) ↔
      ∀ turn ∈ turns, ∀ o ∈ turn.offers, isCut o = false) := by
  have hstream (past : List Turn) (c' : Controller) (hmoment : Moment c₀ first turns c past c') :
      stream (first :: past) c' = (past.flatMap (·.offers)).flatMap kept := by
    obtain ⟨future, rfl, hpast, hfuture⟩ := hmoment
    exact (h.before hpast hfuture).stream_eq.2
  refine ⟨fun turn => h.messages_isMessage, hstream, fun hwhole => ?_, fun huncut => ?_⟩
  · by_contra hcut
    obtain ⟨past, turn, future, o, rfl, ho, hcut, hpast⟩ := exists_first_cut hcut
    obtain ⟨-, c', hlives, hfuture⟩ := h.at_turn
    have hmoment : Moment c₀ first (past ++ turn :: future) c (past ++ [turn]) c' :=
      ⟨future, by simp, hlives, hfuture⟩
    obtain ⟨messages, hsublist, hwhole⟩ := hwhole _ c' hmoment
    have hturn : turn ∈ past ++ turn :: future := List.mem_append_right _ List.mem_cons_self
    obtain ⟨l, now, offered, hinterval, hoffered, hoffers⟩ := h.offers_eq hturn
    rw [hoffers] at ho
    rw [hstream _ c' hmoment, List.flatMap_append, List.flatMap_append,
      Keyboard.flatMap_kept hpast, List.flatMap_singleton, hoffers] at hwhole
    refine Limiter.flatten_ne_of_offers hinterval (fun m hm => ?_) (fun m hm => ?_) hoffered ho
      hcut hwhole
    · have hm := (Keyboard.wholes_sublist _).subset hm
      rw [← flatMap_messages] at hm
      obtain ⟨turn', hturn', hm⟩ := List.mem_flatMap.1 hm
      exact h.messages_isMessage (List.mem_append_left _ hturn') m hm
    · obtain ⟨turn', hturn', hm⟩ := List.mem_flatMap.1 (hsublist.subset hm)
      rcases List.mem_append.1 hturn' with hpast | hlast
      · exact h.messages_isMessage (List.mem_append_left _ hpast) m hm
      · obtain rfl := List.mem_singleton.1 hlast
        exact h.messages_isMessage hturn m hm
  · intro past c' hmoment
    rw [hstream past c' hmoment]
    obtain ⟨future, rfl, -⟩ := hmoment
    have hoffers : ∀ o ∈ past.flatMap (·.offers), isCut o = false := by
      intro o ho
      obtain ⟨turn, hturn, ho⟩ := List.mem_flatMap.1 ho
      exact huncut turn (List.mem_append_left future hturn) o ho
    refine ⟨_, ?_, Keyboard.flatMap_kept hoffers⟩
    rw [flatMap_messages]
    exact Keyboard.wholes_sublist _

/-! ### Lives to look at -/

/-- What is carried out by `play` after a start is a life of the Atari, if the core is found to be
one. -/
theorem atariLife_play (c₀ : Controller) (answer : (r : Device.Request) → Device.Reply r)
    (calls : List (Call × ((r : Device.Request) → Device.Reply r)))
    (hcalls : ∀ call ∈ calls, call.1 ≠ .start)
    (hcore : (c₀.play ((.start, answer) :: calls)).2.monitor.core = .atariSt) :
    ∃ first turns, (c₀.play ((.start, answer) :: calls)).1 = first :: turns ∧
      AtariLife c₀ first turns (c₀.play ((.start, answer) :: calls)).2 := by
  refine ⟨_, _, rfl, lives_play c₀ ((.start, answer) :: calls), rfl, fun turn hturn => ?_, hcore⟩
  have hcall := List.mem_map_of_mem (f := (·.call)) hturn
  rw [play_calls] at hcall
  obtain ⟨call, hcall, hsame⟩ := List.mem_map.1 hcall
  exact hsame ▸ hcalls call hcall

/-- A joystick is pressed and let go at once, and time passes. -/
def pressOnce : List (Call × ((r : Device.Request) → Device.Reply r)) :=
  [(.handle (.joystick 0 (.single .up)) 0, answering 0xa3),
    (.handle (.joystick 0 ∅) 0, answering 0xa3), (.poll 2000, answering 0xa3)]

/-- A life of the Atari in which that happens. -/
def pressedOnce : List Turn × Controller :=
  (ofSettings {} ⟨64, true⟩).play ((.start, answering 0xa3) :: pressOnce)

/-- The core hears of both messages of `pressedOnce`. -/
theorem messages_whole_pressedOnce :
    ∃ first turns, pressedOnce.1 = first :: turns ∧
      AtariLife (ofSettings {} ⟨64, true⟩) first turns pressedOnce.2 ∧
      stream (first :: turns) pressedOnce.2 = [0xff, 0x01] ++ [0xff, 0x00] ∧
      ∀ past c', Moment (ofSettings {} ⟨64, true⟩) first turns pressedOnce.2 past c' →
        ∃ messages, List.Sublist messages (past.flatMap (·.messages)) ∧
          stream (first :: past) c' = messages.flatten := by
  have hstream : stream pressedOnce.1 pressedOnce.2 = [0xff, 0x01] ++ [0xff, 0x00] := by
    decide +kernel
  have huncut : ∀ turn ∈ pressedOnce.1, ∀ o ∈ turn.offers, isCut o = false := by decide +kernel
  obtain ⟨first, turns, hturns, hlife⟩ :
      ∃ first turns, pressedOnce.1 = first :: turns ∧
        AtariLife (ofSettings {} ⟨64, true⟩) first turns pressedOnce.2 :=
    atariLife_play _ (answering 0xa3) pressOnce (by simp [pressOnce]) (by decide +kernel)
  rw [hturns] at hstream huncut
  exact ⟨first, turns, hturns, hlife, hstream, (messages_whole_iff hlife).2.2.2
    fun turn hturn => huncut turn (List.mem_cons_of_mem first hturn)⟩

/-- A joystick reports nine times at once that it is pressed. -/
def pressNineTimes : List (Call × ((r : Device.Request) → Device.Reply r)) :=
  .replicate 9 (.handle (.joystick 0 (.ofList [.up, .button1])) 0, answering 0xa3)

/-- A life of the Atari in which that happens. -/
def pressedNineTimes : List Turn × Controller :=
  (ofSettings {} ⟨64, true⟩).play ((.start, answering 0xa3) :: pressNineTimes)

/-- Of the last of the nine messages of `pressedNineTimes` only the header is kept. -/
theorem message_cut :
    ∃ first turns, pressedNineTimes.1 = first :: turns ∧
      AtariLife (ofSettings {} ⟨64, true⟩) first turns pressedNineTimes.2 ∧
      turns.flatMap (·.messages) = List.replicate 9 [0xff, 0x81] ∧
      stream (first :: turns) pressedNineTimes.2 =
        (List.replicate 8 [0xff, 0x81]).flatten ++ [0xff] ∧
      ¬ ∃ messages, List.Sublist messages (turns.flatMap (·.messages)) ∧
        stream (first :: turns) pressedNineTimes.2 = messages.flatten := by
  have hstream : stream pressedNineTimes.1 pressedNineTimes.2 =
      (List.replicate 8 [0xff, 0x81]).flatten ++ [0xff] := by decide +kernel
  have hmessages : pressedNineTimes.1.tail.flatMap (·.messages) =
      List.replicate 9 [0xff, 0x81] := by decide +kernel
  obtain ⟨first, turns, hturns, hlife⟩ :
      ∃ first turns, pressedNineTimes.1 = first :: turns ∧
        AtariLife (ofSettings {} ⟨64, true⟩) first turns pressedNineTimes.2 :=
    atariLife_play _ (answering 0xa3) pressNineTimes (by simp [pressNineTimes])
      (by decide +kernel)
  rw [hturns] at hstream hmessages
  refine ⟨first, turns, hturns, hlife, hmessages, hstream, ?_⟩
  rintro ⟨messages, hsublist, hwhole⟩
  rw [List.tail_cons] at hmessages
  rw [hmessages] at hsublist
  -- messages of two bytes do not come to seventeen
  obtain ⟨n, -, rfl⟩ := List.sublist_replicate_iff.1 hsublist
  rw [hstream] at hwhole
  have hlength : 17 = n * 2 := by simpa using congrArg List.length hwhole
  omega

end Controller

end IoController
