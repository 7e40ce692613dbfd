import IoController.Proofs.Bits
import IoController.Proofs.Mouse.Packets

/-!
# Mouse — Buttons

What a core gets to see of the mouse buttons.  A packet shows the buttons of all reports since the
packet before it, so that no click is too short to be seen.  Whether there is anything to send
depends on the movement alone.

* `Accumulator.Remembers`: the buttons that a mouse keeps are told from what it lived through.
* `Accumulator.buttons_settle_iff`: when there is nothing left to send, the core knows the buttons
  as they are just if none that the last packet shows was let go before it left.
  `Accumulator.click_held_down` shows one that was.
-/

namespace IoController.Mouse

/-! ### Buttons among others -/

namespace Among

variable {b c d : UInt8}

theorem refl (b : UInt8) : Among b b := UInt8.and_self

theorem trans (h : Among b c) (h' : Among c d) : Among b d := by
  calc b &&& d = b &&& c &&& d := by rw [h]
    _ = b &&& (c &&& d) := UInt8.and_assoc b c d
    _ = b := by rw [h', h]

theorem antisymm (h : Among b c) (h' : Among c b) : b = c := by
  calc b = b &&& c := h.symm
    _ = c &&& b := UInt8.and_comm b c
    _ = c := h'

theorem left (b c : UInt8) : Among b (b ||| c) := and_or_self b c

theorem right (b c : UInt8) : Among c (b ||| c) := by
  rw [UInt8.or_comm]
  exact left c b

theorem or (h : Among b d) (h' : Among c d) : Among (b ||| c) d := by
  rw [Among, or_and, h, h']

end Among

/-- The buttons that are down in any report of a `frame`, if it has any reports. -/
def union? (frame : List UInt8) : Option UInt8 :=
  frame.foldl (fun down? b => some (down?.getD 0 ||| b)) none

section Union

variable {frame : List UInt8} {b c : UInt8}

theorem union?_snoc (frame : List UInt8) (b : UInt8) :
    union? (frame ++ [b]) = some ((union? frame).getD 0 ||| b) := by
  simp [union?]

/-- The buttons are `Among` those given just if those of every report are. -/
theorem among_union? (frame : List UInt8) (c : UInt8) :
    (∀ down ∈ union? frame, Among down c) ↔ ∀ b ∈ frame, Among b c := by
  induction frame using List.reverseRecOn with
  | nil => exact ⟨fun _ b hb => (nomatch hb), fun _ down hdown => (nomatch hdown)⟩
  | append_singleton frame b ih =>
    have hunion : (∀ down ∈ union? (frame ++ [b]), Among down c) ↔
        Among ((union? frame).getD 0 ||| b) c := by
      simp [union?_snoc]
    have hzero : Among 0 c := UInt8.zero_and
    have hframe : Among ((union? frame).getD 0) c ↔ ∀ down ∈ union? frame, Among down c := by
      cases union? frame with
      | none => exact ⟨fun _ down hdown => (nomatch hdown), fun _ => hzero⟩
      | some down => simp
    rw [hunion, List.forall_mem_append, List.forall_mem_singleton, ← ih, ← hframe]
    constructor
    · exact fun h => ⟨(Among.left _ _).trans h, (Among.right _ _).trans h⟩
    · exact fun h => h.1.or h.2

theorem among_of_union? {down : UInt8} (h : union? frame = some down) (c : UInt8) :
    Among down c ↔ ∀ b ∈ frame, Among b c := by
  rw [← among_union?, h]
  exact ⟨fun hdown _ hmem => Option.some.inj hmem ▸ hdown, fun hall => hall down rfl⟩

theorem exists_union? (h : frame ≠ []) : ∃ down, union? frame = some down := by
  induction frame using List.reverseRecOn with
  | nil => exact absurd rfl h
  | append_singleton frame b _ => exact ⟨_, union?_snoc frame b⟩

end Union

/-! ### Buttons in a packet -/

/-- The flags of an axis are apart from a `mask` of bits that are neither of them. -/
theorem ps2Flags_apart (n : Int) {sign overflow mask : UInt8} (hsign : sign &&& mask = 0)
    (hoverflow : overflow &&& mask = 0) : Accumulator.ps2Flags n sign overflow &&& mask = 0 := by
  unfold Accumulator.ps2Flags
  rw [or_and]
  split <;> split <;> simp [hsign, hoverflow]

theorem ikbd_buttons (b : UInt8) (hb : b &&& 0x03 = b) :
    packetButtons .ikbd [Accumulator.ikbdHeader b] = b := by
  have hall : ∀ i : Fin 256, UInt8.ofFin i &&& 0x03 = UInt8.ofFin i →
      packetButtons .ikbd [Accumulator.ikbdHeader (.ofFin i)] = .ofFin i := by
    decide +kernel
  exact hall b.toFin hb

namespace Accumulator

/-- A packet shows the buttons `b` that it is made with. -/
theorem packetButtons_packet {m : Accumulator} (h : m.protocol ≠ .archie) {b : UInt8}
    (hb : b &&& 0x03 = b) : packetButtons m.protocol (m.packet b) = b := by
  unfold packet
  cases hprotocol : m.protocol with
  | minimig => rfl
  | ikbd => exact ikbd_buttons b hb
  | archie => exact absurd hprotocol h
  | ps2 =>
    have hx : ps2Flags m.x 0x10 0x40 &&& 0x03 = 0 := ps2Flags_apart m.x (by decide) (by decide)
    have hy : ps2Flags m.y 0x20 0x80 &&& 0x03 = 0 := ps2Flags_apart m.y (by decide) (by decide)
    have hfixed : (0x08 : UInt8) &&& 0x03 = 0 := by decide
    change (0x08 ||| b ||| ps2Flags m.x 0x10 0x40 ||| ps2Flags m.y 0x20 0x80) &&& 0x03 = b
    rw [or_and, or_and, or_and, hx, hy, hfixed, hb, UInt8.zero_or, UInt8.or_zero, UInt8.or_zero]

/-! ### What was reported since -/

/-- The `turns` since the last packet. -/
def sinceLast (turns : List Turn) : List Turn := turns.rtakeWhile (·.packet?.isNone)

/-- The `turns` up to the last packet, that of the packet included. -/
def untilLast (turns : List Turn) : List Turn := turns.rdropWhile (·.packet?.isNone)

/-- The reports in `turns` between the last packet and the packet before it. -/
def lastFrame (turns : List Turn) : List UInt8 := reports (sinceLast (untilLast turns).dropLast)

/-- The buttons as the user holds them, by the last report in `turns`. -/
def held (turns : List Turn) : UInt8 := (reports turns).getLast?.getD 0

/-- The buttons as the core knows them, by the last packet of `turns`. -/
def seen (protocol : MouseProtocol) (turns : List Turn) : UInt8 :=
  (packets turns).getLast?.elim 0 (packetButtons protocol)

variable {turns past : List Turn} {turn : Turn} {m : Accumulator}

section NoPacket

variable (h : turn.packet? = none)
include h

theorem sinceLast_snoc_of_none : sinceLast (turns ++ [turn]) = sinceLast turns ++ [turn] := by
  simp [sinceLast, h]

theorem untilLast_snoc_of_none : untilLast (turns ++ [turn]) = untilLast turns := by
  simp [untilLast, h]

theorem packets_snoc_of_none : packets (turns ++ [turn]) = packets turns := by
  rw [packets_snoc, h]
  exact List.append_nil _

end NoPacket

section Packet

variable {packet : Bytes} (h : turn.packet? = some packet)
include h

theorem sinceLast_snoc_of_some : sinceLast (turns ++ [turn]) = [] := by
  simp [sinceLast, h]

theorem untilLast_snoc_of_some : untilLast (turns ++ [turn]) = turns ++ [turn] := by
  simp [untilLast, h]

theorem lastFrame_snoc_of_some : lastFrame (turns ++ [turn]) = reports (sinceLast turns) := by
  rw [lastFrame, untilLast_snoc_of_some h, List.dropLast_concat]

theorem packets_snoc_of_some : packets (turns ++ [turn]) = packets turns ++ [packet] := by
  rw [packets_snoc, h]
  rfl

end Packet

theorem reports_snoc_poll (turns : List Turn) (m : Accumulator) (now : Instant) :
    reports (turns ++ [⟨m, .poll now⟩]) = reports turns :=
  (reports_snoc turns _).trans (List.append_nil _)

/-- Every report in `turns` is one before the last packet or one after it. -/
theorem reports_untilLast (turns : List Turn) :
    reports (untilLast turns) ++ reports (sinceLast turns) = reports turns := by
  rw [reports, reports, ← List.filterMap_append]
  exact congrArg reports List.rdropWhile_append_rtakeWhile

/-- A report has no buttons but the left and the right one. -/
theorem reports_within : ∀ b ∈ reports turns, b &&& 0x03 = b := by
  intro b hb
  obtain ⟨turn, -, hreport⟩ := List.mem_filterMap.1 hb
  cases hcall : turn.call with
  | poll now =>
    rw [hcall] at hreport
    cases hreport
  | add buttons dx dy =>
    rw [hcall] at hreport
    obtain rfl : buttons &&& 0x03 = b := Option.some.inj hreport
    rw [UInt8.and_assoc, UInt8.and_self]

/-! ### What a mouse remembers -/

/-- What the mouse `m` keeps of its life, and what the core was shown of it. -/
structure Remembers (turns : List Turn) (m : Accumulator) : Prop where
  frame : m.frameButtons = union? (reports (sinceLast turns))
  latest : m.latestButtons = held turns
  settled : m.pending = false → reports (sinceLast turns) = []
  /-- The last packet showed the buttons of its frame, and if that had no report those of the last
  report before it. -/
  shown : ∀ packet ∈ (packets turns).getLast?,
    packetButtons m.protocol packet = (union? (lastFrame turns)).getD (held (untilLast turns))
  /-- The reports of that frame were the last ones by then. -/
  framed : lastFrame turns <:+ reports (untilLast turns)

namespace Remembers

theorem shown_within (h : Remembers turns m) : m.shown &&& 0x03 = m.shown := by
  have hheld : Among (held turns) 0x03 := by
    rw [held]
    cases hlast : (reports turns).getLast? with
    | none => exact UInt8.zero_and
    | some b => exact reports_within b (List.mem_of_getLast? hlast)
  rw [Accumulator.shown, h.frame, h.latest]
  cases hunion : union? (reports (sinceLast turns)) with
  | none => exact hheld
  | some down => exact (among_union? _ 0x03).2 reports_within down hunion

theorem initial (protocol : MouseProtocol) : Remembers [] { protocol } where
  frame := rfl
  latest := rfl
  settled _ := rfl
  shown _ hpacket := nomatch hpacket
  framed := List.nil_suffix

/-- A `turn` that returns no packet leaves the last packet what it was. -/
theorem of_none (h : Remembers past m) {m' : Accumulator} (hnone : turn.packet? = none)
    (hprotocol : m'.protocol = m.protocol)
    (frame : m'.frameButtons = union? (reports (sinceLast past ++ [turn])))
    (latest : m'.latestButtons = held (past ++ [turn]))
    (settled : m'.pending = false → reports (sinceLast past ++ [turn]) = []) :
    Remembers (past ++ [turn]) m' where
  frame := by rw [sinceLast_snoc_of_none hnone, frame]
  latest := latest
  settled hpending := by rw [sinceLast_snoc_of_none hnone, settled hpending]
  shown := by
    rw [packets_snoc_of_none hnone, hprotocol, lastFrame, untilLast_snoc_of_none hnone]
    exact h.shown
  framed := by
    rw [lastFrame, untilLast_snoc_of_none hnone]
    exact h.framed

/-- A look that finds no packet changes no more than the time of the `next` one. -/
theorem idle (h : Remembers past m) (next : Deadline) {now : Instant}
    (hnone : Turn.packet? ⟨m, .poll now⟩ = none) :
    Remembers (past ++ [⟨m, .poll now⟩]) { m with next } := by
  refine h.of_none hnone rfl ?_ ?_ fun hpending => ?_
  · rw [reports_snoc_poll]
    exact h.frame
  · rw [held, reports_snoc_poll]
    exact h.latest
  · rw [reports_snoc_poll]
    exact h.settled hpending

/-- A report is remembered with its `buttons`. -/
theorem add (h : Remembers past m) {buttons : UInt8} {dx dy : Int8} :
    Remembers (past ++ [⟨m, .add buttons dx dy⟩]) (m.add buttons dx dy) := by
  have hreported : ∀ turns, reports (turns ++ [⟨m, .add buttons dx dy⟩]) =
      reports turns ++ [buttons &&& 0x03] := fun turns => reports_snoc turns _
  refine h.of_none rfl rfl ?_ ?_ fun hpending => nomatch hpending
  · rw [hreported, union?_snoc, ← h.frame]
    rfl
  · rw [held, hreported, List.getLast?_append_cons]
    rfl

/-- A packet that is `spent` shows what was reported since the one before, or else what was reported
last. -/
theorem spent (h : Remembers past m) (hprotocol : m.protocol ≠ .archie) {now : Instant}
    (hpacket : Turn.packet? ⟨m, .poll now⟩ = some (m.packet m.shown)) :
    Remembers (past ++ [⟨m, .poll now⟩]) (m.spent now) where
  frame := by
    rw [sinceLast_snoc_of_some hpacket]
    rfl
  latest := by
    rw [held, reports_snoc_poll]
    exact h.latest
  settled _ := by
    rw [sinceLast_snoc_of_some hpacket]
    rfl
  shown := by
    rw [packets_snoc_of_some hpacket, List.getLast?_append_cons]
    intro packet hmem
    obtain rfl : m.packet m.shown = packet := Option.some.inj hmem
    rw [lastFrame_snoc_of_some hpacket, untilLast_snoc_of_some hpacket, held, reports_snoc_poll,
      ← h.frame]
    change _ = m.frameButtons.getD (held past)
    rw [← h.latest]
    exact packetButtons_packet hprotocol h.shown_within
  framed := by
    rw [lastFrame_snoc_of_some hpacket, untilLast_snoc_of_some hpacket, reports_snoc_poll]
    exact (List.rtakeWhile_suffix _ past).filterMap _

/-- Every `call` is remembered. -/
theorem perform (h : Remembers past m) (hprotocol : m.protocol ≠ .archie) (call : Call) :
    Remembers (past ++ [⟨m, call⟩]) (m.perform call).2 := by
  have hcourse := m.course call
  have hpacket : Turn.packet? ⟨m, call⟩ = (m.perform call).1 := rfl
  generalize (m.perform call).1 = answer, (m.perform call).2 = m' at hcourse hpacket ⊢
  cases hcourse with
  | added => exact h.add
  | early waits => exact h.idle m.next hpacket
  | rested due nothing => exact h.idle _ hpacket
  | sent due something => exact h.spent hprotocol hpacket

end Remembers

/-- Every life of a mouse whose packets show the buttons is remembered. -/
theorem remembers_run {protocol : MouseProtocol} (h : protocol ≠ .archie) (calls : List Call) :
    Remembers (({ protocol } : Accumulator).run calls).1
      (({ protocol } : Accumulator).run calls).2 := by
  refine (run_induction (P := fun turns m => m.protocol = protocol ∧ Remembers turns m)
    ⟨rfl, .initial protocol⟩ (fun past m call hpast => ?_) calls).2
  obtain ⟨hprotocol, hremembers⟩ := hpast
  exact ⟨(m.course call).protocol_eq.trans hprotocol,
    hremembers.perform (hprotocol.symm ▸ h) call⟩

/-- Where there is nothing to send, looks at any `times` find no packet. -/
theorem packets_polls (h : m.pending = false) (times : List Instant) :
    packets (m.run (times.map .poll)).1 = [] := by
  induction times generalizing m with
  | nil => rfl
  | cons now times ih =>
    have hcourse := m.course (.poll now)
    rw [List.map_cons, run, packets_cons]
    change (m.perform (.poll now)).1.toList ++ _ = []
    generalize (m.perform (.poll now)).1 = answer, (m.perform (.poll now)).2 = m' at hcourse ⊢
    cases hcourse with
    | early waits => exact ih h
    | rested due nothing => exact ih nothing
    | sent due something => cases h.symm.trans something

theorem untilLast_of_no_packet (h : packets turns = []) : untilLast turns = [] :=
  List.rdropWhile_eq_nil_iff.2 fun turn hturn =>
    Option.isNone_iff_eq_none.2 (List.filterMap_eq_nil_iff.1 h turn hturn)

/-- The core knows the buttons as they are just if the last packet showed no others (`lastFrame`).
-/
theorem Remembers.seen_eq_held_iff (h : Remembers turns m) (hsettled : m.pending = false) :
    seen m.protocol turns = held turns ↔ ∀ b ∈ lastFrame turns, Among b (held turns) := by
  -- no report came since the last packet, so the last one is older than that
  have hreports : reports (untilLast turns) = reports turns := by
    rw [← reports_untilLast turns, h.settled hsettled, List.append_nil]
  have hframed := h.framed
  rw [hreports] at hframed
  cases hlast : (packets turns).getLast? with
  | none =>
    have hnothing : reports turns = [] := by
      rw [← hreports, untilLast_of_no_packet (List.getLast?_eq_none_iff.1 hlast)]
      rfl
    rw [hnothing] at hframed
    rw [seen, held, hlast, hnothing, List.suffix_nil.1 hframed]
    exact ⟨fun _ b hb => (nomatch hb), fun _ => rfl⟩
  | some packet =>
    have hshown := h.shown packet (Option.mem_def.2 hlast)
    rw [held, hreports] at hshown
    rw [seen, hlast, Option.elim_some, hshown]
    by_cases hframe : lastFrame turns = []
    · rw [hframe]
      exact ⟨fun _ b hb => (nomatch hb), fun _ => rfl⟩
    · obtain ⟨down, hdown⟩ := exists_union? hframe
      have hmem : held turns ∈ lastFrame turns := by
        obtain ⟨before, happend⟩ := hframed
        rw [held, ← happend, List.getLast?_append_of_ne_nil _ hframe,
          List.getLast?_eq_some_getLast hframe]
        exact List.getLast_mem hframe
      rw [hdown, Option.getD_some, ← among_of_union? hdown]
      constructor
      · exact fun hsame => hsame ▸ .refl down
      · exact fun hamong => hamong.antisymm ((among_of_union? hdown down).1 (.refl down) _ hmem)

/-- **The buttons in the end.**  Take any life of a mouse whose packets show the buttons.  A packet
shows every button that was down in a report since the packet before (`sinceLast`).  When it is time
for a packet but there is nothing to send, the core knows the buttons as the user holds them
(`seen`, `held`) exactly if each button that was down in the last packet's frame (`lastFrame`) is
down in the last report; and nothing more is sent until the next report. -/
theorem buttons_settle_iff {protocol : MouseProtocol} (h : protocol ≠ .archie) (calls : List Call)
    (now : Instant) :
    let life := ({ protocol } : Accumulator).run calls
    (∀ packet, (life.2.poll now).1 = some packet →
      ∀ b ∈ reports (sinceLast life.1), Among b (packetButtons protocol packet)) ∧
    (life.2.next.reached now = true → (life.2.poll now).1 = none →
      (seen protocol life.1 = held life.1 ↔ ∀ b ∈ lastFrame life.1, Among b (held life.1)) ∧
      ∀ times : List Instant, packets (life.2.run ((now :: times).map .poll)).1 = []) := by
  intro life
  have hlife : Remembers life.1 life.2 := remembers_run h calls
  have hprotocol : life.2.protocol = protocol := run_protocol _ calls
  refine ⟨fun packet hpacket b hb => ?_, fun hdue hnone => ?_⟩
  · obtain ⟨down, hdown⟩ := exists_union? (List.ne_nil_of_mem hb)
    have hshown : life.2.shown = down := by
      rw [shown, hlife.frame, hdown]
      rfl
    rw [poll_eq_some hpacket, ← hprotocol,
      packetButtons_packet (hprotocol.symm ▸ h) hlife.shown_within, hshown]
    exact (among_of_union? hdown down).1 (.refl down) b hb
  · have hsettled : life.2.pending = false := by
      have hsome := life.2.poll_isSome now
      rw [hnone, hdue] at hsome
      exact hsome.symm
    refine ⟨?_, fun times => packets_polls hsettled _⟩
    rw [← hprotocol]
    exact hlife.seen_eq_held_iff hsettled

/-- The left button is pressed and let go within the frame of one packet: the packet shows it down,
and nothing more is to be sent. -/
theorem click_held_down :
    let life := ({ protocol := .minimig } : Accumulator).run
      [.add 0x01 0 0, .add 0x00 0 0, .poll 0]
    life.2.next.reached 20000 = true ∧ (life.2.poll 20000).1 = none ∧
      seen .minimig life.1 = 0x01 ∧ held life.1 = 0x00 := by
  decide

/-- A button that is let go only after the packet that shows it down. -/
def pressedAndLetGo : List Call := [.add 0x01 0 0, .poll 0, .add 0x00 0 0, .poll 20000]

/-- The first packet shows the button down, and in the end the core knows it to be up. -/
theorem buttons_settle_iff_pressedAndLetGo :
    let life := ({ protocol := .ikbd } : Accumulator).run pressedAndLetGo
    packets life.1 = [[0xfa, 0, 0], [0xf8, 0, 0]] ∧
      Among 0x01 (packetButtons .ikbd [0xfa, 0, 0]) ∧ seen .ikbd life.1 = held life.1 := by
  have hshows : MouseProtocol.ikbd ≠ .archie := by decide
  obtain ⟨hpressed, -⟩ := buttons_settle_iff hshows [.add 0x01 0 0] 0
  obtain ⟨-, hsettles⟩ := buttons_settle_iff hshows pressedAndLetGo 40000
  refine ⟨by decide, hpressed _ (by decide) 0x01 (by decide), ?_⟩
  exact (hsettles (by decide) (by decide)).1.2 (by decide +kernel)

end Accumulator

end IoController.Mouse
