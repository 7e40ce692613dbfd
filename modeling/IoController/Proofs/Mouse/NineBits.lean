import IoController.Proofs.Mouse.Buttons
import IoController.Proofs.Mouse.Movement

/-!
# Mouse — NineBits

What a PS/2 packet says of the movement.  Each axis has a byte, and in the header a sign bit, which
makes nine bits of two's complement, and an overflow bit.  A packet takes out all that is held.

* `unsent`: the movement since the last packet, told from the reports.  `residue_eq_unsent`: it is
  what is held.
* `nineBit_packet`, `overflows_packet`, `negative_packet`: what the bits of a packet come to.
* `nine_bits_iff`: a movement of at most 255 steps is shown as it is.  A longer one is flagged, and
  stands at 255 forward but at -128 back, where the nine bits have room for -255.
  `further_shown_less` shows what comes of that.
-/

namespace IoController.Mouse

/-! ### Reading a packet -/

/-- The bit of the header that says that an axis goes back. -/
def signMask : Axis → UInt8
  | .x => 0x10
  | .y => 0x20

/-- The bit of the header that says that an axis has no room for its movement. -/
def overflowMask : Axis → UInt8
  | .x => 0x40
  | .y => 0x80

/-- Whether a PS/2 `packet` has an `axis` go back. -/
def negative (axis : Axis) (packet : Bytes) : Bool := packet.getD 0 0 &&& signMask axis != 0

/-- Whether a PS/2 `packet` says that an `axis` overflows. -/
def overflows (axis : Axis) (packet : Bytes) : Bool := packet.getD 0 0 &&& overflowMask axis != 0

/-- The movement on an `axis` of a PS/2 `packet`, in nine bits of two's complement. -/
def nineBit (axis : Axis) (packet : Bytes) : Int :=
  (axisByte .ps2 axis packet).toNat - if negative axis packet then 256 else 0

/-- What a PS/2 packet makes of the movement `n`. -/
def inNineBits (n : Int) : Int := if n < -255 then -128 else min n 255

theorem inNineBits_of_fits {n : Int} (h : -255 ≤ n) (h' : n ≤ 255) : inNineBits n = n := by
  unfold inNineBits
  omega

/-- The one place where `inNineBits` goes wrong: where a longer movement is shown as a shorter one.
-/
theorem inNineBits_le_iff {n n' : Int} (h : n ≤ n') :
    inNineBits n ≤ inNineBits n' ↔ ¬(n < -255 ∧ -255 ≤ n' ∧ n' < -128) := by
  unfold inNineBits
  omega

theorem toNat_low (n : Int) : ((Bytes.low n).toNat : Int) = n % 256 := by
  change ((UInt8.ofNat (n % 2 ^ 8).toNat).toNat : Int) = _
  rw [UInt8.toNat_ofNat']
  omega

namespace Accumulator

variable {m : Accumulator} {axis : Axis} {buttons : UInt8}

/-! ### The bits of a packet -/

theorem ps2Flags_and_sign (n : Int) {sign overflow : UInt8} (h : overflow &&& sign = 0) :
    ps2Flags n sign overflow &&& sign = if n < 0 then sign else 0 := by
  unfold ps2Flags
  rw [or_and]
  split <;> split <;> simp [h]

theorem ps2Flags_and_overflow (n : Int) {sign overflow : UInt8} (h : sign &&& overflow = 0) :
    ps2Flags n sign overflow &&& overflow = if n < -255 ∨ 255 < n then overflow else 0 := by
  unfold ps2Flags
  rw [or_and]
  split <;> split <;> simp [h]

/-- Of the header, a `mask` that meets neither the buttons nor the fixed bit shows the axes' flags.
-/
theorem header_and (h : m.protocol = .ps2) (hb : buttons &&& 0x03 = buttons) {mask : UInt8}
    (hmask : 0x03 &&& mask = 0) (hfixed : 0x08 &&& mask = 0) :
    (m.packet buttons).getD 0 0 &&& mask =
      ps2Flags m.x 0x10 0x40 &&& mask ||| ps2Flags m.y 0x20 0x80 &&& mask := by
  have hbuttons : buttons &&& mask = 0 := by
    rw [← hb, UInt8.and_assoc, hmask, UInt8.and_zero]
  have hpacket : m.packet buttons = m.ps2Packet buttons := by rw [packet, h]
  rw [hpacket]
  change (0x08 ||| buttons ||| ps2Flags m.x 0x10 0x40 ||| ps2Flags m.y 0x20 0x80) &&& mask = _
  rw [or_and, or_and, or_and, hfixed, hbuttons, UInt8.or_zero, UInt8.zero_or]

theorem header_and_sign (h : m.protocol = .ps2) (hb : buttons &&& 0x03 = buttons) (axis : Axis) :
    (m.packet buttons).getD 0 0 &&& signMask axis =
      if m.residue axis < 0 then signMask axis else 0 := by
  cases axis with
  | x =>
    have hother : ps2Flags m.y 0x20 0x80 &&& 0x10 = 0 := ps2Flags_apart _ (by decide) (by decide)
    rw [signMask, header_and h hb (by decide) (by decide), hother, UInt8.or_zero]
    exact ps2Flags_and_sign m.x (by decide)
  | y =>
    have hother : ps2Flags m.x 0x10 0x40 &&& 0x20 = 0 := ps2Flags_apart _ (by decide) (by decide)
    rw [signMask, header_and h hb (by decide) (by decide), hother, UInt8.zero_or]
    exact ps2Flags_and_sign m.y (by decide)

theorem header_and_overflow (h : m.protocol = .ps2) (hb : buttons &&& 0x03 = buttons)
    (axis : Axis) :
    (m.packet buttons).getD 0 0 &&& overflowMask axis =
      if m.residue axis < -255 ∨ 255 < m.residue axis then overflowMask axis else 0 := by
  cases axis with
  | x =>
    have hother : ps2Flags m.y 0x20 0x80 &&& 0x40 = 0 := ps2Flags_apart _ (by decide) (by decide)
    rw [overflowMask, header_and h hb (by decide) (by decide), hother, UInt8.or_zero]
    exact ps2Flags_and_overflow m.x (by decide)
  | y =>
    have hother : ps2Flags m.x 0x10 0x40 &&& 0x80 = 0 := ps2Flags_apart _ (by decide) (by decide)
    rw [overflowMask, header_and h hb (by decide) (by decide), hother, UInt8.zero_or]
    exact ps2Flags_and_overflow m.y (by decide)

/-- A `bit` that is there on a condition shows whether the condition holds. -/
theorem ite_bit_ne_zero {p : Prop} [Decidable p] {bit : UInt8} (h : bit ≠ 0) :
    ((if p then bit else 0) != 0) = decide p := by
  by_cases hp : p <;> simp [hp, h]

theorem negative_packet (h : m.protocol = .ps2) (hb : buttons &&& 0x03 = buttons) (axis : Axis) :
    negative axis (m.packet buttons) = decide (m.residue axis < 0) := by
  rw [negative, header_and_sign h hb]
  exact ite_bit_ne_zero (by cases axis <;> decide)

theorem overflows_packet (h : m.protocol = .ps2) (hb : buttons &&& 0x03 = buttons) (axis : Axis) :
    overflows axis (m.packet buttons) =
      decide (m.residue axis < -255 ∨ 255 < m.residue axis) := by
  rw [overflows, header_and_overflow h hb]
  exact ite_bit_ne_zero (by cases axis <;> decide)

theorem axisByte_packet (h : m.protocol = .ps2) (axis : Axis) :
    axisByte .ps2 axis (m.packet buttons) = ps2Byte (m.residue axis) := by
  rw [packet, h]
  cases axis <;> rfl

/-- The nine bits of an `axis` are what is held on it, if they have room for that. -/
theorem nineBit_packet (h : m.protocol = .ps2) (hb : buttons &&& 0x03 = buttons) (axis : Axis) :
    nineBit axis (m.packet buttons) = inNineBits (m.residue axis) := by
  rw [nineBit, negative_packet h hb, axisByte_packet h]
  generalize m.residue axis = n
  unfold ps2Byte inNineBits
  by_cases hback : n < -255
  · have hnegative : n < 0 := by omega
    rw [if_pos hback, if_pos hback, if_pos (decide_eq_true hnegative)]
    rfl
  · rw [if_neg hback, if_neg hback]
    by_cases hforward : 255 < n
    · have hpositive : ¬ n < 0 := by omega
      rw [if_pos hforward, if_neg (by simpa using hpositive), Int.min_eq_right (by omega)]
      rfl
    · rw [if_neg hforward, toNat_low]
      by_cases hnegative : n < 0
      · rw [if_pos (decide_eq_true hnegative)]
        omega
      · rw [if_neg (by simpa using hnegative)]
        omega

/-! ### What is held -/

/-- A report added to the movement `n` on an `axis`, as far as sixteen bits have room for it.  Up
and down change places. -/
def Call.gather (axis : Axis) (n : Int) : Call → Int
  | .add _ dx dy =>
    saturate <|
      match axis with
      | .x => n + dx.toInt
      | .y => n - dy.toInt
  | .poll _ => n

/-- The movement on an `axis` that the `turns` add up to. -/
def gathered (axis : Axis) (turns : List Turn) : Int :=
  turns.foldl (fun n turn => turn.call.gather axis n) 0

theorem gathered_snoc (axis : Axis) (turns : List Turn) (turn : Turn) :
    gathered axis (turns ++ [turn]) = turn.call.gather axis (gathered axis turns) := by
  rw [gathered, List.foldl_append]
  rfl

/-- A packet that is `spent` takes out all that is held. -/
theorem residue_spent_ps2 (h : m.protocol = .ps2) (axis : Axis) (now : Instant) :
    (m.spent now).residue axis = 0 := by
  cases axis <;> exact if_pos h

/-- What is held after a `call`: nothing if it returns a packet, and otherwise what it gathers. -/
theorem residue_perform (h : m.protocol = .ps2) (call : Call) (axis : Axis) :
    (m.perform call).2.residue axis =
      if (m.perform call).1.isSome then 0 else call.gather axis (m.residue axis) := by
  have hcourse := m.course call
  generalize (m.perform call).1 = answer, (m.perform call).2 = m' at hcourse ⊢
  cases hcourse with
  | added =>
    cases axis with
    | x => rfl
    | y => exact congrArg saturate (if_pos h)
  | early waits => rfl
  | rested due nothing => exact residue_next m _ axis
  | sent due something => exact residue_spent_ps2 h axis _

/-! ### Packets of a life -/

/-- The life of a mouse of a PS/2 core, by its `calls`. -/
def ps2Life (calls : List Call) : List Turn × Accumulator :=
  ({ protocol := .ps2 } : Accumulator).run calls

theorem ps2Life_protocol (calls : List Call) : (ps2Life calls).2.protocol = .ps2 :=
  run_protocol _ calls

/-- The movement on an `axis` that was reported since the last packet. -/
def unsent (axis : Axis) (calls : List Call) : Int :=
  gathered axis (sinceLast (ps2Life calls).1)

/-- The `residue` is what was reported since the last packet. -/
theorem residue_eq_unsent (calls : List Call) (axis : Axis) :
    (ps2Life calls).2.residue axis = unsent axis calls := by
  refine (run_induction (P := fun turns m =>
    m.protocol = .ps2 ∧ m.residue axis = gathered axis (sinceLast turns))
    ⟨rfl, by cases axis <;> rfl⟩ (fun past m call hpast => ?_) calls).2
  obtain ⟨hprotocol, hheld⟩ := hpast
  refine ⟨(m.course call).protocol_eq.trans hprotocol, ?_⟩
  rw [residue_perform hprotocol]
  cases hpacket : (m.perform call).1 with
  | none =>
    have hnone : Turn.packet? ⟨m, call⟩ = none := hpacket
    rw [sinceLast_snoc_of_none hnone, gathered_snoc, ← hheld]
    rfl
  | some packet =>
    have hsome : Turn.packet? ⟨m, call⟩ = some packet := hpacket
    rw [sinceLast_snoc_of_some hsome]
    rfl

section Packet

variable {calls : List Call} {now : Instant} {packet : Bytes}
  (hpacket : ((ps2Life calls).2.poll now).1 = some packet)
include hpacket

/-- What a `packet` shows of the movement since the one before. -/
theorem shown_of_poll (axis : Axis) :
    nineBit axis packet = inNineBits (unsent axis calls) ∧
      negative axis packet = decide (unsent axis calls < 0) ∧
      overflows axis packet = decide (unsent axis calls < -255 ∨ 255 < unsent axis calls) := by
  have hprotocol := ps2Life_protocol calls
  have hbuttons : (ps2Life calls).2.shown &&& 0x03 = (ps2Life calls).2.shown :=
    (remembers_run (by decide : MouseProtocol.ps2 ≠ .archie) calls).shown_within
  rw [poll_eq_some hpacket, ← residue_eq_unsent]
  exact ⟨nineBit_packet hprotocol hbuttons axis, negative_packet hprotocol hbuttons axis,
    overflows_packet hprotocol hbuttons axis⟩

theorem residue_after_poll (axis : Axis) : ((ps2Life calls).2.poll now).2.residue axis = 0 := by
  have hanswer : ((ps2Life calls).2.perform (.poll now)).1 = some packet := hpacket
  have hleft := residue_perform (ps2Life_protocol calls) (.poll now) axis
  rwa [hanswer] at hleft

/-- **Nine bits of movement.**  Take a `packet` of a PS/2 mouse.  If on an `axis` the reports since
the packet before it (`unsent`) come to at most 255 steps either way, the packet shows them as they
are (`nineBit`).  Otherwise it says that the axis `overflows`, and of the movement only the
direction is right (`negative`).  The packet leaves nothing on either axis (`residue`).  Of two
packets the one that goes further forward does not show less, unless the other has gone back by more
than 255 steps and it has gone back too, by 129 to 255. -/
theorem nine_bits_iff (axis : Axis) :
    (-255 ≤ unsent axis calls ∧ unsent axis calls ≤ 255 →
      nineBit axis packet = unsent axis calls ∧ overflows axis packet = false) ∧
    (¬(-255 ≤ unsent axis calls ∧ unsent axis calls ≤ 255) →
      overflows axis packet = true ∧ (negative axis packet = true ↔ unsent axis calls < 0)) ∧
    (∀ axis', ((ps2Life calls).2.poll now).2.residue axis' = 0) ∧
    ∀ calls' now' packet', ((ps2Life calls').2.poll now').1 = some packet' →
      unsent axis calls ≤ unsent axis calls' →
        (nineBit axis packet ≤ nineBit axis packet' ↔
          ¬(unsent axis calls < -255 ∧ -255 ≤ unsent axis calls' ∧ unsent axis calls' < -128)) := by
  obtain ⟨hmovement, hsign, hoverflow⟩ := shown_of_poll hpacket axis
  refine ⟨fun hfits => ⟨?_, ?_⟩, fun hlong => ⟨?_, ?_⟩, residue_after_poll hpacket, ?_⟩
  · exact hmovement.trans (inNineBits_of_fits hfits.1 hfits.2)
  · exact hoverflow.trans (decide_eq_false (by omega))
  · exact hoverflow.trans (decide_eq_true (by omega))
  · rw [hsign, decide_eq_true_iff]
  · intro calls' now' packet' hpacket' hle
    rw [hmovement, (shown_of_poll hpacket' axis).1]
    exact inNineBits_le_iff hle

end Packet

/-- A mouse that goes 255 steps to the left. -/
def leftwards : List Call := [.add 0 (-128) 0, .add 0 (-127) 0]

/-- One that goes a step further. -/
def leftwardsFurther : List Call := [.add 0 (-128) 0, .add 0 (-128) 0]

/-- With the step further of `leftwardsFurther` the packet shows half as much. -/
theorem further_shown_less :
    ¬ ∀ calls now packet calls' now' packet',
      ((ps2Life calls).2.poll now).1 = some packet →
      ((ps2Life calls').2.poll now').1 = some packet' →
      unsent .x calls ≤ unsent .x calls' → nineBit .x packet ≤ nineBit .x packet' := by
  intro hmonotone
  have hle := hmonotone leftwardsFurther 0 [0x58, 0x80, 0x00] leftwards 0 [0x18, 0x01, 0x00]
    (by decide) (by decide) (by decide)
  have hshown : nineBit .x [0x58, 0x80, 0x00] = -128 ∧ nineBit .x [0x18, 0x01, 0x00] = -255 := by
    decide
  omega

/-- The 255 steps of `leftwards` are shown as they are, and three times as many to the right as 255
with a flag, which is not less. -/
theorem nine_bits_iff_leftwards :
    ((ps2Life leftwards).2.poll 0).1 = some [0x18, 0x01, 0x00] ∧
      nineBit .x [0x18, 0x01, 0x00] = -255 ∧
      nineBit .x [0x18, 0x01, 0x00] ≤ nineBit .x [0x48, 0xff, 0x00] := by
  have hpacket : ((ps2Life leftwards).2.poll 0).1 = some [0x18, 0x01, 0x00] := by decide
  obtain ⟨hshort, -, -, hmonotone⟩ := nine_bits_iff hpacket .x
  have hright : ((ps2Life [.add 0 127 0, .add 0 127 0, .add 0 127 0]).2.poll 0).1 =
      some [0x48, 0xff, 0x00] := by decide
  refine ⟨hpacket, (hshort (by decide)).1, (hmonotone _ 0 _ hright (by decide)).2 (by decide)⟩

end Accumulator

end IoController.Mouse
