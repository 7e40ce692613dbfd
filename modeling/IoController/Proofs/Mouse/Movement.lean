import IoController.Proofs.Mouse.Packets
import Mathlib.Algebra.BigOperators.Group.List.Basic
import Mathlib.Algebra.Order.Floor.Div

/-!
# Mouse — Movement

What becomes of the movement of a mouse whose packets have a signed byte for each axis.

* `Accumulator.Turn.balance`: one call sends and keeps what was held and what is reported.
* `Accumulator.residue_after_polls`: looks alone take out the rest, a byte's worth with each packet.
* `Accumulator.movement_conserved`: over a whole life no movement is lost or made up, as long as
  an axis is never asked to hold more than sixteen bits, and packets keep their distance.
-/

namespace IoController.Mouse

/-! ### Bytes -/

/-- The byte `b` read as a signed number. -/
def signed (b : UInt8) : Int := b.toInt8.toInt

theorem clamp_bounds (n : Int) : -128 ≤ clamp n ∧ clamp n ≤ 127 := by
  unfold clamp
  omega

theorem signed_low {n : Int} (h : -128 ≤ n) (h' : n ≤ 127) : signed (Bytes.low n) = n := by
  have hsame : (Bytes.low n).toInt8 = Int8.ofInt n := by
    refine Int8.toBitVec_inj.1 (BitVec.eq_of_toNat_eq ?_)
    change (UInt8.ofNat (n % 2 ^ 8).toNat).toNat = (BitVec.ofInt 8 n).toNat
    rw [BitVec.toNat_ofInt, UInt8.toNat_ofNat']
    omega
  rw [signed, hsame]
  exact Int8.toInt_ofInt_of_le h (by omega)

theorem signed_low_clamp (n : Int) : signed (Bytes.low (clamp n)) = clamp n :=
  signed_low (clamp_bounds n).1 (clamp_bounds n).2

theorem saturate_eq_self {n : Int} (h : -32768 ≤ n) (h' : n ≤ 32767) : saturate n = n := by
  unfold saturate
  omega

/-- A packet brings an axis nearer to rest (`clamp`), by a byte's worth. -/
theorem natAbs_sub_clamp_le {n : Int} {k : Nat} (h : n.natAbs ≤ 127 * k) :
    (n - clamp n).natAbs ≤ 127 * (k - 1) := by
  unfold clamp
  omega

namespace Accumulator

/-! ### One call -/

/-- The movement that an `axis` is to hold after a report. -/
def Turn.total (turn : Turn) (axis : Axis) : Int := turn.before.residue axis + turn.call.delta axis

/-- An `axis` is never asked to hold more than sixteen bits. (What it holds never has more.) -/
def Fits (axis : Axis) (turns : List Turn) : Prop :=
  ∀ turn ∈ turns, -32768 ≤ turn.total axis ∧ turn.total axis ≤ 32767

/-- The movement that was reported on an `axis`. -/
def moved (axis : Axis) (turns : List Turn) : Int := (turns.map (·.call.delta axis)).sum

/-- The movement on an `axis` that the `packets` carry. -/
def carried (protocol : MouseProtocol) (axis : Axis) (packets : List Bytes) : Int :=
  (packets.map fun packet => signed (axisByte protocol axis packet)).sum

/-- With so many packets everything that `m` holds is out. -/
def packetsToRest (m : Accumulator) : Nat := max m.x.natAbs m.y.natAbs ⌈/⌉ 127

variable {m m' : Accumulator} {axis : Axis} {turns past : List Turn} {turn : Turn}

/-- A report adds its movement to the `residue`, as far as sixteen bits have room for it. -/
theorem residue_add (h : m.protocol ≠ .ps2) (axis : Axis) (buttons : UInt8) (dx dy : Int8) :
    (m.add buttons dx dy).residue axis =
      saturate (m.residue axis + (Call.add buttons dx dy).delta axis) := by
  cases axis with
  | x => rfl
  | y =>
    change saturate (if m.protocol = .ps2 then m.y - dy.toInt else m.y + dy.toInt) = _
    rw [if_neg h]
    rfl

/-- The time of the `next` packet is no movement. -/
theorem residue_next (m : Accumulator) (next : Deadline) (axis : Axis) :
    ({ m with next } : Accumulator).residue axis = m.residue axis := by
  cases axis <;> rfl

/-- A packet takes from the `residue` as much as a byte has room for. -/
theorem residue_spent (h : m.protocol ≠ .ps2) (axis : Axis) (now : Instant) :
    (m.spent now).residue axis = m.residue axis - clamp (m.residue axis) := by
  cases axis <;> exact if_neg h

/-- The byte of an `axis` in a packet carries as much of what is held as it has room for. -/
theorem signed_axisByte_packet (h : m.protocol ≠ .ps2) (axis : Axis) (buttons : UInt8) :
    signed (axisByte m.protocol axis (m.packet buttons)) = clamp (m.residue axis) := by
  have hbyte : axisByte m.protocol axis (m.packet buttons) =
      Bytes.low (clamp (m.residue axis)) := by
    unfold packet
    cases hprotocol : m.protocol with
    | ps2 => exact absurd hprotocol h
    | _ => cases axis <;> rfl
  rw [hbyte, signed_low_clamp]

/-- The call of a `turn` sends and keeps what was held and what is reported. -/
theorem Turn.balance (h : turn.before.protocol ≠ .ps2)
    (hfits : -32768 ≤ turn.total axis ∧ turn.total axis ≤ 32767) :
    turn.total axis = carried turn.before.protocol axis turn.packet?.toList +
      (turn.before.perform turn.call).2.residue axis := by
  have hcourse := turn.before.course turn.call
  unfold packet? total at *
  generalize turn.call = call, (turn.before.perform turn.call).1 = answer,
    (turn.before.perform turn.call).2 = m' at hcourse hfits ⊢
  cases hcourse with
  | added =>
    have hsame : saturate (turn.before.residue axis + Call.delta _ axis) = _ :=
      saturate_eq_self hfits.1 hfits.2
    rw [residue_add h, hsame]
    exact (Int.zero_add _).symm
  | early waits => exact Int.add_comm _ _
  | rested due nothing =>
    rw [residue_next]
    exact Int.add_comm _ _
  | sent due something =>
    have hbyte := signed_axisByte_packet h axis turn.before.shown
    rw [residue_spent h, ← hbyte]
    simp [carried, Call.delta]

/-! ### A whole life -/

theorem moved_snoc (axis : Axis) (turns : List Turn) (turn : Turn) :
    moved axis (turns ++ [turn]) = moved axis turns + turn.call.delta axis := by
  simp [moved]

theorem carried_append (protocol : MouseProtocol) (axis : Axis) (packets packets' : List Bytes) :
    carried protocol axis (packets ++ packets') =
      carried protocol axis packets + carried protocol axis packets' := by
  simp [carried]

/-- Over a whole life what was `moved` is what was `carried` and what is still held. -/
theorem moved_run {protocol : MouseProtocol} (h : protocol ≠ .ps2) (calls : List Call)
    (hfits : Fits axis (({ protocol } : Accumulator).run calls).1) :
    moved axis (({ protocol } : Accumulator).run calls).1 =
      carried protocol axis (packets (({ protocol } : Accumulator).run calls).1) +
        (({ protocol } : Accumulator).run calls).2.residue axis := by
  refine (run_induction (P := fun turns m => m.protocol = protocol ∧ (Fits axis turns →
    moved axis turns = carried protocol axis (packets turns) + m.residue axis))
    ⟨rfl, fun _ => by cases axis <;> rfl⟩ (fun past m call hpast => ?_) calls).2 hfits
  obtain ⟨rfl, hsum⟩ := hpast
  refine ⟨(m.course call).protocol_eq, fun hfits => ?_⟩
  obtain ⟨hbefore, hlast⟩ := List.forall_mem_append.1 hfits
  have hbalance : m.residue axis + call.delta axis = _ :=
    @Turn.balance axis ⟨m, call⟩ h (hlast _ (List.mem_singleton_self _))
  rw [moved_snoc, packets_snoc, carried_append, hsum hbefore, Int.add_assoc, hbalance,
    Int.add_assoc]

/-- Where there is nothing to send (`pending`) no movement is held. -/
theorem residue_of_not_pending (protocol : MouseProtocol) (calls : List Call) :
    (({ protocol } : Accumulator).run calls).2.pending = false →
      ∀ axis, (({ protocol } : Accumulator).run calls).2.residue axis = 0 := by
  refine run_induction (P := fun _ m => m.pending = false → ∀ axis, m.residue axis = 0)
    (fun _ axis => by cases axis <;> rfl) (fun _ m call hrest => ?_) calls
  have hcourse := m.course call
  generalize (m.perform call).1 = answer, (m.perform call).2 = m' at hcourse ⊢
  cases hcourse with
  | added => exact fun hpending => nomatch hpending
  | early waits => exact hrest
  | rested due nothing => exact fun _ axis => (m.residue_next _ axis).trans (hrest nothing axis)
  | sent due something =>
    intro hpending axis
    have hboth : m.carry m.x = 0 ∧ m.carry m.y = 0 := by
      simpa [spent] using hpending
    cases axis
    · exact hboth.1
    · exact hboth.2

/-- So many packets as the movement on an `axis` has bytes' worths bring it to rest. -/
theorem residue_after_polls (h : m.protocol ≠ .ps2) (times : List Instant) {k : Nat}
    (hk : (m.residue axis).natAbs ≤ 127 * k)
    (hpackets : k ≤ (packets (m.run (times.map .poll)).1).length) :
    (m.run (times.map .poll)).2.residue axis = 0 := by
  -- on the looks: each packet takes one of the k worths, and a look without one changes nothing
  induction times generalizing m k with
  | nil =>
    obtain rfl : k = 0 := Nat.le_zero.1 hpackets
    exact Int.natAbs_eq_zero.1 (Nat.le_zero.1 hk)
  | cons now times ih =>
    have hcourse := m.course (.poll now)
    rw [List.map_cons, run, packets_cons] at hpackets
    change k ≤ ((m.perform (.poll now)).1.toList ++ _).length at hpackets
    change ((m.perform (.poll now)).2.run _).2.residue axis = 0
    generalize (m.perform (.poll now)).1 = answer, (m.perform (.poll now)).2 = m'
      at hcourse hpackets ⊢
    cases hcourse with
    | early waits => exact ih h hk hpackets
    | rested due nothing => exact ih h (by rwa [residue_next]) hpackets
    | sent due something =>
      refine ih h (k := k - 1) ?_ ?_
      · rw [residue_spent h]
        exact natAbs_sub_clamp_le hk
      · rw [Option.toList_some, List.singleton_append, List.length_cons] at hpackets
        exact Nat.sub_le_of_le_add hpackets

theorem natAbs_residue_le (m : Accumulator) (axis : Axis) :
    (m.residue axis).natAbs ≤ 127 * m.packetsToRest := by
  have hmax : (m.residue axis).natAbs ≤ max m.x.natAbs m.y.natAbs := by
    cases axis
    · exact Nat.le_max_left _ _
    · exact Nat.le_max_right _ _
  have hceil := le_smul_ceilDiv (b := max m.x.natAbs m.y.natAbs) (by decide : 0 < 127)
  exact hmax.trans hceil

/-- **Movement is conserved.**  Take any life of a mouse whose packets have a signed byte for each
axis.  What was reported on an `axis` (`moved`) is what the packets carry (`carried`) and what is
still held (`residue`), if the axis was never asked to hold more than sixteen bits (`Fits`).  While
movement is held there is something to send (`pending`), so that a look that finds it time for a
packet finds one; each of its bytes is what is held on its axis, clamped.  If no report comes,
nothing is held any more after one packet for every 127 steps, or part of 127, of the longer axis
(`packetsToRest`).  If the times do not go back, any two packets leave (`departures`) at the
interval or more apart. -/
theorem movement_conserved {protocol : MouseProtocol} (h : protocol ≠ .ps2) (calls : List Call) :
    let life := ({ protocol } : Accumulator).run calls
    (∀ axis, Fits axis life.1 →
      moved axis life.1 =
        carried protocol axis (packets life.1) + life.2.residue axis) ∧
    (∀ axis, life.2.residue axis ≠ 0 → life.2.pending = true) ∧
    (∀ now, life.2.next.reached now = true → life.2.pending = true →
      (life.2.poll now).1.isSome = true) ∧
    (∀ now packet, (life.2.poll now).1 = some packet →
      ∀ axis, signed (axisByte protocol axis packet) = clamp (life.2.residue axis)) ∧
    (∀ times : List Instant,
      life.2.packetsToRest ≤ (packets (life.2.run (times.map .poll)).1).length →
        ∀ axis, (life.2.run (times.map .poll)).2.residue axis = 0) ∧
    ((calls.filterMap (·.time?)).Pairwise (· ≤ ·) →
      (departures life.1).Pairwise fun earlier later => earlier + packetInterval ≤ later) := by
  intro life
  have hprotocol : life.2.protocol = protocol := run_protocol _ calls
  have hsigned : life.2.protocol ≠ .ps2 := hprotocol.symm ▸ h
  refine ⟨fun axis hfits => moved_run h calls hfits, fun axis hheld => ?_,
    fun now hdue hpending => ?_, fun now packet hpacket axis => ?_,
    fun times hpackets axis => ?_, fun hsorted => ?_⟩
  · by_contra hpending
    exact hheld (residue_of_not_pending protocol calls (Bool.eq_false_iff.2 hpending) axis)
  · rw [poll_isSome, hdue, hpending]
    rfl
  · rw [poll_eq_some hpacket, ← hprotocol]
    exact signed_axisByte_packet hsigned axis _
  · exact residue_after_polls hsigned times (life.2.natAbs_residue_le axis) hpackets
  · exact run_departures _ calls hsorted

/-- Three reports of a hundred steps each way, and a packet. -/
def draggedFar : List Call :=
  [.add 0 100 (-100), .add 0 100 (-100), .add 0 100 (-100), .poll 0]

/-- The packet carries 127 steps to the right and 128 up, and two more carry the rest. -/
theorem movement_conserved_draggedFar :
    let life := ({ protocol := .archie } : Accumulator).run draggedFar
    packets life.1 = [[0x7f, 0x80]] ∧ moved .y life.1 = -300 ∧ Fits .y life.1 ∧
      moved .y life.1 = carried .archie .y (packets life.1) + life.2.residue .y ∧
      life.2.packetsToRest = 2 ∧
      ∀ axis, (life.2.run ([20000, 40000].map .poll)).2.residue axis = 0 := by
  intro life
  have hfits : Fits .y life.1 := by
    unfold Fits
    decide
  have hsigned : MouseProtocol.archie ≠ .ps2 := by decide
  obtain ⟨hsum, -, -, -, hrest, -⟩ := movement_conserved hsigned draggedFar
  exact ⟨by decide, by decide, hfits, hsum .y hfits, by decide, hrest [20000, 40000] (by decide)⟩

end Accumulator

end IoController.Mouse
