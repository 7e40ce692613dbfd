import IoController.Mouse
import IoController.Proofs.Pacing
import Mathlib.Data.List.DropRight

/-!
# Mouse — Packets

What a mouse lives through, reports and looks for a packet in any order, and what its packets say.

* `Accumulator.Course`: what one call comes to, in four cases.
* `Accumulator.run`, `Accumulator.run_induction`: many calls, and what every one of them keeps.
* `packetButtons`, `axisByte`: where a core finds the buttons and the movement in a packet.
* `Accumulator.run_departures`: when packets leave.
-/

namespace IoController.Mouse

/-! ### Reading a packet -/

/-- A direction in which a mouse moves. -/
inductive Axis where
  | x
  | y
  deriving DecidableEq

/-- The buttons that a packet shows: the left one in bit 0 and the right one in bit 1. -/
def packetButtons : MouseProtocol → Bytes → UInt8
  | .minimig, packet => packet.getD 2 0
  | .ps2, packet => packet.getD 0 0 &&& 0x03
  | .ikbd, packet => ((packet.getD 0 0 &&& 0x02) >>> 1) ||| ((packet.getD 0 0 &&& 0x01) <<< 1)
  | .archie, _ => 0

/-- Where in a packet the byte of an axis is. -/
def axisPlace : MouseProtocol → Axis → Nat
  | .minimig, .x | .archie, .x => 0
  | .minimig, .y | .archie, .y | .ps2, .x | .ikbd, .x => 1
  | .ps2, .y | .ikbd, .y => 2

/-- The byte of an `axis` in a `packet`. -/
def axisByte (protocol : MouseProtocol) (axis : Axis) (packet : Bytes) : UInt8 :=
  packet.getD (axisPlace protocol axis) 0

/-- Every one of the `buttons` is one of the `others`. -/
def Among (buttons others : UInt8) : Prop := buttons &&& others = buttons

instance (buttons others : UInt8) : Decidable (Among buttons others) :=
  inferInstanceAs (Decidable (_ = _))

namespace Accumulator

/-- The movement that the mouse `m` holds on an axis. -/
def residue (m : Accumulator) : Axis → Int
  | .x => m.x
  | .y => m.y

/-- The buttons that the next packet of `m` shows. -/
def shown (m : Accumulator) : UInt8 := m.frameButtons.getD m.latestButtons

/-- What is left of the mouse `m` when a packet is taken out at `now`. -/
def spent (m : Accumulator) (now : Instant) : Accumulator :=
  { m with
    x := m.carry m.x
    y := m.carry m.y
    frameButtons := none
    pending := m.carry m.x != 0 || m.carry m.y != 0
    next := some (now + packetInterval) }

/-! ### Calls -/

/-- Something that is done with a mouse. -/
inductive Call where
  | add (buttons : UInt8) (dx dy : Int8)
  | poll (now : Instant)

namespace Call

/-- The left and the right button, as a report has them. -/
def report? : Call → Option UInt8
  | add buttons _ _ => some (buttons &&& 0x03)
  | poll _ => none

/-- The movement that is reported on an axis. -/
def delta : Call → Axis → Int
  | add _ dx _, .x => dx.toInt
  | add _ _ dy, .y => dy.toInt
  | poll _, _ => 0

/-- The time of a look. -/
def time? : Call → Option Instant
  | add .. => none
  | poll now => some now

end Call

/-- Carries out a `Call`, and returns the packet that is to be sent. -/
def perform (m : Accumulator) : Call → Option Bytes × Accumulator
  | .add buttons dx dy => (none, m.add buttons dx dy)
  | .poll now => m.poll now

/-- What a call of the mouse `m` comes to: the packet that it returns, and the mouse after it. -/
inductive Course (m : Accumulator) : Call → Option Bytes → Accumulator → Prop where
  | added {buttons : UInt8} {dx dy : Int8} :
      Course m (.add buttons dx dy) none (m.add buttons dx dy)
  | early {now : Instant} (waits : m.next.reached now = false) : Course m (.poll now) none m
  /-- It is time for a packet, but there is nothing to send. -/
  | rested {now : Instant} (due : m.next.reached now = true) (nothing : m.pending = false) :
      Course m (.poll now) none { m with next := some (now + packetInterval) }
  | sent {now : Instant} (due : m.next.reached now = true) (something : m.pending = true) :
      Course m (.poll now) (some (m.packet m.shown)) (m.spent now)

/-- Every `call` takes one of these courses. -/
theorem course (m : Accumulator) (call : Call) :
    Course m call (m.perform call).1 (m.perform call).2 := by
  cases call with
  | add buttons dx dy => exact .added
  | poll now =>
    change Course m (.poll now) (m.poll now).1 (m.poll now).2
    unfold poll
    by_cases hdue : m.next.reached now = true
    · rw [if_pos hdue]
      dsimp only
      by_cases hpending : m.pending = true
      · rw [if_pos hpending]
        exact .sent hdue hpending
      · rw [if_neg hpending]
        exact .rested hdue (Bool.eq_false_iff.2 hpending)
    · rw [if_neg hdue]
      exact .early (Bool.eq_false_iff.2 hdue)

variable {m m' : Accumulator} {call : Call} {answer : Option Bytes}

theorem Course.protocol_eq (h : Course m call answer m') : m'.protocol = m.protocol := by
  cases h <;> rfl

theorem protocol_poll (m : Accumulator) (now : Instant) : (m.poll now).2.protocol = m.protocol :=
  (m.course (.poll now)).protocol_eq

/-- A look finds a packet just if it is time for one (`next`) and there is something to send
(`pending`). -/
theorem poll_isSome (m : Accumulator) (now : Instant) :
    (m.poll now).1.isSome = (m.next.reached now && m.pending) := by
  have h : Course m (.poll now) (m.poll now).1 (m.poll now).2 := m.course (.poll now)
  generalize (m.poll now).1 = answer, (m.poll now).2 = m' at h ⊢
  cases h with
  | early waits => simp [waits]
  | rested due nothing => simp [nothing]
  | sent due something => simp [due, something]

/-- The `packet` shows the buttons `m.shown`. -/
theorem poll_eq_some {now : Instant} {packet : Bytes} (hpacket : (m.poll now).1 = some packet) :
    packet = m.packet m.shown := by
  have h : Course m (.poll now) (m.poll now).1 (m.poll now).2 := m.course (.poll now)
  rw [hpacket] at h
  generalize (m.poll now).2 = m' at h
  cases h with
  | sent due something => rfl

/-! ### Many calls -/

/-- A `call` that is made, and the mouse `before` it. -/
structure Turn where
  before : Accumulator
  call : Call

namespace Turn

/-- The packet that the call of the `turn` returns. -/
def packet? (turn : Turn) : Option Bytes := (turn.before.perform turn.call).1

/-- When a packet left by the `turn`. -/
def sentAt? (turn : Turn) : Option Instant :=
  if turn.packet?.isSome then turn.call.time? else none

end Turn

/-- Makes `calls` one after another. -/
def run (m : Accumulator) : List Call → List Turn × Accumulator
  | [] => ([], m)
  | call :: calls =>
    (⟨m, call⟩ :: ((m.perform call).2.run calls).1, ((m.perform call).2.run calls).2)

/-- The packets that the `turns` returned, in order. -/
def packets (turns : List Turn) : List Bytes := turns.filterMap (·.packet?)

/-- The buttons of the reports in `turns`, in order. -/
def reports (turns : List Turn) : List UInt8 := turns.filterMap (·.call.report?)

/-- When packets left by the `turns`. -/
def departures (turns : List Turn) : List Instant := turns.filterMap (·.sentAt?)

/-- What holds at first, and is kept by every `call`, holds at the end. -/
theorem run_induction {P : List Turn → Accumulator → Prop} (h₀ : P [] m)
    (hstep : ∀ past m' call, P past m' → P (past ++ [⟨m', call⟩]) (m'.perform call).2)
    (calls : List Call) : P (m.run calls).1 (m.run calls).2 := by
  -- the turns of which it is known already are kept apart from those to come
  have hfrom : ∀ calls past m, P past m → P (past ++ (m.run calls).1) (m.run calls).2 := by
    intro calls
    induction calls with
    | nil =>
      intro past m h
      rwa [run, List.append_nil]
    | cons call calls ih =>
      intro past m h
      have hrest := ih _ _ (hstep past m call h)
      rwa [List.append_assoc] at hrest
  exact hfrom calls [] m h₀

theorem run_protocol (m : Accumulator) (calls : List Call) :
    (m.run calls).2.protocol = m.protocol :=
  run_induction (P := fun _ m' => m'.protocol = m.protocol) rfl
    (fun _ m' call h => (m'.course call).protocol_eq.trans h) calls

theorem packets_cons (turn : Turn) (turns : List Turn) :
    packets (turn :: turns) = turn.packet?.toList ++ packets turns := by
  cases h : turn.packet? <;> simp [packets, h]

theorem packets_snoc (turns : List Turn) (turn : Turn) :
    packets (turns ++ [turn]) = packets turns ++ turn.packet?.toList := by
  rw [packets, List.filterMap_append]
  cases h : turn.packet? <;> simp [h, packets]

theorem reports_snoc (turns : List Turn) (turn : Turn) :
    reports (turns ++ [turn]) = reports turns ++ turn.call.report?.toList := by
  rw [reports, List.filterMap_append]
  cases h : turn.call.report? <;> simp [h, reports]

/-! ### Times -/

/-- When the call of the `turn` was made, and when a packet left. -/
def Turn.moment (turn : Turn) : Moment := ⟨turn.call.time?, turn.sentAt?⟩

/-- A run makes the `calls` that it is to make. -/
theorem run_calls (m : Accumulator) (calls : List Call) : (m.run calls).1.map (·.call) = calls := by
  induction calls generalizing m with
  | nil => rfl
  | cons call calls ih => exact congrArg (call :: ·) (ih _)

/-- No packet leaves for the `packetInterval` after each packet, nor after a look that finds none.
-/
theorem run_paced (m : Accumulator) (calls : List Call) :
    Paced packetInterval m.next ((m.run calls).1.map (·.moment)) := by
  induction calls generalizing m with
  | nil => exact .nil _
  | cons call calls ih =>
    have hcourse := m.course call
    have hrest := ih (m.perform call).2
    change Paced _ _ (⟨call.time?, if (m.perform call).1.isSome then call.time? else none⟩ ::
      ((m.perform call).2.run calls).1.map (·.moment))
    generalize (m.perform call).1 = answer, (m.perform call).2 = m' at hcourse hrest ⊢
    cases hcourse with
    | added => exact .kept hrest
    | early waits => exact .kept hrest
    | rested due nothing => exact .rested due hrest
    | sent due something => exact .sent due hrest

/-- If the times do not go back, any two packets leave at the `packetInterval`. -/
theorem run_departures (m : Accumulator) (calls : List Call)
    (hsorted : (calls.filterMap (·.time?)).Pairwise (· ≤ ·)) :
    (departures (m.run calls).1).Pairwise fun s s' => s + packetInterval ≤ s' := by
  have htimes : ((m.run calls).1.map (·.moment)).filterMap (·.time?) =
      calls.filterMap (·.time?) := by
    rw [← congrArg (List.filterMap (·.time?)) (run_calls m calls), List.filterMap_map,
      List.filterMap_map]
    rfl
  have hdepartures : ((m.run calls).1.map (·.moment)).filterMap (·.sentAt?) =
      departures (m.run calls).1 := List.filterMap_map
  rw [← htimes] at hsorted
  rw [← hdepartures]
  exact ((run_paced m calls).departures (fun _ _ _ => Nat.zero_le _) hsorted).2

end Accumulator

end IoController.Mouse
