import IoController.Keyboard.Limiter
import IoController.Proofs.Pacing

/-!
# Keyboard — Queueing

What becomes of the codes that a limiter is offered, over everything that can happen to it short
of being cleared.

* `Limiter.Course`: what one call comes to, in six cases.
* `Limiter.lossless_fifo`: the codes leave in the order of being offered, none is lost but those
  that find the queue full, no two leave too close together, and none is held back for longer
  than the interval.
-/

namespace IoController.Keyboard.Limiter

/-- What is asked of a limiter. -/
inductive Call where
  | submit (code : UInt16) (now : Instant)
  | enqueue (code : UInt16)
  | poll (now : Instant)

namespace Call

/-- The code that is offered. -/
def offered? : Call → Option UInt16
  | submit code _ | enqueue code => some code
  | poll _ => none

/-- The time that is passed. -/
def time? : Call → Option Instant
  | submit _ now | poll now => some now
  | enqueue _ => none

end Call

/-- Does what the `Call` asks, and returns the code that may go out. -/
def perform (l : Limiter) : Call → Option UInt16 × Limiter
  | .submit code now => l.submit code now
  | .enqueue code => (none, (l.enqueue code).2)
  | .poll now => l.poll now

/-- A `call`, and the limiter `before` it. -/
structure Turn where
  before : Limiter
  call : Call

namespace Turn

/-- The code that the call of the `turn` returns. -/
def returned? (turn : Turn) : Option UInt16 := (turn.before.perform turn.call).1

/-- The limiter after the call of the `turn`. -/
def after (turn : Turn) : Limiter := (turn.before.perform turn.call).2

/-- When a code went out by the `turn`. -/
def sentAt? (turn : Turn) : Option Instant :=
  if turn.returned?.isSome then turn.call.time? else none

/-- Whether the code of the `turn` is lost: it is offered, and neither returned nor put behind those
that wait. -/
def drops (turn : Turn) : Bool :=
  turn.call.offered?.isSome && turn.returned?.isNone && turn.after.queue == turn.before.queue

end Turn

/-- Makes `calls` one after another. -/
def run (l : Limiter) : List Call → List Turn × Limiter
  | [] => ([], l)
  | call :: calls =>
    (⟨l, call⟩ :: ((l.perform call).2.run calls).1, ((l.perform call).2.run calls).2)

/-- The codes that went out by the `turns`. -/
def returned (turns : List Turn) : List UInt16 := turns.filterMap (·.returned?)

/-- The codes that were offered by the `turns` and not lost. -/
def accepted (turns : List Turn) : List UInt16 :=
  (turns.filter (!·.drops)).filterMap (·.call.offered?)

/-- When codes went out by the `turns`. -/
def departures (turns : List Turn) : List Instant := turns.filterMap (·.sentAt?)

/-! ### One call -/

/-- What a `call` comes to: the `code` that it returns, whether one is lost, and the limiter after
it. -/
inductive Course (l : Limiter) : Call → Option UInt16 → Bool → Limiter → Prop where
  /-- Nothing waits and the link is free, so the code goes out at once. -/
  | passed {code : UInt16} {now : Instant} (empty : l.queue = [])
      (free : l.busyUntil.reached now = true) :
      Course l (.submit code now) (some code) false { l with busyUntil := some (now + l.interval) }
  | kept {call : Call} {code : UInt16} (offered : call.offered? = some code)
      (room : l.queue.length < capacity) :
      Course l call none false { l with queue := l.queue ++ [code] }
  | lost {call : Call} {code : UInt16} (offered : call.offered? = some code)
      (full : capacity ≤ l.queue.length) :
      Course l call none true { l with dropped := l.dropped + 1 }
  | released {code : UInt16} {rest : List UInt16} {now : Instant} (waits : l.queue = code :: rest)
      (free : l.busyUntil.reached now = true) :
      Course l (.poll now) (some code) false
        { l with queue := rest, busyUntil := some (now + l.interval) }
  /-- Nothing waits, and the link is known to be free from now on. -/
  | rested {now : Instant} (empty : l.queue = []) (free : l.busyUntil.reached now = true) :
      Course l (.poll now) none false { l with busyUntil := none }
  | held {now : Instant} (busy : l.busyUntil.reached now = false) :
      Course l (.poll now) none false l

variable {l l' : Limiter} {call : Call} {code? : Option UInt16} {isLost : Bool}

/-- A `code` that does not go out at once waits if there is room for it. -/
theorem course_enqueue {code : UInt16} (hcode : call.offered? = some code) :
    ∃ isLost, Course l call none isLost (l.enqueue code).2 := by
  unfold enqueue
  by_cases hroom : l.queue.length < capacity
  · rw [if_pos hroom]
    exact ⟨_, .kept hcode hroom⟩
  · rw [if_neg hroom]
    exact ⟨_, .lost hcode (Nat.le_of_not_lt hroom)⟩

/-- Every `call` takes one of these courses. -/
theorem course_perform (l : Limiter) (call : Call) :
    ∃ isLost, Course l call (l.perform call).1 isLost (l.perform call).2 := by
  cases call with
  | submit code now =>
    simp only [perform, submit]
    split
    · next hfree =>
      obtain ⟨hempty, hreached⟩ := Bool.and_eq_true_iff.1 hfree
      exact ⟨_, .passed (List.isEmpty_iff.1 hempty) hreached⟩
    · exact course_enqueue rfl
  | enqueue code => exact course_enqueue rfl
  | poll now =>
    change ∃ isLost, Course l (.poll now) (l.poll now).1 isLost (l.poll now).2
    unfold poll
    split
    · next hfree =>
      split
      · next hempty => exact ⟨_, .rested hempty hfree⟩
      · next hwaits => exact ⟨_, .released hwaits hfree⟩
    · next hbusy => exact ⟨_, .held (Bool.eq_false_iff.2 hbusy)⟩

namespace Course

/-- A code is lost if it is offered and goes neither out nor into the queue. -/
theorem isLost_eq (h : Course l call code? isLost l') :
    isLost = (call.offered?.isSome && code?.isNone && l'.queue == l.queue) := by
  cases h with
  | passed empty free => simp
  | kept offered room => simp
  | lost offered full => simp [offered]
  | _ => simp [Call.offered?]

/-- A code is lost exactly when it finds the `queue` full. -/
theorem isLost_iff (h : Course l call code? isLost l') :
    isLost = true ↔ call.offered?.isSome = true ∧ capacity ≤ l.queue.length := by
  cases h with
  | passed empty free => simp [empty, capacity]
  | kept offered room => simp [Nat.not_le.2 room]
  | lost offered full => simp [offered, full]
  | _ => simp [Call.offered?]

/-- No call changes the `interval`. -/
theorem interval_eq (h : Course l call code? isLost l') : l'.interval = l.interval := by
  cases h <;> rfl

/-- No more codes wait than the `capacity`. -/
theorem room (h : Course l call code? isLost l') (hroom : l.queue.length ≤ capacity) :
    l'.queue.length ≤ capacity := by
  cases h with
  | kept offered room =>
    rw [List.length_append, List.length_singleton]
    exact room
  | released waits free =>
    rw [waits, List.length_cons] at hroom
    exact Nat.le_of_succ_le hroom
  | _ => exact hroom

/-- What is taken in joins those that wait in the `queue`, and what is given out was the first of
them. -/
theorem queue_eq (h : Course l call code? isLost l') :
    l.queue ++ (if isLost then [] else call.offered?.toList) = code?.toList ++ l'.queue := by
  cases h with
  | passed empty free => simp [empty, Call.offered?]
  | kept offered room => simp [offered]
  | lost offered full => simp
  | released waits free => simp [waits, Call.offered?]
  | _ => simp [Call.offered?]

theorem dropped_eq (h : Course l call code? isLost l') :
    l'.dropped = l.dropped + if isLost then 1 else 0 := by
  cases h <;> simp

end Course

/-- Every `turn` takes a course, and loses a code if that says so. -/
theorem Turn.course (turn : Turn) :
    Course turn.before turn.call turn.returned? turn.drops turn.after := by
  obtain ⟨isLost, h⟩ := course_perform turn.before turn.call
  have hdrops : turn.drops = isLost := h.isLost_eq.symm
  rw [hdrops]
  exact h

/-! ### Whether a code goes out at once -/

/-- Whether a code that is offered at `now` goes out at once. -/
def isFree (l : Limiter) (now : Instant) : Bool := l.queue.isEmpty && l.busyUntil.reached now

variable {now : Instant}

theorem isFree_of_queue_ne_nil (h : l.queue ≠ []) : l.isFree now = false := by
  rw [isFree, List.isEmpty_eq_false_iff.2 h, Bool.false_and]

/-- A code that finds the link free goes out, and keeps it busy for the `interval`. -/
theorem submit_of_free (h : l.isFree now = true) (code : UInt16) :
    l.submit code now = (some code, { l with busyUntil := some (now + l.interval) }) := if_pos h

/-- A `code` that does not find it free joins those that wait. -/
theorem submit_of_not_free (h : l.isFree now = false) (code : UInt16) :
    l.submit code now = (none, (l.enqueue code).2) := if_neg (Bool.eq_false_iff.1 h)

/-- A `code` that has to wait leaves the link as busy as it was. -/
theorem submit_of_busy (h : l.isFree now = false) (code : UInt16) :
    (l.submit code now).1 = none ∧ (l.submit code now).2.isFree now = false := by
  rw [submit_of_not_free h]
  refine ⟨rfl, ?_⟩
  unfold enqueue
  by_cases hroom : l.queue.length < capacity
  · rw [if_pos hroom]
    exact isFree_of_queue_ne_nil (List.append_ne_nil_of_right_ne_nil _ (List.cons_ne_nil _ _))
  · rw [if_neg hroom]
    exact h

/-! ### Many calls -/

/-- Every call of a run is made to a limiter with no more codes than the `capacity`. -/
theorem run_room (calls : List Call) (hroom : l.queue.length ≤ capacity) :
    (l.run calls).2.queue.length ≤ capacity ∧
      ∀ turn ∈ (l.run calls).1, turn.before.queue.length ≤ capacity := by
  induction calls generalizing l with
  | nil => exact ⟨hroom, fun turn hturn => absurd hturn List.not_mem_nil⟩
  | cons call calls ih =>
    obtain ⟨hend, hturns⟩ := ih (Turn.course ⟨l, call⟩ |>.room hroom)
    refine ⟨hend, fun turn hturn => ?_⟩
    rcases List.mem_cons.1 hturn with rfl | hturn
    · exact hroom
    · exact hturns turn hturn

/-- Nothing is lost but what is dropped (`drops`), and nothing overtakes or is doubled. -/
theorem run_queue (l : Limiter) (calls : List Call) :
    l.queue ++ accepted (l.run calls).1 = returned (l.run calls).1 ++ (l.run calls).2.queue := by
  induction calls generalizing l with
  | nil => simp [run, accepted, returned]
  | cons call calls ih =>
    have hfirst := (Turn.course ⟨l, call⟩).queue_eq
    have haccepted : accepted (l.run (call :: calls)).1 =
        (if Turn.drops ⟨l, call⟩ then [] else call.offered?.toList) ++
          accepted ((l.perform call).2.run calls).1 := by
      cases hdrops : Turn.drops ⟨l, call⟩ <;> cases hcode : call.offered? <;>
        simp [accepted, run, hdrops, hcode]
    have hreturned : returned (l.run (call :: calls)).1 =
        (Turn.returned? ⟨l, call⟩).toList ++ returned ((l.perform call).2.run calls).1 := by
      cases hcode : Turn.returned? ⟨l, call⟩ <;> simp [returned, run, hcode]
    calc l.queue ++ accepted (l.run (call :: calls)).1
        = (Turn.returned? ⟨l, call⟩).toList ++
            ((l.perform call).2.queue ++ accepted ((l.perform call).2.run calls).1) := by
          rw [haccepted, ← List.append_assoc, hfirst, List.append_assoc]
          rfl
      _ = returned (l.run (call :: calls)).1 ++ (l.run (call :: calls)).2.queue := by
          rw [ih, hreturned, List.append_assoc]
          rfl

/-- The counter counts the losses of a run of `calls`, as far as 32 bits go. -/
theorem run_dropped (l : Limiter) (calls : List Call) :
    (l.run calls).2.dropped = l.dropped + UInt32.ofNat ((l.run calls).1.countP (·.drops)) := by
  induction calls generalizing l with
  | nil => simp [run]
  | cons call calls ih =>
    have hfirst := (Turn.course ⟨l, call⟩).dropped_eq
    have hrest := ih (l.perform call).2
    simp only [run, List.countP_cons]
    rw [hrest]
    simp only [Turn.after] at hfirst
    rw [hfirst]
    cases Turn.drops ⟨l, call⟩ <;> simp [UInt32.add_assoc, UInt32.add_comm]

/-! ### Times -/

/-- A call that finds the link free sends a code, from which the `interval` is counted, or finds
nothing to send; any other call leaves the link as it is. -/
theorem Turn.timing (turn : Turn) :
    (∃ now, turn.call.time? = some now ∧ turn.before.busyUntil.reached now = true ∧
      (turn.sentAt? = some now ∧ turn.after.busyUntil = some (now + turn.before.interval) ∨
        turn.sentAt? = none ∧ turn.after.busyUntil = none)) ∨
    turn.sentAt? = none ∧ turn.after.busyUntil = turn.before.busyUntil := by
  have h := turn.course
  unfold sentAt?
  generalize turn.call = call, turn.returned? = code?, turn.drops = isLost, turn.after = l' at h ⊢
  cases h with
  | passed empty free => exact .inl ⟨_, rfl, free, .inl ⟨rfl, rfl⟩⟩
  | released waits free => exact .inl ⟨_, rfl, free, .inl ⟨rfl, rfl⟩⟩
  | rested empty free => exact .inl ⟨_, rfl, free, .inr ⟨rfl, rfl⟩⟩
  | _ => exact .inr ⟨rfl, rfl⟩

/-- The code of the first `turn` went out before those of the others. -/
theorem departures_cons (turn : Turn) (turns : List Turn) :
    departures (turn :: turns) = turn.sentAt?.toList ++ departures turns := by
  cases h : turn.sentAt? <;> simp [departures, h]

/-- When the call of the `turn` was made, and when a code went out. -/
def Turn.moment (turn : Turn) : Moment := ⟨turn.call.time?, turn.sentAt?⟩

/-- A run makes the `calls` that it is to make. -/
theorem run_calls (l : Limiter) (calls : List Call) : (l.run calls).1.map (·.call) = calls := by
  induction calls generalizing l with
  | nil => rfl
  | cons call calls ih => exact congrArg (call :: ·) (ih _)

/-- The link is kept free for the `interval` after each code. -/
theorem run_paced (l : Limiter) (calls : List Call) :
    Paced l.interval l.busyUntil ((l.run calls).1.map (·.moment)) := by
  induction calls generalizing l with
  | nil => exact .nil _
  | cons call calls ih =>
    have hcourse := Turn.course ⟨l, call⟩
    have hrest := ih (Turn.after ⟨l, call⟩)
    change Paced _ _
      (⟨call.time?, if (Turn.returned? ⟨l, call⟩).isSome then call.time? else none⟩ ::
        ((Turn.after ⟨l, call⟩).run calls).1.map (·.moment))
    generalize Turn.returned? ⟨l, call⟩ = code?, Turn.drops ⟨l, call⟩ = isLost,
      Turn.after ⟨l, call⟩ = l' at hcourse hrest ⊢
    cases hcourse with
    | passed empty free => exact .sent free hrest
    | released waits free => exact .sent free hrest
    | rested empty free => exact .rested free hrest
    | _ => exact .kept hrest

/-- If the times do not go back and no call finds the link free before `earliest`, no code goes out
before that time, and any two go out at the interval. -/
theorem run_departures (calls : List Call) {earliest : Instant}
    (hfree : ∀ now ∈ calls.filterMap (·.time?), l.busyUntil.reached now = true → earliest ≤ now)
    (hsorted : (calls.filterMap (·.time?)).Pairwise (· ≤ ·)) :
    (∀ s ∈ departures (l.run calls).1, earliest ≤ s) ∧
      (departures (l.run calls).1).Pairwise fun s s' => s + l.interval ≤ s' := by
  have htimes : ((l.run calls).1.map (·.moment)).filterMap (·.time?) =
      calls.filterMap (·.time?) := by
    rw [← congrArg (List.filterMap (·.time?)) (run_calls l calls), List.filterMap_map,
      List.filterMap_map]
    rfl
  have hdepartures : ((l.run calls).1.map (·.moment)).filterMap (·.sentAt?) =
      departures (l.run calls).1 := List.filterMap_map
  rw [← htimes] at hfree hsorted
  rw [← hdepartures]
  exact (run_paced l calls).departures hfree hsorted

/-- The link is busy at most for the `interval` after the code that went out last. -/
theorem run_busy (calls : List Call) {last? : Option Instant}
    (hlast : ∀ b, l.busyUntil = some b → ∃ s ∈ last?, b = s + l.interval) :
    ∀ b, (l.run calls).2.busyUntil = some b →
      ∃ s ∈ (departures (l.run calls).1).getLast?.or last?, b = s + l.interval := by
  induction calls generalizing l last? with
  | nil => exact hlast
  | cons call calls ih =>
    have hinterval : (l.perform call).2.interval = l.interval :=
      (Turn.course ⟨l, call⟩).interval_eq
    have hrest := @ih (l.perform call).2
    rw [hinterval] at hrest
    rw [run, departures_cons, List.getLast?_append, Option.or_assoc]
    refine hrest fun b hb => ?_
    rcases Turn.timing ⟨l, call⟩ with ⟨now, -, -, ⟨hsent, hbusy⟩ | ⟨-, hbusy⟩⟩ | ⟨hsent, hbusy⟩
    · rw [hsent]
      exact ⟨now, rfl, Option.some.inj (hb.symm.trans hbusy)⟩
    · cases hb.symm.trans hbusy
    · rw [hsent]
      exact hlast b (hbusy.symm.trans hb)

/-- A `poll` that finds the link free releases a code if one waits. -/
theorem poll_of_free {now : Instant} (hfree : l.busyUntil.reached now = true)
    (hwaits : l.queue ≠ []) : ∃ code, (l.poll now).1 = some code := by
  obtain ⟨code, rest, hqueue⟩ := List.exists_cons_of_ne_nil hwaits
  refine ⟨code, ?_⟩
  rw [poll, if_pos hfree, hqueue]

/-- **A lossless bounded queue.**  Take a new limiter and any `calls`.  The codes that went out
(`returned`), followed by those that wait, are those that were offered without the ones that were
lost (`accepted`), each once and in order.  At most sixteen wait, a code is lost (`drops`) exactly
when it finds sixteen waiting, and the counter counts the losses modulo 2^32.  If the times do not
go back, any two codes went out (`departures`) at the `interval` or more; and a poll at the interval
or more after the last one releases a code if any waits. -/
theorem lossless_fifo (interval : Duration) (calls : List Call) :
    let life := ({ interval } : Limiter).run calls
    returned life.1 ++ life.2.queue = accepted life.1 ∧
    life.2.queue.length ≤ capacity ∧
    (∀ turn ∈ life.1, turn.drops = true ↔
      turn.call.offered?.isSome = true ∧ turn.before.queue.length = capacity) ∧
    (∀ turn ∈ life.1, ∀ code, turn.call = .enqueue code →
      (turn.before.enqueue code).1 = !turn.drops) ∧
    life.2.dropped.toNat = life.1.countP (·.drops) % UInt32.size ∧
    ((calls.filterMap (·.time?)).Pairwise (· ≤ ·) →
      (departures life.1).Pairwise fun earlier later => earlier + interval ≤ later) ∧
    ∀ now, (∀ last ∈ (departures life.1).getLast?, last + interval ≤ now) →
      life.2.queue ≠ [] → ∃ code, (life.2.poll now).1 = some code := by
  intro life
  have hqueue := run_queue { interval } calls
  obtain ⟨hroom, hrooms⟩ := @run_room { interval } calls (Nat.zero_le _)
  have hdropped := run_dropped { interval } calls
  refine ⟨hqueue.symm, hroom, fun turn hturn => ?_, fun turn hturn code hcall => ?_, ?_,
    fun hsorted => ?_, fun now hlast hwaits => ?_⟩
  · rw [turn.course.isLost_iff]
    have hle := hrooms turn hturn
    exact and_congr_right fun _ =>
      ⟨fun hfull => Nat.le_antisymm hle hfull, fun heq => Nat.le_of_eq heq.symm⟩
  · rw [Bool.eq_iff_iff, Bool.not_eq_true', Bool.eq_false_iff, ne_eq, turn.course.isLost_iff, hcall]
    by_cases hfull : turn.before.queue.length < capacity
    · simp [enqueue, hfull, Call.offered?]
    · simp [enqueue, hfull, Call.offered?, Nat.le_of_not_lt hfull]
  · have hzero : life.2.dropped = UInt32.ofNat (life.1.countP (·.drops)) := by
      rw [hdropped]
      exact UInt32.zero_add _
    rw [hzero, UInt32.toNat_ofNat']
  · exact (@run_departures { interval } calls 0 (fun _ _ _ => Nat.zero_le _) hsorted).2
  · refine poll_of_free ?_ hwaits
    have hbusy := @run_busy { interval } calls none (fun b hb => nomatch hb)
    cases hb : life.2.busyUntil with
    | none => rfl
    | some b =>
      obtain ⟨s, hs, rfl⟩ := hbusy b hb
      rw [Option.or_none] at hs
      exact decide_eq_true (hlast s hs)

/-- Eighteen codes at once, and then a look at the queue every five milliseconds. -/
def burst : List Call :=
  (List.range 18).map (fun i => .submit i.toUInt16 0) ++
    [.poll 5000, .poll 10000, .poll 15000, .poll 20000]

/-- The first code goes out at once, sixteen wait, and the last one is lost. -/
theorem lossless_fifo_burst :
    let life := ({ interval := keyInterval } : Limiter).run burst
    life.2.dropped = 1 ∧ departures life.1 = [0, 10000, 20000] ∧
      returned life.1 ++ life.2.queue = (List.range 17).map Nat.toUInt16 ∧
      ((departures life.1).Pairwise fun earlier later => earlier + keyInterval ≤ later) ∧
      ∃ code, (life.2.poll 30000).1 = some code := by
  obtain ⟨hcodes, -, -, -, -, hspaced, hreleased⟩ := lossless_fifo keyInterval burst
  refine ⟨by decide, by decide, hcodes.trans (by decide), hspaced (by decide), ?_⟩
  exact hreleased 30000 (by decide) (by decide)

end IoController.Keyboard.Limiter
