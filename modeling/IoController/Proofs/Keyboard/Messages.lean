import IoController.Bits
import IoController.Proofs.Keyboard.Queueing

/-!
# Keyboard — Messages

Messages of several bytes that a limiter is offered byte by byte.

* `Limiter.offer`: the bytes that go out at once, and the limiter after it.
* `Limiter.offer_stream`: of a message the limiter takes the first bytes, as many as it has room
  for, and no others.
* `Limiter.offers`: messages one after another, each with the room that it finds.
* `Keyboard.IsMessage`: the messages of the Atari's keyboard link.  `Keyboard.flatten_ne_of_cut`:
  messages with a part of one behind them are no messages.
-/

namespace IoController.Keyboard

namespace Limiter

variable {l : Limiter} {now : Instant}

/-! ### Offering bytes -/

/-- Offers the bytes `bs` one after another: those that go out at once, and the limiter after it. -/
def offer (l : Limiter) (now : Instant) : Bytes → Bytes × Limiter
  | [] => ([], l)
  | b :: bs =>
    let (ready, l) := l.submit b.toUInt16 now
    let (sent, l) := l.offer now bs
    ((ready.map (·.toUInt8)).toList ++ sent, l)

/-- The bytes that wait in the limiter `l`. -/
def waiting (l : Limiter) : Bytes := l.queue.map (·.toUInt8)

/-- For how many bytes there is room at `now`: one may go out, and others wait behind those that do.
-/
def room (l : Limiter) (now : Instant) : Nat :=
  (if l.isFree now then 1 else 0) + (capacity - l.queue.length)

/-- Bytes that are offered together, `bs` and `bs'`, are offered one after another. -/
theorem offer_append (l : Limiter) (now : Instant) (bs bs' : Bytes) :
    l.offer now (bs ++ bs') =
      ((l.offer now bs).1 ++ ((l.offer now bs).2.offer now bs').1,
        ((l.offer now bs).2.offer now bs').2) := by
  induction bs generalizing l with
  | nil => rfl
  | cons b bs ih => simp only [List.cons_append, offer, ih, List.append_assoc]

/-- The limiter keeps its `interval`, whatever is offered. -/
theorem offer_interval (l : Limiter) (now : Instant) (bs : Bytes) :
    (l.offer now bs).2.interval = l.interval := by
  induction bs generalizing l with
  | nil => rfl
  | cons b bs ih =>
    have hfirst : (l.submit b.toUInt16 now).2.interval = l.interval :=
      (Turn.course ⟨l, .submit b.toUInt16 now⟩).interval_eq
    exact (ih _).trans hfirst

theorem poll_interval (l : Limiter) (now : Instant) : (l.poll now).2.interval = l.interval :=
  (Turn.course ⟨l, .poll now⟩).interval_eq

/-- A byte that has to wait joins the others if there is room in the `queue`. -/
theorem submit_of_room (hfree : l.isFree now = false) (hroom : l.queue.length < capacity)
    (code : UInt16) : l.submit code now = (none, { l with queue := l.queue ++ [code] }) := by
  rw [submit_of_not_free hfree, enqueue, if_pos hroom]

theorem submit_of_full (hfree : l.isFree now = false) (hfull : capacity ≤ l.queue.length)
    (code : UInt16) : l.submit code now = (none, { l with dropped := l.dropped + 1 }) := by
  rw [submit_of_not_free hfree, enqueue, if_neg (Nat.not_lt.2 hfull)]

/-- A `code` that is taken in at once makes the limiter busy, and one that has to wait takes up
room. -/
theorem submit_room (hinterval : 0 < l.interval) (now : Instant) (code : UInt16) :
    (l.submit code now).2.room now = l.room now - 1 := by
  cases hfree : l.isFree now with
  | true =>
    have hbusy : isFree { l with busyUntil := some (now + l.interval) } now = false := by
      have hnot : ¬ now + l.interval ≤ now := Nat.not_le.2 (Nat.lt_add_of_pos_right hinterval)
      simp [isFree, hnot]
    rw [submit_of_free hfree, room, room, hbusy, hfree]
    simp
  | false =>
    have hbusy := (submit_of_busy hfree code).2
    rw [room, room, hbusy, hfree]
    rcases Nat.lt_or_ge l.queue.length capacity with hroom | hfull
    · rw [submit_of_room hfree hroom, List.length_append, List.length_singleton]
      simp [Nat.sub_sub]
    · rw [submit_of_full hfree hfull, Nat.sub_eq_zero_of_le hfull]
      simp

/-- The first byte `b` of a message is taken in just if there is room. -/
theorem submit_stream (l : Limiter) (now : Instant) (b : UInt8) :
    l.waiting ++ [b].take (l.room now) =
      ((l.submit b.toUInt16 now).1.map (·.toUInt8)).toList ++
        (l.submit b.toUInt16 now).2.waiting := by
  cases hfree : l.isFree now with
  | true =>
    have hempty : l.queue = [] := List.isEmpty_iff.1 (Bool.and_eq_true_iff.1 hfree).1
    rw [submit_of_free hfree, room, hfree]
    simp [waiting, hempty, capacity]
  | false =>
    rw [room, hfree]
    rcases Nat.lt_or_ge l.queue.length capacity with hroom | hfull
    · have hpos : [b].length ≤ capacity - l.queue.length := Nat.sub_pos_of_lt hroom
      rw [submit_of_room hfree hroom]
      simp [waiting, List.take_of_length_le hpos]
    · rw [submit_of_full hfree hfull, Nat.sub_eq_zero_of_le hfull]
      simp [waiting]

/-- **A message in the queue.**  Of a message `bs` that is offered, the first bytes join those that
wait (`waiting`), as many as there is `room` for, and the others are dropped. -/
theorem offer_stream (hinterval : 0 < l.interval) (now : Instant) (bs : Bytes) :
    l.waiting ++ bs.take (l.room now) = (l.offer now bs).1 ++ (l.offer now bs).2.waiting := by
  induction bs generalizing l with
  | nil => simp [offer]
  | cons b bs ih =>
    have hfirst := l.submit_stream now b
    have hroom := submit_room hinterval now b.toUInt16
    have hkept : (l.submit b.toUInt16 now).2.interval = l.interval :=
      (Turn.course ⟨l, .submit b.toUInt16 now⟩).interval_eq
    have hrest := ih (l := (l.submit b.toUInt16 now).2) (hkept ▸ hinterval)
    have htake : (b :: bs).take (l.room now) =
        [b].take (l.room now) ++ bs.take (l.room now - 1) := by
      cases l.room now <;> simp
    calc l.waiting ++ (b :: bs).take (l.room now)
        = ((l.submit b.toUInt16 now).1.map (·.toUInt8)).toList ++
            ((l.submit b.toUInt16 now).2.waiting ++
              bs.take ((l.submit b.toUInt16 now).2.room now)) := by
          rw [htake, ← List.append_assoc, hfirst, List.append_assoc, hroom]
      _ = (l.offer now (b :: bs)).1 ++ (l.offer now (b :: bs)).2.waiting := by
          rw [hrest, ← List.append_assoc]
          rfl

/-- A message `bs` uses up room as long as there is any. -/
theorem offer_room (hinterval : 0 < l.interval) (now : Instant) (bs : Bytes) :
    (l.offer now bs).2.room now = l.room now - bs.length := by
  induction bs generalizing l with
  | nil => simp [offer]
  | cons b bs ih =>
    have hroom := submit_room hinterval now b.toUInt16
    have hkept : (l.submit b.toUInt16 now).2.interval = l.interval :=
      (Turn.course ⟨l, .submit b.toUInt16 now⟩).interval_eq
    have hrest := ih (l := (l.submit b.toUInt16 now).2) (hkept ▸ hinterval)
    rw [hroom] at hrest
    rw [List.length_cons, Nat.add_comm, ← Nat.sub_sub]
    exact hrest

/-- The passing of time takes nothing from the bytes that wait (`waiting`). -/
theorem poll_stream (l : Limiter) (now : Instant) :
    l.waiting = ((l.poll now).1.map (·.toUInt8)).toList ++ (l.poll now).2.waiting := by
  unfold poll waiting
  split
  · split <;> simp [*]
  · simp

/-! ### Offering messages -/

/-- Messages that are offered one after another at `now`, each with the room that it finds. -/
def offers (l : Limiter) (now : Instant) : List Bytes → List (Nat × Bytes)
  | [] => []
  | m :: ms => (l.room now, m) :: (l.offer now m).2.offers now ms

end Limiter

/-- What is kept of a message `o.2` that is offered, with the room `o.1` that it finds. -/
def kept (o : Nat × Bytes) : Bytes := o.2.take o.1

/-- Whether the offer `o` is cut: its first bytes are kept and its last are dropped. -/
def isCut (o : Nat × Bytes) : Bool := 0 < o.1 && o.1 < o.2.length

/-- The messages of the `offers` that are kept whole. -/
def wholes (offers : List (Nat × Bytes)) : List Bytes :=
  (offers.filter fun o => o.2.length ≤ o.1).map (·.2)

theorem wholes_sublist (offers : List (Nat × Bytes)) :
    (wholes offers).Sublist (offers.map (·.2)) :=
  List.filter_sublist.map _

/-- Unless a message is cut (`isCut`), what is kept are whole messages. -/
theorem flatMap_kept {offers : List (Nat × Bytes)} (h : ∀ o ∈ offers, isCut o = false) :
    offers.flatMap kept = (wholes offers).flatten := by
  induction offers with
  | nil => rfl
  | cons o offers ih =>
    obtain ⟨hfirst, hrest⟩ := List.forall_mem_cons.1 h
    have hstep : wholes (o :: offers) =
        if o.2.length ≤ o.1 then o.2 :: wholes offers else wholes offers := by
      unfold wholes
      rw [List.filter_cons]
      simp only [decide_eq_true_eq]
      split <;> rfl
    rw [List.flatMap_cons, ih hrest, hstep]
    split
    · next hroom =>
      rw [kept, List.take_of_length_le hroom]
      rfl
    · next hroom =>
      have hnone : o.1 = 0 := by
        have hlong : o.1 < o.2.length := Nat.lt_of_not_le hroom
        rw [isCut, decide_eq_true hlong, Bool.and_true, decide_eq_false_iff_not] at hfirst
        exact Nat.eq_zero_of_not_pos hfirst
      rw [kept, hnone]
      rfl

namespace Limiter

variable {l : Limiter} {now : Instant}

theorem offers_map_snd (l : Limiter) (now : Instant) (ms : List Bytes) :
    (l.offers now ms).map (·.2) = ms := by
  induction ms generalizing l with
  | nil => rfl
  | cons m ms ih => exact congrArg (m :: ·) (ih _)

theorem snd_mem_of_mem_offers {ms : List Bytes} {o : Nat × Bytes} (h : o ∈ l.offers now ms) :
    o.2 ∈ ms := by
  rw [← l.offers_map_snd now ms]
  exact List.mem_map_of_mem h

/-- What is kept of the messages `ms` joins the bytes that wait. -/
theorem offers_stream (hinterval : 0 < l.interval) (now : Instant) (ms : List Bytes) :
    l.waiting ++ (l.offers now ms).flatMap kept =
      (l.offer now ms.flatten).1 ++ (l.offer now ms.flatten).2.waiting := by
  induction ms generalizing l with
  | nil => simp [offers, offer]
  | cons m ms ih =>
    have hfirst := offer_stream hinterval now m
    have hrest := ih (l := (l.offer now m).2) ((l.offer_interval now m).symm ▸ hinterval)
    calc l.waiting ++ (l.offers now (m :: ms)).flatMap kept
        = (l.offer now m).1 ++ ((l.offer now m).2.waiting ++
            ((l.offer now m).2.offers now ms).flatMap kept) := by
          rw [← List.append_assoc, ← hfirst, List.append_assoc]
          rfl
      _ = (l.offer now (m :: ms).flatten).1 ++ (l.offer now (m :: ms).flatten).2.waiting := by
          rw [hrest, List.flatten_cons, offer_append, List.append_assoc]

/-- Once a message was cut there is no `room` for another at that time. -/
theorem offers_of_full (hinterval : 0 < l.interval) (hfull : l.room now = 0) (ms : List Bytes) :
    ∀ o ∈ l.offers now ms, o.1 = 0 := by
  induction ms generalizing l with
  | nil => exact fun o ho => absurd ho List.not_mem_nil
  | cons m ms ih =>
    refine List.forall_mem_cons.2 ⟨hfull, ih ((l.offer_interval now m).symm ▸ hinterval) ?_⟩
    rw [offer_room hinterval, hfull, Nat.zero_sub]

/-- Of the messages `ms` that are offered at one time at most one is cut, and none after it is kept.
-/
theorem offers_cut (hinterval : 0 < l.interval) (now : Instant) (ms : List Bytes) :
    (∀ o ∈ l.offers now ms, isCut o = false) ∨
      ∃ whole o rest, l.offers now ms = whole ++ o :: rest ∧ isCut o = true ∧
        (∀ o' ∈ whole, isCut o' = false) ∧ ∀ o' ∈ rest, o'.1 = 0 := by
  induction ms generalizing l with
  | nil => exact .inl fun o ho => absurd ho List.not_mem_nil
  | cons m ms ih =>
    have hkept := (l.offer_interval now m).symm ▸ hinterval
    cases hcut : isCut (l.room now, m) with
    | true =>
      have hshort : l.room now < m.length := of_decide_eq_true (Bool.and_eq_true_iff.1 hcut).2
      refine .inr ⟨[], _, _, rfl, hcut, fun o ho => absurd ho List.not_mem_nil, ?_⟩
      refine offers_of_full hkept ?_ ms
      rw [offer_room hinterval]
      omega
    | false =>
      rcases ih hkept with hall | ⟨whole, o, rest, hoffers, ho, hwhole, hrest⟩
      · exact .inl (List.forall_mem_cons.2 ⟨hcut, hall⟩)
      · refine .inr ⟨_ :: whole, o, rest, congrArg (_ :: ·) hoffers, ho, ?_, hrest⟩
        exact List.forall_mem_cons.2 ⟨hcut, hwhole⟩

end Limiter

/-! ### The messages of the Atari -/

/-- The messages of the Atari's keyboard link. -/
inductive IsMessage : Bytes → Prop where
  /-- A key, with bit 7 set if it goes up.  The codes from 0xf6 on are headers. -/
  | key {code : UInt8} (isKey : code < 0xf6) : IsMessage [code]
  | mouse {header dx dy : UInt8} (isMouse : 0xf8 ≤ header ∧ header ≤ 0xfb) :
      IsMessage [header, dx, dy]
  | joystick {header state : UInt8} (isJoystick : header = 0xfe ∨ header = 0xff) :
      IsMessage [header, state]

/-- How long the message with this `header` is. -/
def messageLength (header : UInt8) : Nat :=
  if header < 0xf6 then 1 else if header < 0xfc then 3 else 2

namespace IsMessage

variable {m m' : Bytes}

/-- The header says how long a message is (`messageLength`). -/
theorem header (h : IsMessage m) : ∃ b rest, m = b :: rest ∧ m.length = messageLength b := by
  cases h with
  | key isKey => exact ⟨_, [], rfl, by rw [messageLength, if_pos isKey]; rfl⟩
  | @mouse header dx dy isMouse =>
    refine ⟨header, [dx, dy], rfl, ?_⟩
    have hnot : ¬ header < 0xf6 := by grind
    have hmouse : header < 0xfc := by grind
    rw [messageLength, if_neg hnot, if_pos hmouse]
    rfl
  | joystick isJoystick =>
    refine ⟨_, _, rfl, ?_⟩
    rcases isJoystick with rfl | rfl <;> rfl

theorem ne_nil (h : IsMessage m) : m ≠ [] := by
  obtain ⟨b, rest, rfl, -⟩ := h.header
  exact List.cons_ne_nil b rest

/-- No message `m` is the beginning of another. -/
theorem eq_of_begins (h : IsMessage m) (h' : IsMessage m') (hbegins : m <+: m') : m = m' := by
  obtain ⟨b, rest, rfl, hlength⟩ := h.header
  obtain ⟨b', rest', rfl, hlength'⟩ := h'.header
  obtain ⟨rfl, -⟩ := List.cons_prefix_cons.1 hbegins
  exact hbegins.eq_of_length (hlength.trans hlength'.symm)

/-- Two messages `m` and `m'` that something begins with are one. -/
theorem eq_of_append {rest rest' : Bytes} (h : IsMessage m) (h' : IsMessage m')
    (heq : m ++ rest = m' ++ rest') : m = m' ∧ rest = rest' := by
  have hm : m <+: m' ++ rest' := heq ▸ List.prefix_append m rest
  have hm' : m' <+: m' ++ rest' := List.prefix_append m' rest'
  have hsame : m = m' := by
    rcases List.prefix_or_prefix_of_prefix hm hm' with hbegins | hbegins
    · exact h.eq_of_begins h' hbegins
    · exact (h'.eq_of_begins h hbegins).symm
  subst hsame
  exact ⟨rfl, List.append_cancel_left heq⟩

end IsMessage

/-- Messages with a `part` of one behind them are no messages: what was cut is seen. -/
theorem flatten_ne_of_cut {ms ms' : List Bytes} {m part : Bytes} (hms : ∀ m ∈ ms, IsMessage m)
    (hms' : ∀ m ∈ ms', IsMessage m) (hm : IsMessage m) (hpart : part <+: m) (hsome : part ≠ [])
    (hcut : part ≠ m) : ms.flatten ++ part ≠ ms'.flatten := by
  intro heq
  induction ms generalizing ms' with
  | nil =>
    cases ms' with
    | nil => exact hsome heq
    | cons m' ms' =>
      have hbegins : m' <+: part := by
        rw [List.flatten_nil, List.nil_append, List.flatten_cons] at heq
        exact heq ▸ List.prefix_append m' _
      -- the first of the other messages would be the beginning of the one that was cut
      have hwhole := (hms' m' List.mem_cons_self).eq_of_begins hm (hbegins.trans hpart)
      exact hcut (hpart.eq_of_length_le (hwhole ▸ hbegins.length_le))
  | cons m₁ ms ih =>
    have hfirst := hms m₁ List.mem_cons_self
    cases ms' with
    | nil => exact hfirst.ne_nil (List.append_eq_nil_iff.1 (List.append_eq_nil_iff.1 heq).1).1
    | cons m₂ ms' =>
      rw [List.flatten_cons, List.flatten_cons, List.append_assoc] at heq
      obtain ⟨-, hrest⟩ := hfirst.eq_of_append (hms' m₂ List.mem_cons_self) heq
      exact ih (fun m hm => hms m (List.mem_cons_of_mem _ hm))
        (fun m hm => hms' m (List.mem_cons_of_mem _ hm)) hrest

/-- Nor are messages with what is kept of others behind them, if one of those is cut. -/
theorem Limiter.flatten_ne_of_offers {l : Limiter} (hinterval : 0 < l.interval) {now : Instant}
    {ms ms' offered : List Bytes} (hms : ∀ m ∈ ms, IsMessage m) (hms' : ∀ m ∈ ms', IsMessage m)
    (hoffered : ∀ m ∈ offered, IsMessage m) {o : Nat × Bytes} (ho : o ∈ l.offers now offered)
    (hcut : isCut o = true) : ms.flatten ++ (l.offers now offered).flatMap kept ≠ ms'.flatten := by
  rcases offers_cut hinterval now offered with
    hnone | ⟨before, cut, rest, hoffers, hcut, hbefore, hrest⟩
  · exact absurd hcut (Bool.eq_false_iff.1 (hnone o ho))
  · have hmem (o' : Nat × Bytes) (ho' : o' ∈ before ++ cut :: rest) : IsMessage o'.2 :=
      hoffered o'.2 (snd_mem_of_mem_offers (hoffers ▸ ho'))
    have hdropped : rest.flatMap kept = [] := List.flatMap_eq_nil_iff.2 fun o' ho' => by
      rw [kept, hrest o' ho', List.take_zero]
    obtain ⟨hsome, hshort⟩ : 0 < cut.1 ∧ cut.1 < cut.2.length := by
      simpa [isCut] using hcut
    have hmessage := hmem cut (by simp)
    rw [hoffers, List.flatMap_append, List.flatMap_cons, hdropped, List.append_nil,
      flatMap_kept hbefore, ← List.append_assoc, ← List.flatten_append]
    refine flatten_ne_of_cut (fun m hm => ?_) hms' hmessage (List.take_prefix _ _) ?_ ?_
    · rcases List.mem_append.1 hm with hm | hm
      · exact hms m hm
      · obtain ⟨o', ho', rfl⟩ := List.mem_map.1 ((wholes_sublist before).subset hm)
        exact hmem o' (List.mem_append_left _ ho')
    · have hlength : 0 < (kept cut).length := by
        rw [kept, List.length_take]
        exact Nat.lt_min.2 ⟨hsome, List.length_pos_iff.2 hmessage.ne_nil⟩
      exact List.length_pos_iff.1 hlength
    · intro heq
      have hlength : (kept cut).length = cut.2.length := congrArg List.length heq
      rw [kept, List.length_take, Nat.min_eq_left (Nat.le_of_lt hshort)] at hlength
      exact absurd hlength (Nat.ne_of_lt hshort)

end IoController.Keyboard
