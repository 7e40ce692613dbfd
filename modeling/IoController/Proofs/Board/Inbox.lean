import IoController.Proofs.Board.Runs

/-!
# Board — Inbox

The way of a report from the line to the USB host to the controller.

* `Firmware.Went.inbox_eq`: what a turn does to the reports that wait.
* `Firmware.Runs.hears`: over a whole run the controller is handed what the devices reported, in
  order, less what found no room.
* `Firmware.Runs.waiting`: what waits after a run in which the controller had no turn.
-/

namespace IoController.Board.Firmware

variable {f f' : Firmware} {w : Trace Board} {task : Task} {wake : Wake} {wait : Wait}

/-! ### One turn -/

/-- Sixteen reports can wait, and an `input` that finds no room is lost. -/
theorem post_inbox (hfits : f.inbox.length ≤ inboxSize) (input : UsbReport) :
    (f.post input).inbox = (f.inbox ++ [input]).take inboxSize := by
  unfold post
  split
  · next hroom =>
    exact (List.take_of_length_le (by rwa [List.length_append])).symm
  · next hfull =>
    exact (List.take_left' (Nat.le_antisymm hfits (Nat.le_of_not_lt hfull))).symm

/-- The byte from the USB host that a turn receives. -/
def byte? : Task → Wake → Option UInt8
  | .bridge, .byte b => some b
  | _, _ => none

/-- The reports that end in the bytes `bs` from the USB host, which the decoder `d` reads. -/
def reports (d : Bridge.Decoder) (start : Nat) (bs : Bytes) : List UsbReport :=
  (d.feed start bs).1.map (·.2)

/-- The reports of `bs ++ bs'` are those of `bs`, and then those that the decoder goes on to read in
`bs'`. -/
theorem reports_append (d : Bridge.Decoder) (start : Nat) (bs bs' : Bytes) :
    reports d start (bs ++ bs') =
      reports d start bs ++ reports (d.feed start bs).2 (start + bs.length) bs' := by
  rw [reports, Bridge.Decoder.feed_append, List.map_append]
  rfl

/-- To `feed` one byte is to `push` it. -/
theorem feed_singleton (d : Bridge.Decoder) (start : Nat) (b : UInt8) :
    reports d start [b] = (d.push b).1.toList ∧ (d.feed start [b]).2 = (d.push b).2 := by
  rw [reports, Bridge.Decoder.feed]
  generalize d.push b = x
  obtain ⟨report, d'⟩ := x
  cases report <;> exact ⟨rfl, rfl⟩

/-- Without another report the `inbox` stays. -/
theorem take_inbox (hfits : f.inbox.length ≤ inboxSize) (d : Bridge.Decoder) (start : Nat) :
    (f.inbox ++ reports d start []).take inboxSize = f.inbox := by
  change (f.inbox ++ []).take inboxSize = f.inbox
  rw [List.append_nil, List.take_of_length_le hfits]

/-- A byte that is received is read by the decoder, and the report that it ends, if any, joins the
`inbox`. -/
theorem receive_eq (f : Firmware) (hfits : f.inbox.length ≤ inboxSize) (b : UInt8) (start : Nat) :
    (f.receive b).decoder = (f.decoder.feed start [b]).2 ∧
      (f.receive b).inbox = (f.inbox ++ reports f.decoder start [b]).take inboxSize := by
  rw [(feed_singleton f.decoder start b).1, (feed_singleton f.decoder start b).2, receive]
  generalize f.decoder.push b = x
  obtain ⟨report, d⟩ := x
  cases report with
  | none =>
    exact ⟨rfl, (take_inbox hfits d start).symm⟩
  | some input =>
    refine ⟨?_, post_inbox (f := { f with decoder := d }) hfits input⟩
    change (({ f with decoder := d } : Firmware).post input).decoder = d
    rw [post_same]

/-- What is cut off `l` first is cut off in the end. -/
theorem take_append_take (l l' : List UsbReport) (n : Nat) :
    (l.take n ++ l').take n = (l ++ l').take n := by
  have hleft : n - min n l.length = n - l.length := by omega
  rw [List.take_append, List.take_take, Nat.min_self, List.length_take, hleft, List.take_append]

/-- A turn that receives a byte has the decoder read it, and no other turn touches the `decoder`. -/
theorem Went.decoder_eq (h : Went f task wake w wait f') (hfits : f.inbox.length ≤ inboxSize)
    (start : Nat) : f'.decoder = (f.decoder.feed start (byte? task wake).toList).2 := by
  cases h with
  | watchdog | status => rfl
  | bridge =>
    cases wake with
    | byte b => exact (f.receive_eq hfits b start).1
    | start | time | lineError => rfl
  | io begins polls follows =>
    rw [follows.same, polls.same, begins.same]
    rfl

/-- The controller's task takes all that waits; in any other turn what is reported joins the
`inbox`, and is lost if there is no room. -/
theorem Went.inbox_eq (h : Went f task wake w wait f') (hfits : f.inbox.length ≤ inboxSize)
    (start : Nat) :
    f'.inbox = if task = .io then []
      else (f.inbox ++ reports f.decoder start (byte? task wake).toList).take inboxSize := by
  have hsame := (take_inbox hfits f.decoder start).symm
  cases h with
  | watchdog | status =>
    rw [if_neg nofun]
    exact hsame
  | bridge =>
    rw [if_neg nofun]
    cases wake with
    | byte b => exact (f.receive_eq hfits b start).2
    | start | time | lineError => exact hsame
  | io begins polls follows =>
    rw [if_pos rfl, follows.same, polls.same]

/-- No more than `inboxSize` reports wait after a turn. -/
theorem Went.inbox_le (h : Went f task wake w wait f') (hfits : f.inbox.length ≤ inboxSize) :
    f'.inbox.length ≤ inboxSize := by
  rw [h.inbox_eq hfits 0]
  split
  · exact Nat.zero_le _
  · exact List.length_take_le _ _

/-! ### Runs -/

/-- The byte from the USB host that a `turn` receives. -/
def Turn.byte? (turn : Turn) : Option UInt8 := Firmware.byte? turn.task turn.wake

/-- The reports that a `turn` hands to the controller: all that wait, if it is a turn of its task.
-/
def Turn.handed (turn : Turn) : List UsbReport :=
  if turn.task = .io then turn.before.inbox else []

/-- The bytes from the USB host that the `turns` receive. -/
def bytes (turns : List Turn) : Bytes := turns.filterMap Turn.byte?

/-- A run receives the byte of its first `turn`, and then those of the others. -/
theorem bytes_cons (turn : Turn) (turns : List Turn) :
    bytes (turn :: turns) = turn.byte?.toList ++ bytes turns := by
  unfold bytes
  cases hbyte : turn.byte? with
  | none => rw [List.filterMap_cons_none hbyte, Option.toList_none, List.nil_append]
  | some b => rw [List.filterMap_cons_some hbyte, Option.toList_some, List.singleton_append]

namespace Runs

variable {turns : List Turn}

/-- **The controller hears what the devices reported.**  What it is `handed` over a run, with what
waits in the end, is what waited at first and what the `bytes` received report, in this order and
less what found no room.  The decoder reads the bytes as one stream, however they are spread over
turns, and at most `inboxSize` reports wait. -/
theorem hears (h : Runs f turns f') (hwired : f.peripherals.Wired)
    (hfits : f.inbox.length ≤ inboxSize) (start : Nat) :
    f'.decoder = (f.decoder.feed start (bytes turns)).2 ∧ f'.inbox.length ≤ inboxSize ∧
      (turns.flatMap Turn.handed ++ f'.inbox).Sublist
        (f.inbox ++ reports f.decoder start (bytes turns)) := by
  induction h generalizing start with
  | nil f => exact ⟨rfl, hfits, List.sublist_append_left f.inbox _⟩
  | @cons f f' f'' task wake w wait turns run rest ih =>
    have hwent := (abides_step hwired task wake).ends run
    obtain ⟨lives, hlived, -⟩ := hwent.lived hwired
    obtain ⟨hdecoder, hfits'', hrest⟩ := ih (hlived.serving.wired hwired) (hwent.inbox_le hfits)
      (start + (byte? task wake).toList.length)
    rw [hwent.decoder_eq hfits start] at hdecoder hrest
    have hturn : ((Turn.mk f task wake w wait).handed ++ f'.inbox).Sublist
        (f.inbox ++ reports f.decoder start (byte? task wake).toList) := by
      rw [hwent.inbox_eq hfits start, Turn.handed]
      split
      · rw [List.append_nil]
        exact List.sublist_append_left _ _
      · exact List.take_sublist _ _
    rw [bytes_cons, Turn.byte?, Bridge.Decoder.feed_append, reports_append, List.flatMap_cons,
      List.append_assoc]
    refine ⟨hdecoder, hfits'', (hrest.append_left _).trans ?_⟩
    rw [← List.append_assoc, ← List.append_assoc]
    exact hturn.append_right _

/-- **Sixteen reports wait.**  After a run without a turn of the controller's task the first
`inboxSize` reports since its last turn wait for it; so as long as there are no more of them between
two of its turns, none is lost. -/
theorem waiting (h : Runs f turns f') (hwired : f.peripherals.Wired)
    (hfits : f.inbox.length ≤ inboxSize) (hio : ∀ turn ∈ turns, turn.task ≠ .io) (start : Nat) :
    f'.inbox = (f.inbox ++ reports f.decoder start (bytes turns)).take inboxSize := by
  induction h generalizing start with
  | nil f => exact (take_inbox hfits f.decoder start).symm
  | @cons f f' f'' task wake w wait turns run rest ih =>
    have hwent := (abides_step hwired task wake).ends run
    obtain ⟨lives, hlived, -⟩ := hwent.lived hwired
    obtain ⟨htask, hothers⟩ := List.forall_mem_cons.1 hio
    rw [ih (hlived.serving.wired hwired) (hwent.inbox_le hfits) hothers
      (start + (byte? task wake).toList.length), hwent.decoder_eq hfits start,
      hwent.inbox_eq hfits start, if_neg htask, bytes_cons, Turn.byte?, reports_append,
      ← List.append_assoc]
    exact take_append_take _ _ inboxSize

end Runs

end IoController.Board.Firmware
