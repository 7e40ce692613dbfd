import IoController.Bridge.Frame

/-!
# Bridge — Decoder

Frames are found in the stream byte by byte.  Between frames everything but the sync byte is
skipped, and a frame that claims to be too long is given up.

* `Decoder.feed_append`: a stream may be cut anywhere.
-/

namespace IoController.Bridge

/-- How far into a frame the stream is. -/
inductive Decoder where
  | idle
  | kind
  | length (kind : UInt8)
  /-- `missing + 1` bytes of the payload are still to come. -/
  | payload (kind : UInt8) (missing : Nat) (read : Bytes)
  deriving DecidableEq

namespace Decoder

/-- Reads the byte `b`.  If it ends a frame that reports something, the report is returned. -/
def push (d : Decoder) (b : UInt8) : Option UsbReport × Decoder :=
  match d with
  | idle => (none, if b = sync then kind else idle)
  | kind => (none, length b)
  | length k =>
    if maxPayload < b.toNat then (none, if b = sync then kind else idle)
    else
      match b.toNat with
      | 0 => (Frame.report? ⟨k, []⟩, idle)
      | n + 1 => (none, payload k n [])
  | payload k n read =>
    match n with
    | 0 => (Frame.report? ⟨k, read ++ [b]⟩, idle)
    | n + 1 => (none, payload k n (read ++ [b]))

/-- Reads a stream by `push`.  Each report comes with the number of the byte that ended its frame,
counted from `start`. -/
def feed (d : Decoder) (start : Nat) : Bytes → List (Nat × UsbReport) × Decoder
  | [] => ([], d)
  | b :: bs =>
    let (report, d) := d.push b
    let (reports, d) := d.feed (start + 1) bs
    (report.toList.map (start, ·) ++ reports, d)

/-- To read `s ++ t` is to read `s` and then, in the state that it leaves, `t`. -/
theorem feed_append (d : Decoder) (start : Nat) (s t : Bytes) :
    d.feed start (s ++ t) =
      ((d.feed start s).1 ++ ((d.feed start s).2.feed (start + s.length) t).1,
        ((d.feed start s).2.feed (start + s.length) t).2) := by
  induction s generalizing d start with
  | nil => rfl
  | cons b bs ih =>
    simp only [List.cons_append, feed, ih, List.append_assoc, List.length_cons]
    rw [Nat.add_assoc start 1, Nat.add_comm 1]

end Decoder

end IoController.Bridge
