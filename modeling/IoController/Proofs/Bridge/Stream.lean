import IoController.Bridge.Decoder

/-!
# Bridge — Stream

Reading undoes framing.  A stream is cut into passages, each a frame with the bytes before it that
are skipped, and comes to the reports of its frames.

* `Frame.Says`: what a frame reports, by its kind and the places of its payload.
* `Decoder.feed_frame`: a frame that is not too long comes to its own report, at its last byte.
* `Decoder.reads_back`: a stream of passages comes to the reports of its frames, in order and at
  their last bytes, and to nothing else.
-/

namespace IoController.Bridge

/-! ### What a frame reports -/

/-- A byte stands for the kind `k` just if it is its `byte`. -/
theorem Kind.ofByte?_eq_some_iff {b : UInt8} {k : Kind} : ofByte? b = some k ↔ b = k.byte := by
  constructor
  · intro h
    unfold ofByte? at h
    split at h <;> cases h <;> rfl
  · rintro rfl
    exact ofByte?_byte k

/-- What the frame `f` reports: the `kind` says of which device, and each field has its place.  Keys
that the `payload` is too short for are empty places, and bytes after the last field do not count.
-/
inductive Frame.Says (f : Frame) : UsbReport → Prop where
  | keyboard {report : Keyboard.Report} (hkind : f.kind = Kind.keyboard.byte)
      (hlong : 2 ≤ f.payload.length) (hmodifiers : report.modifiers.bits = f.payload[1])
      (hkeys : ∀ i (hi : i < Keyboard.maxKeys), report.keys[i] = f.payload.getD (i + 2) 0) :
      Says f (.keyboard f.payload[0] report)
  | mouse (hkind : f.kind = Kind.mouse.byte) (hlong : 3 ≤ f.payload.length) :
      Says f (.mouse f.payload[0] f.payload[1].toInt8 f.payload[2].toInt8)
  | joystick {state : Joystick.State} (hkind : f.kind = Kind.joystick.byte)
      (hlong : 2 ≤ f.payload.length) (hstate : state.bits = f.payload[1]) :
      Says f (.joystick f.payload[0] state)
  | joystickCount (hkind : f.kind = Kind.joystickCount.byte) (hlong : 1 ≤ f.payload.length) :
      Says f (.joystickCount f.payload[0])

namespace Frame

variable {f : Frame} {u : UsbReport}

/-- What `report?` finds the frame says. -/
theorem says_of_report? (h : f.report? = some u) : f.Says u := by
  obtain ⟨kind, payload⟩ := f
  simp only [report?] at h
  split at h
  · next priority modifiers keys hkind =>
    cases h
    exact .keyboard (Kind.ofByte?_eq_some_iff.1 hkind) (by simp) rfl fun i hi => by
      simp [Keyboard.Report.ofKeys]
  · next buttons dx dy rest hkind =>
    cases h
    exact .mouse (Kind.ofByte?_eq_some_iff.1 hkind) (by simp)
  · next index state rest hkind =>
    cases h
    exact .joystick (Kind.ofByte?_eq_some_iff.1 hkind) (by simp) rfl
  · next count rest hkind =>
    cases h
    exact .joystickCount (Kind.ofByte?_eq_some_iff.1 hkind) (by simp)
  · cases h

/-- What the frame says `report?` finds. -/
theorem Says.report?_eq (h : f.Says u) : f.report? = some u := by
  obtain ⟨kind, payload⟩ := f
  cases h with
  | @keyboard report hkind hlong hmodifiers hkeys =>
    match payload, hlong with
    | priority :: modifiers :: keys, _ =>
      obtain ⟨⟨bits⟩, places⟩ := report
      have hplaces : places = .ofFn fun i => keys.getD i 0 :=
        Vector.ext fun i hi => by simpa using hkeys i hi
      obtain rfl : bits = modifiers := hmodifiers
      simp [report?, Kind.ofByte?_eq_some_iff.2 hkind, Keyboard.Report.ofKeys, hplaces]
  | mouse hkind hlong =>
    match payload, hlong with
    | buttons :: dx :: dy :: rest, _ => simp [report?, Kind.ofByte?_eq_some_iff.2 hkind]
  | @joystick state hkind hlong hstate =>
    match payload, hlong with
    | index :: bits :: rest, _ =>
      obtain rfl : state = ⟨bits⟩ := congrArg Flags.mk hstate
      simp [report?, Kind.ofByte?_eq_some_iff.2 hkind]
  | joystickCount hkind hlong =>
    match payload, hlong with
    | count :: rest, _ => simp [report?, Kind.ofByte?_eq_some_iff.2 hkind]

end Frame

/-! ### A frame -/

namespace Decoder

/-- A byte `b` that ends no frame only moves the decoder on. -/
theorem feed_of_push {d d' : Decoder} {b : UInt8} (h : d.push b = (none, d')) (start : Nat)
    (bs : Bytes) : d.feed start (b :: bs) = d'.feed (start + 1) bs := by
  rw [feed, h]
  rfl

/-- Bytes that cannot begin a frame, there being no `sync` among them, are skipped. -/
theorem feed_skipped {bs : Bytes} (h : sync ∉ bs) (start : Nat) :
    idle.feed start bs = ([], idle) := by
  induction bs generalizing start with
  | nil => rfl
  | cons b bs ih =>
    have hpush : idle.push b = (none, idle) := by
      rw [push, if_neg (Ne.symm (List.ne_of_not_mem_cons h))]
    rw [feed_of_push hpush, ih (List.not_mem_of_not_mem_cons h)]

/-- The `rest` of a payload ends its frame, whatever bytes are in it. -/
theorem feed_payload (kind : UInt8) (read : Bytes) {rest : Bytes} {missing : Nat}
    (h : rest.length = missing + 1) (start : Nat) :
    (payload kind missing read).feed start rest =
      ((Frame.report? ⟨kind, read ++ rest⟩).toList.map (start + missing, ·), idle) := by
  induction missing generalizing read rest start with
  | zero =>
    obtain ⟨b, rfl⟩ := List.length_eq_one_iff.1 h
    simp [feed, push]
  | succ missing ih =>
    cases rest with
    | nil => cases h
    | cons b rest =>
      have hpush : (payload kind (missing + 1) read).push b =
          (none, payload kind missing (read ++ [b])) := rfl
      rw [feed_of_push hpush, ih (read ++ [b]) (Nat.succ.inj h), List.append_assoc,
        Nat.add_right_comm]
      rfl

/-- A frame that is not too long comes to its own `report?`, at its last byte. -/
theorem feed_frame {f : Frame} (h : f.payload.length ≤ maxPayload) (start : Nat) :
    idle.feed start f.bytes =
      (f.report?.toList.map (start + 2 + f.payload.length, ·), idle) := by
  obtain ⟨kind, payload⟩ := f
  have hsize : (UInt8.ofNat payload.length).toNat = payload.length :=
    UInt8.toNat_ofNat_of_lt' (Nat.lt_of_le_of_lt h (by decide))
  have hsync : idle.push sync = (none, .kind) := rfl
  have hkind : Decoder.kind.push kind = (none, length kind) := rfl
  rw [Frame.bytes, feed_of_push hsync, feed_of_push hkind]
  -- an empty payload ends its frame with the length
  match payload with
  | [] => simp [feed, push, maxPayload]
  | b :: rest =>
    have hlength : (length kind).push (UInt8.ofNat (b :: rest).length) =
        (none, .payload kind rest.length []) := by
      rw [push, hsize, if_neg (Nat.not_lt.2 h)]
      rfl
    rw [feed_of_push hlength, feed_payload kind [] rfl]
    simp [Nat.add_assoc, Nat.add_comm, Nat.add_left_comm]

end Decoder

/-! ### A stream -/

/-- A `frame` on the line, with the bytes before it that belong to none. -/
structure Passage where
  skipped : Bytes
  frame : Frame

namespace Passage

/-- The passage `p` as it stands on the line. -/
def bytes (p : Passage) : Bytes := p.skipped ++ p.frame.bytes

/-- The number of its frame's last byte, if its own first byte has the number `start`. -/
def last (p : Passage) (start : Nat) : Nat := start + p.skipped.length + 2 + p.frame.payload.length

/-- Nothing before the frame of `p` looks like the beginning of one, and the frame is not too long.
-/
structure Clean (p : Passage) : Prop where
  quiet : sync ∉ p.skipped
  short : p.frame.payload.length ≤ maxPayload

/-- The reports that passages come to, each with the number of the byte that ends its frame: one for
each frame that `Says` something, in their order, and none for any other. -/
inductive Heard : Nat → List Passage → List (Nat × UsbReport) → Prop where
  | nil (start : Nat) : Heard start [] []
  | report {start : Nat} {p : Passage} {ps : List Passage} {u : UsbReport}
      {reports : List (Nat × UsbReport)} (hsaid : p.frame.Says u)
      (hrest : Heard (start + p.bytes.length) ps reports) :
      Heard start (p :: ps) ((p.last start, u) :: reports)
  | silent {start : Nat} {p : Passage} {ps : List Passage} {reports : List (Nat × UsbReport)}
      (hsilent : ∀ u, ¬ p.frame.Says u) (hrest : Heard (start + p.bytes.length) ps reports) :
      Heard start (p :: ps) reports

/-- The reports of passages, one after the other. -/
def reports : Nat → List Passage → List (Nat × UsbReport)
  | _, [] => []
  | start, p :: ps =>
    p.frame.report?.toList.map (p.last start, ·) ++ reports (start + p.bytes.length) ps

/-- A report among the `reports` of passages is that of one of them, at its last byte. -/
theorem mem_reports {start : Nat} {ps : List Passage} {r : Nat × UsbReport}
    (h : r ∈ reports start ps) :
    ∃ before p after, ps = before ++ p :: after ∧ p.frame.Says r.2 ∧
      r.1 = p.last (start + (before.flatMap bytes).length) := by
  induction ps generalizing start with
  | nil => exact absurd h List.not_mem_nil
  | cons p ps ih =>
    rcases List.mem_append.1 h with hfirst | hrest
    · obtain ⟨u, hu, rfl⟩ := List.mem_map.1 hfirst
      exact ⟨[], p, ps, rfl, Frame.says_of_report? (Option.mem_toList.1 hu), rfl⟩
    · obtain ⟨before, q, after, rfl, hsaid, hlast⟩ := ih hrest
      refine ⟨p :: before, q, after, rfl, hsaid, ?_⟩
      rw [hlast, List.flatMap_cons, List.length_append, Nat.add_assoc]

/-- The `reports` of passages are what is to be `Heard` of them. -/
theorem heard_reports (start : Nat) (ps : List Passage) : Heard start ps (reports start ps) := by
  induction ps generalizing start with
  | nil => exact .nil start
  | cons p ps ih =>
    rw [reports]
    cases hreport : p.frame.report? with
    | some u => exact .report (Frame.says_of_report? hreport) (ih _)
    | none =>
      refine .silent (fun u hsaid => ?_) (ih _)
      rw [hsaid.report?_eq] at hreport
      cases hreport

end Passage

namespace Decoder

open Passage (Clean Heard)

/-- An idle decoder reads a clean passage `p` as its frame, and is idle again. -/
theorem feed_passage {p : Passage} (h : p.Clean) (start : Nat) :
    idle.feed start p.bytes = (p.frame.report?.toList.map (p.last start, ·), idle) := by
  rw [Passage.bytes, feed_append, feed_skipped h.quiet, feed_frame h.short]
  rfl

/-- Between clean passages the decoder is `idle`. -/
theorem feed_passages {ps : List Passage} (hclean : ∀ p ∈ ps, p.Clean) (start : Nat) :
    idle.feed start (ps.flatMap Passage.bytes) = (Passage.reports start ps, idle) := by
  induction ps generalizing start with
  | nil => rfl
  | cons p ps ih =>
    have hrest := ih (fun q hq => hclean q (List.mem_cons_of_mem p hq)) (start + p.bytes.length)
    rw [List.flatMap_cons, feed_append, feed_passage (hclean p List.mem_cons_self), hrest]
    rfl

/-- **Reading undoes framing.**  Frames that are not too long, each after any bytes that do not look
like the beginning of one (they are `Clean`), are read as what is to be `Heard` of them: a frame of
a device whose payload has all its fields comes to the one report with these fields, at the frame's
last byte and in the order of the frames; nothing else comes to anything; and the decoder is `idle`,
ready for the next frame. -/
theorem reads_back {ps : List Passage} (hclean : ∀ p ∈ ps, p.Clean) (start : Nat) :
    Heard start ps (idle.feed start (ps.flatMap Passage.bytes)).1 ∧
      (idle.feed start (ps.flatMap Passage.bytes)).2 = idle := by
  rw [feed_passages hclean]
  exact ⟨Passage.heard_reports start ps, rfl⟩

/-- A keyboard whose payload holds the sync byte, a frame without payload, a frame whose kind is
the sync byte, a mouse frame that is too short, and one that is longer than it needs to be. -/
def mixed : List Passage :=
  [⟨[0x00, 0x13, 0xff], ⟨0x01, [0x01, 0x02, 0xa5, 0x04]⟩⟩, ⟨[], ⟨0x04, []⟩⟩,
    ⟨[0x01], ⟨0xa5, [0xa5]⟩⟩, ⟨[], ⟨0x02, [0x01, 0xfe]⟩⟩,
    ⟨[0x5a], ⟨0x02, [0x01, 0xfe, 0x05, 0xa5]⟩⟩]

theorem mixed_clean : ∀ p ∈ mixed, p.Clean := by
  simp only [mixed, List.forall_mem_cons]
  exact ⟨⟨by decide, by decide⟩, ⟨by decide, by decide⟩, ⟨by decide, by decide⟩,
    ⟨by decide, by decide⟩, ⟨by decide, by decide⟩, fun _ h => nomatch h⟩

/-- The frames of `mixed` come to two reports. -/
theorem reads_back_mixed :
    (∀ p ∈ mixed, p.Clean) ∧
      (idle.feed 0 (mixed.flatMap Passage.bytes)).2 = idle ∧
      Heard 0 mixed
        [(9, .keyboard 0x01 (.ofKeys ⟨0x02⟩ [0xa5, 0x04])), (30, .mouse 0x01 (-2) 5)] := by
  have hreports : (idle.feed 0 (mixed.flatMap Passage.bytes)).1 =
      [(9, .keyboard 0x01 (.ofKeys ⟨0x02⟩ [0xa5, 0x04])), (30, .mouse 0x01 (-2) 5)] := by
    decide +kernel
  obtain ⟨hheard, hidle⟩ := reads_back mixed_clean 0
  rw [hreports] at hheard
  exact ⟨mixed_clean, hidle, hheard⟩

end Decoder

end IoController.Bridge
