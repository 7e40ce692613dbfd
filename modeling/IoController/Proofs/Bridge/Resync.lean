import IoController.Proofs.Bridge.Stream

/-!
# Bridge — Resync

A decoder that starts listening in the middle of things finds the frames by itself.  Whatever it
took for a frame is over after sixteen bytes at the latest, and from then on it waits for a sync
byte, which only a frame begins with.

* `Decoder.Bounded`: no decoder is ever owed more of a payload than a frame may have.
* `Decoder.settles`: before the sixteenth byte of a line of frames the decoder goes on like one
  that is idle.
* `Decoder.resynchronises`: a frame that begins sixteen bytes into a line of frames, or later, is
  read as by a new decoder.
-/

namespace IoController.Bridge

/-! ### Frames one after the other -/

/-- A frame of the protocol whose `payload` does not hold the `sync` byte. -/
structure Frame.Plain (f : Frame) : Prop where
  known : ∃ k : Kind, f.kind = k.byte
  short : f.payload.length ≤ maxPayload
  quiet : sync ∉ f.payload

/-- The bytes of `frames` with nothing between them. -/
def line (frames : List Frame) : Bytes := frames.flatMap Frame.bytes

theorem line_cons (f : Frame) (frames : List Frame) : line (f :: frames) = f.bytes ++ line frames :=
  List.flatMap_cons

theorem line_append (before after : List Frame) :
    line (before ++ after) = line before ++ line after := List.flatMap_append

/-- The frame `f` with nothing before it. -/
def Frame.alone (f : Frame) : Passage := ⟨[], f⟩

/-- A line of `frames` is one of passages that skip nothing. -/
theorem line_eq (frames : List Frame) :
    line frames = (frames.map Frame.alone).flatMap Passage.bytes := by
  rw [List.flatMap_map]
  rfl

/-- Behind its first byte a plain frame has no `sync` byte. -/
theorem Frame.Plain.sync_notMem {f : Frame} (h : f.Plain) :
    sync ∉ f.kind :: UInt8.ofNat f.payload.length :: f.payload := by
  obtain ⟨k, hk⟩ := h.known
  have hkind : sync ≠ f.kind := by
    rw [hk]
    cases k <;> decide
  have hlength : sync ≠ UInt8.ofNat f.payload.length := by
    intro heq
    have hsize := congrArg UInt8.toNat heq
    rw [UInt8.toNat_ofNat_of_lt' (Nat.lt_of_le_of_lt h.short (by decide))] at hsize
    have hshort := h.short
    rw [← hsize] at hshort
    exact absurd hshort (by decide)
  exact List.not_mem_cons_of_ne_of_not_mem hkind
    (List.not_mem_cons_of_ne_of_not_mem hlength h.quiet)

/-- A line of plain frames may be entered anywhere: up to the next frame there is no `sync` byte. -/
theorem drop_line {frames : List Frame} (h : ∀ f ∈ frames, f.Plain) {n : Nat}
    (hn : n ≤ (line frames).length) :
    ∃ lost kept rest, frames = lost ++ kept ∧ (line frames).drop n = rest ++ line kept ∧
      sync ∉ rest := by
  induction frames generalizing n with
  | nil => exact ⟨[], [], [], rfl, by simp [line], List.not_mem_nil⟩
  | cons f frames ih =>
    rw [line_cons] at hn ⊢
    by_cases hwhole : f.bytes.length ≤ n
    · obtain ⟨lost, kept, rest, hframes, hdrop, hrest⟩ :=
        ih (fun g hg => h g (List.mem_cons_of_mem f hg)) (n := n - f.bytes.length) (by
          rw [List.length_append] at hn
          omega)
      refine ⟨f :: lost, kept, rest, by rw [hframes, List.cons_append], ?_, hrest⟩
      rw [List.drop_append, List.drop_eq_nil_of_le hwhole, List.nil_append, hdrop]
    · rw [List.drop_append_of_le_length (Nat.le_of_not_le hwhole)]
      match n with
      | 0 => exact ⟨[], f :: frames, [], rfl, by rw [line_cons]; rfl, List.not_mem_nil⟩
      | n + 1 =>
        refine ⟨[f], frames, f.bytes.drop (n + 1), rfl, rfl, fun hmem => ?_⟩
        exact (h f List.mem_cons_self).sync_notMem (List.mem_of_mem_drop hmem)

theorem Frame.Plain.clean {f : Frame} (h : f.Plain) : f.alone.Clean := ⟨List.not_mem_nil, h.short⟩

namespace Decoder

/-- An idle decoder reads a line of plain `frames` as what they say. -/
theorem feed_line {frames : List Frame} (h : ∀ f ∈ frames, f.Plain) (start : Nat) :
    idle.feed start (line frames) =
      (Passage.reports start (frames.map Frame.alone), idle) := by
  rw [line_eq]
  exact feed_passages (List.forall_mem_map.2 fun f hf => (h f hf).clean) start

/-- What is reported of a line of frames is what one of them `Says`, at its last byte. -/
theorem mem_reports_line {frames : List Frame} {start : Nat} {r : Nat × UsbReport}
    (h : r ∈ Passage.reports start (frames.map Frame.alone)) :
    ∃ before f after, frames = before ++ f :: after ∧ f.Says r.2 ∧
      r.1 = start + (line before).length + 2 + f.payload.length := by
  obtain ⟨_, p, _, hsplit, hsaid, hlast⟩ := Passage.mem_reports h
  obtain ⟨before, rest, rfl, rfl, hrest⟩ := List.map_eq_append_iff.1 hsplit
  obtain ⟨f, after, rfl, rfl, -⟩ := List.map_eq_cons_iff.1 hrest
  refine ⟨before, f, after, rfl, hsaid, ?_⟩
  rw [hlast, ← line_eq]
  rfl

/-! ### What a decoder may be owed -/

/-- A payload is never owed more bytes than a frame may have. -/
def Bounded : Decoder → Prop
  | payload _ missing _ => missing < maxPayload
  | _ => True

theorem Bounded.push {d : Decoder} (h : d.Bounded) (b : UInt8) : (d.push b).2.Bounded := by
  cases d with
  | idle =>
    rw [Decoder.push]
    split <;> trivial
  | kind => trivial
  | length k =>
    rw [Decoder.push]
    split
    · split <;> trivial
    · next hshort =>
      split
      · trivial
      · next n hn =>
        change n < maxPayload
        omega
  | payload k missing read =>
    cases missing with
    | zero => trivial
    | succ missing => exact Nat.lt_of_succ_lt h

theorem Bounded.feed {d : Decoder} (h : d.Bounded) (start : Nat) (bs : Bytes) :
    (d.feed start bs).2.Bounded := by
  induction bs generalizing d start with
  | nil => exact h
  | cons b bs ih => exact ih (h.push b) (start + 1)

/-- A report `r` has the number of one of the bytes that were read from `start` on. -/
theorem feed_numbers {d : Decoder} {start : Nat} {bs : Bytes} {r : Nat × UsbReport}
    (h : r ∈ (d.feed start bs).1) : start ≤ r.1 ∧ r.1 < start + bs.length := by
  induction bs generalizing d start with
  | nil => exact absurd h List.not_mem_nil
  | cons b bs ih =>
    rw [List.length_cons]
    rcases List.mem_append.1 h with hfirst | hrest
    · obtain ⟨u, -, rfl⟩ := List.mem_map.1 hfirst
      exact ⟨Nat.le_refl _, by omega⟩
    · have := ih hrest
      omega

/-! ### Settling -/

/-- A decoder that has read the bytes it was `missing` is idle. -/
theorem idle_after_payload (kind : UInt8) (read : Bytes) {bs : Bytes} {missing : Nat}
    (h : missing < bs.length) (start : Nat) :
    ((payload kind missing read).feed start (bs.take (missing + 1))).2 = idle := by
  rw [feed_payload kind read (List.length_take_of_le h)]

/-- Taken for the length of a payload, the kind `k` of a frame is either far too much or four bytes
at most. -/
theorem push_kind (kind : UInt8) (k : Kind) :
    (length kind).push k.byte = (none, idle) ∨
      ∃ missing < 4, (length kind).push k.byte = (none, payload kind missing []) := by
  cases k with
  | keyboard => exact .inr ⟨0, by decide, rfl⟩
  | mouse => exact .inr ⟨1, by decide, rfl⟩
  | joystick => exact .inr ⟨2, by decide, rfl⟩
  | joystickCount => exact .inr ⟨3, by decide, rfl⟩
  | leds => exact .inl rfl

/-- Once it is `idle`, after `n` bytes, a decoder reads on like any idle one. -/
theorem feed_of_idle {d : Decoder} {start n : Nat} {bs : Bytes} (hn : n ≤ bs.length)
    (h : (d.feed start (bs.take n)).2 = idle) :
    d.feed start bs =
      ((d.feed start (bs.take n)).1 ++ (idle.feed (start + n) (bs.drop n)).1,
        (idle.feed (start + n) (bs.drop n)).2) := by
  have hsplit := feed_append d start (bs.take n) (bs.drop n)
  rwa [List.take_append_drop, h, List.length_take_of_le hn] at hsplit

/-- Within `maxPayload` bytes of a line of frames a bounded decoder is idle, unless it has just
begun a frame where there is none: then it takes the first frame's sync byte for a length, and for a
sync byte after that. -/
theorem idle_in_time {d : Decoder} (hd : d.Bounded) {frames : List Frame}
    (hplain : ∀ f ∈ frames, f.Plain) (hlong : maxPayload ≤ (line frames).length) (start : Nat) :
    (∃ n ≤ maxPayload, (d.feed start ((line frames).take n)).2 = idle) ∨
      d.feed start (line frames) = idle.feed start (line frames) := by
  match frames, hplain, hlong with
  | [], _, hlong => exact absurd hlong (by decide)
  | f :: frames, hplain, hlong =>
    cases d with
    | idle => exact .inr rfl
    | length k => exact .inr rfl
    | payload k missing read =>
      exact .inl ⟨missing + 1, hd, idle_after_payload k read (Nat.lt_of_lt_of_le hd hlong) start⟩
    | kind =>
      obtain ⟨k, hk⟩ := (hplain f List.mem_cons_self).known
      have hline : line (f :: frames) =
          sync :: k.byte :: UInt8.ofNat f.payload.length :: (f.payload ++ line frames) := by
        rw [line_cons, Frame.bytes, hk]
        rfl
      -- the frame's sync byte is read as a kind, and its own kind as a length of at most four
      have hsync : kind.push sync = (none, length sync) := rfl
      rw [hline] at hlong ⊢
      rcases push_kind sync k with hpush | ⟨missing, hmissing, hpush⟩
      · refine .inl ⟨2, by decide, ?_⟩
        rw [List.take_succ_cons, List.take_succ_cons, List.take_zero, feed_of_push hsync,
          feed_of_push hpush]
        rfl
      · have hsmall : missing + 1 + 2 ≤ maxPayload :=
          Nat.le_trans (Nat.add_le_add_right hmissing 2) (by decide)
        refine .inl ⟨missing + 1 + 2, hsmall, ?_⟩
        rw [List.take_succ_cons, List.take_succ_cons, feed_of_push hsync, feed_of_push hpush]
        refine idle_after_payload sync [] ?_ _
        have hfour : 4 + 2 ≤ maxPayload := by decide
        simp only [List.length_cons] at hlong ⊢
        omega

/-- An idle decoder skips what is left of a frame and reads the frames after it, which are `kept`.
-/
theorem feed_drop_line {frames : List Frame} (hplain : ∀ f ∈ frames, f.Plain) {n : Nat}
    (hn : n ≤ (line frames).length) (start : Nat) :
    ∃ lost kept, frames = lost ++ kept ∧
      idle.feed (start + n) ((line frames).drop n) =
        (Passage.reports (start + (line lost).length) (kept.map Frame.alone), idle) := by
  obtain ⟨lost, kept, rest, rfl, hdrop, hrest⟩ := drop_line hplain hn
  refine ⟨lost, kept, rfl, ?_⟩
  have hlost : start + n + rest.length = start + (line lost).length := by
    have hlength := congrArg List.length hdrop
    rw [line_append, List.length_drop, List.length_append, List.length_append] at hlength
    rw [line_append, List.length_append] at hn
    omega
  rw [hdrop, feed_append, feed_skipped hrest, hlost,
    feed_line (fun f hf => hplain f (List.mem_append_right lost hf))]
  rfl

/-- From byte number `maxPayload` of a line of frames on, if not before, a decoder reports what
whole frames of the line say and nothing else; what it reported before is `early`. -/
theorem settles {d : Decoder} (hd : d.Bounded) {frames : List Frame}
    (hplain : ∀ f ∈ frames, f.Plain) (hlong : maxPayload ≤ (line frames).length) (start : Nat) :
    ∃ lost kept early, frames = lost ++ kept ∧ (∀ r ∈ early, r.1 < start + maxPayload) ∧
      d.feed start (line frames) =
        (early ++ Passage.reports (start + (line lost).length) (kept.map Frame.alone), idle) := by
  rcases idle_in_time hd hplain hlong start with ⟨n, hn, hidle⟩ | hsame
  · have hin := Nat.le_trans hn hlong
    obtain ⟨lost, kept, hframes, hread⟩ := feed_drop_line hplain hin start
    refine ⟨lost, kept, (d.feed start ((line frames).take n)).1, hframes, fun r hr => ?_, ?_⟩
    · have hlt := (feed_numbers hr).2
      rw [List.length_take_of_le hin] at hlt
      omega
    · rw [feed_of_idle hin hidle, hread]
  · refine ⟨[], frames, [], rfl, fun r hr => absurd hr List.not_mem_nil, ?_⟩
    rw [hsame, feed_line hplain]
    rfl

/-- **A decoder finds the frames by itself.**  Whatever it has read in the `past`, let `Plain`
frames follow, at least sixteen bytes of them in `lead`.  As soon as these have gone by, each frame
of `tail` is read as by a new decoder: what it says is reported at its last byte, and nothing else
is.  Even of the frames of `lead`, a report that comes sixteen bytes after the beginning or later is
what one of them `Says`, at its last byte. -/
theorem resynchronises (past : Bytes) {lead tail : List Frame} (hlead : ∀ f ∈ lead, f.Plain)
    (htail : ∀ f ∈ tail, f.Plain) (hlate : 16 ≤ (line lead).length) (start : Nat) :
    let d := (idle.feed 0 past).2
    let early := (d.feed start (line lead)).1
    let fresh := idle.feed (start + (line lead).length) (line tail)
    d.feed start (line lead ++ line tail) = (early ++ fresh.1, fresh.2) ∧
    Passage.Heard (start + (line lead).length) (tail.map Frame.alone) fresh.1 ∧ fresh.2 = idle ∧
    ∀ r ∈ early, r.1 < start + 16 ∨
      ∃ before f after, lead = before ++ f :: after ∧ f.Says r.2 ∧
        r.1 = start + (line before).length + 2 + f.payload.length := by
  intro d early fresh
  have hd : d.Bounded := Bounded.feed (d := idle) trivial 0 past
  obtain ⟨lost, kept, spurious, hframes, hspurious, hread⟩ := settles hd hlead hlate start
  have hidle : (d.feed start (line lead)).2 = idle := congrArg Prod.snd hread
  have hfresh : fresh = (Passage.reports _ (tail.map Frame.alone), idle) := feed_line htail _
  refine ⟨?_, ?_, ?_, fun r hr => ?_⟩
  · rw [feed_append, hidle]
  · rw [hfresh]
    exact Passage.heard_reports _ _
  · rw [hfresh]
  · -- after the sixteenth byte the decoder has been idle once, and reads whole frames from then on
    have hearly : early = spurious ++ _ := congrArg Prod.fst hread
    rw [hearly] at hr
    rcases List.mem_append.1 hr with hr | hr
    · exact .inl (hspurious r hr)
    · obtain ⟨before, f, after, rfl, hsaid, hlast⟩ := mem_reports_line hr
      refine .inr ⟨lost ++ before, f, after, ?_, hsaid, ?_⟩
      · rw [hframes, List.append_assoc]
      · rw [hlast, line_append, List.length_append, Nat.add_assoc start]

/-- A frame that claims sixteen bytes and sends none of them. -/
def brokenOff : Bytes := [0xa5, 0x04, 0x10]

/-- A keyboard with the key A down. -/
def pressedA : Frame := ⟨0x01, [0x00, 0x00, 0x04, 0x00, 0x00, 0x00, 0x00, 0x00]⟩

/-- A mouse that has moved. -/
def movedRight : Frame := ⟨0x02, [0x00, 0x05, 0x00]⟩

theorem pressedA_plain : pressedA.Plain := ⟨⟨.keyboard, rfl⟩, by decide, by decide⟩

theorem movedRight_plain : movedRight.Plain := ⟨⟨.mouse, rfl⟩, by decide, by decide⟩

/-- After `brokenOff` the first frame and a part of the second are swallowed; the third is read. -/
theorem resynchronises_brokenOff :
    (∀ f ∈ [pressedA, movedRight], f.Plain) ∧ (∀ f ∈ [movedRight], f.Plain) ∧
      16 ≤ (line [pressedA, movedRight]).length ∧
      (idle.feed 0 brokenOff).2 = payload 0x04 15 [] ∧
      ((payload 0x04 15 []).feed 3 (line [pressedA, movedRight] ++ line [movedRight])).1 =
        [(18, .joystickCount 0xa5), (25, .mouse 0x00 5 0)] := by
  have hlead : ∀ f ∈ [pressedA, movedRight], f.Plain :=
    List.forall_mem_cons.2 ⟨pressedA_plain, List.forall_mem_singleton.2 movedRight_plain⟩
  have htail : ∀ f ∈ [movedRight], f.Plain := List.forall_mem_singleton.2 movedRight_plain
  have hlate : 16 ≤ (line [pressedA, movedRight]).length := by decide
  have hstate : (idle.feed 0 brokenOff).2 = payload 0x04 15 [] := by decide
  have hread := (resynchronises brokenOff hlead htail hlate 3).1
  rw [hstate] at hread
  refine ⟨hlead, htail, hlate, hstate, ?_⟩
  rw [hread]
  decide +kernel

end Decoder

end IoController.Bridge
