import IoController.Proofs.Bridge.Resync
import Mathlib.Algebra.Group.Nat.Even

/-!
# Bridge — Strays

Sync bytes that begin no frame.  A decoder takes the first one for the beginning of a frame, the
second one for its kind, and the third one, which is far too much for a length, for a beginning
again.  So two of them do no harm, and one does.

* `Decoder.feed_syncs`: where a row of sync bytes leaves a decoder.
* `Decoder.feed_unknown`: a frame of a kind that there is not swallows its bytes.
* `Decoder.read_after_strays_iff`: a frame is read after an even number of stray sync bytes.  After
  an odd number it is taken apart: its kind is read as the length of a frame, and what that leaves
  is read on its own.
-/

namespace IoController.Bridge

/-- After so many `strays`, sync bytes that belong to no frame, what the frame `Says` is reported at
its last byte. -/
def Frame.ReadAfter (f : Frame) (strays : Nat) : Prop :=
  ∀ u, f.Says u → ∀ start, (start + strays + 2 + f.payload.length, u) ∈
    (Decoder.idle.feed start (List.replicate strays sync ++ f.bytes)).1

namespace Decoder

variable {f : Frame} {u : UsbReport}

/-- The `sync` byte is too much for a length, and begins a frame. -/
theorem push_sync_of_length (kind : UInt8) : (length kind).push sync = (none, .kind) := rfl

/-- After a row of sync bytes a decoder waits for a `kind`, or it has taken the last one for that.
-/
theorem feed_syncs (n start : Nat) (bs : Bytes) :
    idle.feed start (List.replicate (n + 1) sync ++ bs) =
      (if Even n then kind else length sync).feed (start + n + 1) bs := by
  induction n generalizing bs with
  | zero => exact feed_of_push rfl start bs
  | succ n ih =>
    rw [List.replicate_succ', List.append_assoc, List.singleton_append, ih]
    by_cases heven : Even n
    · rw [if_pos heven, if_neg (by rwa [Nat.even_add_one, not_not])]
      exact feed_of_push rfl _ bs
    · rw [if_neg heven, if_pos (Nat.even_add_one.2 heven)]
      exact feed_of_push (push_sync_of_length sync) _ bs

/-- A frame of an unknown kind `k` swallows as many bytes as it claims to have, and reports nothing.
-/
theorem feed_unknown {k : UInt8} (hunknown : Kind.ofByte? k = none) (missing start : Nat)
    (read bs : Bytes) :
    ((payload k missing read).feed start bs).1 =
      (idle.feed (start + missing + 1) (bs.drop (missing + 1))).1 := by
  induction bs generalizing missing start read with
  | nil => rfl
  | cons b bs ih =>
    cases missing with
    | zero =>
      have hsilent : Frame.report? ⟨k, read ++ [b]⟩ = none := by rw [Frame.report?, hunknown]
      have hpush : (payload k 0 read).push b = (none, idle) := by rw [push, hsilent]
      rw [feed_of_push hpush]
      rfl
    | succ missing =>
      have hpush : (payload k (missing + 1) read).push b =
          (none, payload k missing (read ++ [b])) := rfl
      rw [feed_of_push hpush, ih, Nat.add_right_comm start 1, Nat.add_assoc start missing 1]
      rfl

/-- The kind of a frame `f` that says something, taken for a length, is one of a short payload. -/
theorem push_kind_of_says (h : f.Says u) (k : UInt8) :
    ∃ missing, f.kind.toNat = missing + 1 ∧
      (length k).push f.kind = (none, payload k missing []) := by
  cases h with
  | keyboard hkind _ _ _ => exact ⟨0, by rw [hkind]; rfl, by rw [hkind]; rfl⟩
  | mouse hkind _ => exact ⟨1, by rw [hkind]; rfl, by rw [hkind]; rfl⟩
  | joystick hkind _ _ => exact ⟨2, by rw [hkind]; rfl, by rw [hkind]; rfl⟩
  | joystickCount hkind _ => exact ⟨3, by rw [hkind]; rfl, by rw [hkind]; rfl⟩

/-- What is reported of a frame after `n` stray sync bytes. -/
theorem feed_after_strays (hshort : f.payload.length ≤ maxPayload) (hsaid : f.Says u)
    (n start : Nat) :
    (idle.feed start (List.replicate n sync ++ f.bytes)).1 =
      if Even n then [(start + n + 2 + f.payload.length, u)]
      else (idle.feed (start + n + 2 + f.kind.toNat) (f.payload.drop (f.kind.toNat - 1))).1 := by
  have hbytes : List.replicate n sync ++ f.bytes =
      List.replicate (n + 1) sync ++ f.kind :: UInt8.ofNat f.payload.length :: f.payload := by
    rw [List.replicate_succ', List.append_assoc]
    rfl
  rw [hbytes, feed_syncs]
  by_cases heven : Even n
  · -- the frame's own sync byte is taken for what it is
    have hsync : idle.push sync = (none, kind) := rfl
    have hframe := feed_frame hshort (start + n)
    rw [Frame.bytes, feed_of_push hsync, hsaid.report?_eq] at hframe
    rw [if_pos heven, if_pos heven, hframe]
    rfl
  · rw [if_neg heven, if_neg heven]
    obtain ⟨missing, hkind, hpush⟩ := push_kind_of_says hsaid sync
    rw [feed_of_push hpush, feed_unknown rfl, hkind, Nat.add_sub_cancel, List.drop_succ_cons]
    rfl

theorem ReadAfter.of_even {n : Nat} (heven : Even n) (hshort : f.payload.length ≤ maxPayload) :
    f.ReadAfter n := by
  intro u hsaid start
  rw [feed_after_strays hshort hsaid, if_pos heven]
  exact List.mem_singleton_self _

/-- A frame without a `sync` byte in its payload is lost after an odd number of them. -/
theorem feed_after_odd_strays {n : Nat} (hodd : ¬ Even n) (hshort : f.payload.length ≤ maxPayload)
    (hquiet : sync ∉ f.payload) (hsaid : f.Says u) (start : Nat) :
    (idle.feed start (List.replicate n sync ++ f.bytes)).1 = [] := by
  rw [feed_after_strays hshort hsaid, if_neg hodd,
    feed_skipped fun hmem => hquiet (List.mem_of_mem_drop hmem)]

/-- What `pressedA` says. -/
theorem pressedA_says : pressedA.Says (.keyboard 0x00 (.ofKeys ∅ [0x04])) :=
  Frame.says_of_report? (by decide)

/-- **Stray sync bytes.**  Every frame is read after `n` stray sync bytes, as `ReadAfter` has it,
just if `n` is even.  Then the frame comes to its own report, at its last byte.  If `n` is odd, the
frame's `kind` is taken for a length: that many bytes after it are lost, and what is left of the
`payload` is read as if nothing had come before. -/
theorem read_after_strays_iff (n : Nat) :
    ((∀ f : Frame, f.payload.length ≤ maxPayload → f.ReadAfter n) ↔ Even n) ∧
    ∀ (f : Frame) (u : UsbReport) (start : Nat), f.payload.length ≤ maxPayload → f.Says u →
      (idle.feed start (List.replicate n sync ++ f.bytes)).1 =
        if Even n then [(start + n + 2 + f.payload.length, u)]
        else (idle.feed (start + n + 2 + f.kind.toNat) (f.payload.drop (f.kind.toNat - 1))).1 := by
  refine ⟨⟨fun hread => ?_, fun heven f hshort => ReadAfter.of_even heven hshort⟩,
    fun f u start hshort hsaid => feed_after_strays hshort hsaid n start⟩
  by_contra hodd
  have hreported := hread pressedA pressedA_plain.short _ pressedA_says 0
  rw [feed_after_odd_strays hodd pressedA_plain.short pressedA_plain.quiet
    pressedA_says] at hreported
  cases hreported

/-- One stray sync byte, and the key of `pressedA` is not pressed. -/
theorem lost_after_stray : ¬ pressedA.ReadAfter 1 := by
  intro hread
  have hreported := hread _ pressedA_says 0
  rw [feed_after_odd_strays (by decide) pressedA_plain.short pressedA_plain.quiet
    pressedA_says] at hreported
  cases hreported

/-- A keyboard frame with more bytes than it needs, which look like a frame of their own. -/
def nested : Frame :=
  ⟨0x01, [0x00, 0x00, 0x04, 0x00, 0x00, 0x00, 0x00, 0x00, 0xa5, 0x02, 0x03, 0x00, 0x05, 0x00]⟩

/-- After two stray sync bytes the key of `nested` is reported, and after one a movement that nobody
made. -/
theorem read_after_strays_iff_nested :
    nested.payload.length ≤ maxPayload ∧ nested.Says (.keyboard 0x00 (.ofKeys ∅ [0x04])) ∧
      (idle.feed 0 (List.replicate 2 sync ++ nested.bytes)).1 =
        [(18, .keyboard 0x00 (.ofKeys ∅ [0x04]))] ∧
      (idle.feed 0 (List.replicate 1 sync ++ nested.bytes)).1 = [(17, .mouse 0x00 5 0)] := by
  have hshort : nested.payload.length ≤ maxPayload := by decide
  have hsaid : nested.Says (.keyboard 0x00 (.ofKeys ∅ [0x04])) := Frame.says_of_report? (by decide)
  refine ⟨hshort, hsaid, (read_after_strays_iff 2).2 nested _ 0 hshort hsaid, ?_⟩
  rw [(read_after_strays_iff 1).2 nested _ 0 hshort hsaid]
  decide +kernel

end Decoder

end IoController.Bridge
