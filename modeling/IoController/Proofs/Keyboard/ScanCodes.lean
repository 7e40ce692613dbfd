import IoController.Proofs.Keyboard.Codes

/-!
# Keyboard — ScanCodes

The bytes of PS/2 keys that go down and up, one after another, can be taken apart again.

* `Readable`: a key code is told from its scancode and whether it is extended, and its scancode is
  none of the bytes that come before scancodes.  `readable_of_names`: this holds of the PS/2 layout.
* `Reader`: reads a stream of keys byte by byte.
* `Reader.read_bytes`: it reads one key off any stream that begins with it.
* `Reader.strokes_read_back`: it reads back every sequence of keys, but for the release of Pause,
  which sends nothing.
-/

namespace IoController.Keyboard

/-! ### Key codes -/

namespace KeyCode

/-- The key code of a scancode, `extended` or not. -/
def ofScanCode (extended : Bool) (code : UInt8) : KeyCode :=
  ⟨code.toUInt16 ||| if extended then extendedFlag else 0⟩

/-- Pause, the one key with a sequence of its own. -/
def pause : KeyCode := ofScanCode false ps2Pause

/-- The key `k` goes to the core as any other does. -/
def unflagged (k : KeyCode) : Bool :=
  !k.isOsd && !k.opensOsd && !k.togglesCaps && k.emulationSelector?.isNone

end KeyCode

/-- The bytes that come before a scancode: for an extended key, for a key that goes up, and the
first of Pause. -/
def leads : List UInt8 := [0xe0, 0xf0, 0xe1]

/-- A key code `k` that is told from its scancode, if it has no flags, where the scancode leads
nothing. -/
abbrev Readable (k : KeyCode) : Prop :=
  k.unflagged = true → k = .ofScanCode k.isExtended k.code ∧ k.code ∉ leads

/-- Every key of the PS/2 layout is `Readable`. -/
theorem readable_of_names {k : KeyCode} (h : Layout.ps2.Names k) : Readable k := by
  rcases h.listed with ⟨usage, menu, rfl⟩ | ⟨bit, rfl⟩
  · exact Layout.lookup_induction (P := Readable) (by decide) (by decide +kernel) (by decide)
      usage menu
  · exact Layout.modifier_induction (P := Readable) (by decide) (by decide +kernel) bit

/-! ### Strokes -/

/-- A `key` that goes down, or up. -/
structure Stroke where
  key : KeyCode
  make : Bool
  deriving DecidableEq

namespace Stroke

/-- What a PS/2 core is sent for the stroke `s`. -/
def bytes (s : Stroke) : Bytes := s.key.ps2 s.make

/-- Whether the stroke `s` is the release of Pause. -/
def silent (s : Stroke) : Bool := s.key == .pause && !s.make

/-- The key of the stroke `s` is one of the PS/2 layout that goes to the core as any other does. -/
def Plain (s : Stroke) : Prop := Layout.ps2.Names s.key ∧ s.key.unflagged = true

/-- How many bytes the sequence of a key has room for. -/
def room : Nat := 8

/-- No sequence is too long for its `room`. -/
theorem length_bytes_le (s : Stroke) : s.bytes.length ≤ room := by
  rw [bytes, KeyCode.ps2]
  cases s.key.code == KeyCode.ps2Pause && !s.key.isExtended <;> cases s.key.isExtended <;>
    cases s.make <;> exact Nat.le_of_ble_eq_true rfl

end Stroke

/-! ### Reading -/

/-- How far into a key a stream is. -/
inductive Reader where
  /-- At its scancode, with what was read before that. -/
  | ready (extended released : Bool)
  /-- In Pause, with `missing + 1` bytes still to come. -/
  | pausing (missing : Nat)

namespace Reader

/-- Between two keys. -/
abbrev idle : Reader := ready false false

/-- Reads one byte.  If it ends a key, that is returned. -/
def push : Reader → UInt8 → Option Stroke × Reader
  | ready extended released, b =>
    if b = 0xe0 then (none, ready true released)
    else if b = 0xf0 then (none, ready extended true)
    else if b = 0xe1 then (none, pausing 6)
    else (some ⟨.ofScanCode extended b, !released⟩, idle)
  | pausing 0, _ => (some ⟨.pause, true⟩, idle)
  | pausing (n + 1), _ => (none, pausing n)

/-- The keys of a stream, read on from `d`. -/
def read (d : Reader) : Bytes → List Stroke
  | [] => []
  | b :: bs => (d.push b).1.toList ++ (d.push b).2.read bs

variable {extended released : Bool} {b : UInt8} {s : Stroke}

/-- A byte that is none of the `leads` ends a key. -/
theorem read_code (h : b ∉ leads) (bs : Bytes) :
    (ready extended released).read (b :: bs) =
      ⟨.ofScanCode extended b, !released⟩ :: idle.read bs := by
  simp only [leads, List.mem_cons, List.not_mem_nil, or_false, not_or] at h
  rw [read, push, if_neg h.1, if_neg h.2.1, if_neg h.2.2]
  rfl

theorem read_pause (bs : Bytes) :
    idle.read (KeyCode.ps2PauseSequence ++ bs) = ⟨.pause, true⟩ :: idle.read bs := rfl

/-- A stroke `s` of a key other than Pause is read off a stream that begins with it. -/
theorem read_other (h : s.Plain) (hother : s.key ≠ .pause) (bs : Bytes) :
    idle.read (s.bytes ++ bs) = s :: idle.read bs := by
  obtain ⟨key, make⟩ := s
  obtain ⟨hkey, hcode⟩ := readable_of_names h.1 h.2
  have hsequence : ¬(key.code == KeyCode.ps2Pause && !key.isExtended) = true := by
    intro hpause
    rw [Bool.and_eq_true, beq_iff_eq, Bool.not_eq_true'] at hpause
    rw [hpause.1, hpause.2] at hkey
    exact hother hkey
  have hread (extended released : Bool) (hextended : key.isExtended = extended) :
      (ready extended released).read (key.code :: bs) = ⟨key, !released⟩ :: idle.read bs := by
    rw [read_code hcode, ← hextended, ← hkey]
  rw [Stroke.bytes, KeyCode.ps2, if_neg hsequence]
  -- the bytes that lead the scancode tell how it is meant
  cases hextended : key.isExtended <;> cases make
  · exact hread false true hextended
  · exact hread false false hextended
  · exact hread true true hextended
  · exact hread true false hextended

/-- Any stroke `s` is read off a stream that begins with it, but for the release of Pause. -/
theorem read_bytes (h : s.Plain) (bs : Bytes) :
    idle.read (s.bytes ++ bs) = (if s.silent then [] else [s]) ++ idle.read bs := by
  by_cases hpause : s.key = .pause
  · obtain ⟨key, make⟩ := s
    obtain rfl : key = .pause := hpause
    cases make with
    | true => exact read_pause bs
    | false => rfl
  · have hheard : ¬ s.silent = true := fun hsilent => by
      rw [Stroke.silent, Bool.and_eq_true, beq_iff_eq] at hsilent
      exact hpause hsilent.1
    rw [read_other h hpause, if_neg hheard]
    rfl

/-- **Scancodes are read back.**  Let keys of the PS/2 layout go down and up in any order
(`Stroke.Plain`).  What the core is sent for them, one after another, is read (`Reader.read`) as the
same keys again, but for the releases of Pause (`silent`).  No sequence is cut to its `room`. -/
theorem strokes_read_back (strokes : List Stroke) (h : ∀ s ∈ strokes, s.Plain) :
    idle.read (strokes.flatMap (·.bytes)) = strokes.filter (!·.silent) ∧
      ∀ s : Stroke, s.bytes.take Stroke.room = s.bytes := by
  refine ⟨?_, fun s => List.take_of_length_le s.length_bytes_le⟩
  induction strokes with
  | nil => rfl
  | cons s strokes ih =>
    obtain ⟨hplain, hrest⟩ := List.forall_mem_cons.1 h
    rw [List.flatMap_cons, read_bytes hplain, ih hrest, List.filter_cons]
    cases s.silent <;> rfl

/-- Pause goes down and up while the up arrow is down, and then the right control key comes up. -/
def aroundPause : List Stroke :=
  [⟨⟨0x1075⟩, true⟩, ⟨⟨0x77⟩, true⟩, ⟨⟨0x1075⟩, false⟩, ⟨⟨0x77⟩, false⟩, ⟨⟨0x1014⟩, false⟩]

/-- Of the five strokes the reader misses the release of Pause. -/
theorem strokes_read_back_aroundPause :
    (∀ s ∈ aroundPause, s.Plain) ∧
      idle.read [0xe0, 0x75, 0xe1, 0x14, 0x77, 0xe1, 0xf0, 0x14, 0xf0, 0x77, 0xe0, 0xf0, 0x75,
        0xe0, 0xf0, 0x14] = aroundPause.filter (!·.silent) := by
  have hup : Layout.ps2.Names ⟨0x1075⟩ := ⟨by decide, .inl ⟨0x52, false, by decide⟩⟩
  have hpause : Layout.ps2.Names ⟨0x77⟩ := ⟨by decide, .inl ⟨0x48, false, by decide⟩⟩
  have hcontrol : Layout.ps2.Names ⟨0x1014⟩ := ⟨by decide, .inr ⟨4, by decide⟩⟩
  have hplain : ∀ s ∈ aroundPause, s.Plain := by
    simp only [aroundPause, List.forall_mem_cons, Stroke.Plain]
    exact ⟨⟨hup, by decide⟩, ⟨hpause, by decide⟩, ⟨hup, by decide⟩, ⟨hpause, by decide⟩,
      ⟨hcontrol, by decide⟩, fun s hs => nomatch hs⟩
  exact ⟨hplain, (strokes_read_back aroundPause hplain).1⟩

end Reader

end IoController.Keyboard
