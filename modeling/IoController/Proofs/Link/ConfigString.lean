import IoController.Link.ConfigString
import IoController.Proofs.Device.Journal

/-!
# Link — ConfigString

The first item of a core's config string, its name.

* `itemWithin?_eq`: whatever the core sends, the limit of the reader plays no part.
* `does_firstItem`: it is asked for in one frame of bounded length.
-/

namespace IoController.Link.ConfigString

open Device (Does Clocks)

variable {limit limit' : Nat} {byte : UInt8} {item : List Char}

/-- Past the first `item` nothing more is read. -/
theorem readItem_past (h : 0 < limit) (byte : UInt8) (item : List Char) :
    readItem 0 limit byte 1 item = pure (some item) := by
  obtain ⟨limit, rfl⟩ := Nat.exists_eq_succ_of_ne_zero (Nat.ne_of_gt h)
  have hpast : (isEnd byte || decide (0 < 1)) = true := Bool.or_true _
  rw [readItem, if_pos hpast]

theorem byteSize_char (byte : UInt8) (item : List Char) :
    0 < (char byte).utf8Size ∧
      Text.byteSize (item ++ [char byte]) = Text.byteSize item + (char byte).utf8Size :=
  ⟨(char byte).utf8Size_pos, by simp⟩

/-- The first item is complete within a `limit` that lets it grow to its full size, so that a
greater one makes no difference. -/
theorem readItem_eq_of_le (hitem : Text.byteSize item ≤ maxItem)
    (h : maxItem + 2 ≤ limit + Text.byteSize item)
    (h' : maxItem + 2 ≤ limit' + Text.byteSize item) :
    readItem 0 limit byte 0 item = readItem 0 limit' byte 0 item := by
  induction limit generalizing limit' byte item with
  | zero => omega
  | succ limit ih =>
    obtain ⟨limit', rfl⟩ : ∃ l, limit' = l + 1 := ⟨limit' - 1, by omega⟩
    rw [readItem, readItem]
    split
    · rfl
    · split
      · refine congrArg (receive >>= ·) (funext fun byte => ?_)
        exact (readItem_past (by omega) byte item).trans (readItem_past (by omega) byte item).symm
      · obtain ⟨hpos, hsize⟩ := byteSize_char byte item
        rw [if_pos rfl, if_pos rfl]
        dsimp only
        split
        · next hroom =>
          refine congrArg (receive >>= ·) (funext fun byte => ?_)
          exact ih hroom (by omega) (by omega)
        · rfl

/-- With any such `limit` the first item is `item? 0`. -/
theorem itemWithin?_eq (h : maxItem + 2 ≤ limit) : itemWithin? limit 0 = item? 0 := by
  have hread : ∀ first : UInt8, readItem 0 limit first 0 [] = readItem 0 readLimit first 0 [] :=
    fun first => readItem_eq_of_le (by decide) h (by decide)
  simp only [item?, itemWithin?, UInt8.toNat_zero, hread]

/-- The `bytes` by which an `item` is read on: no more of them than there is room for, and one. -/
structure ReadsOn (item : List Char) (bytes : List (UInt8 × UInt8)) : Prop where
  length_le : bytes.length + Text.byteSize item ≤ maxItem + 1
  sent : ∀ b ∈ bytes, b.1 = 0x00

namespace ReadsOn

theorem nil (h : Text.byteSize item ≤ maxItem) : ReadsOn item [] where
  length_le := by
    rw [List.length_nil]
    omega
  sent _ hb := absurd hb List.not_mem_nil

theorem single (h : Text.byteSize item ≤ maxItem) (back : UInt8) : ReadsOn item [(0x00, back)] where
  length_le := by
    rw [List.length_singleton]
    omega
  sent _ hb := by rw [List.mem_singleton.1 hb]

theorem cons {bytes : List (UInt8 × UInt8)} (h : ReadsOn (item ++ [char byte]) bytes)
    (back : UInt8) : ReadsOn item ((0x00, back) :: bytes) where
  length_le := by
    obtain ⟨hpos, hsize⟩ := byteSize_char byte item
    have hlength := h.length_le
    rw [List.length_cons]
    omega
  sent := List.forall_mem_cons.2 ⟨rfl, h.sent⟩

end ReadsOn

/-- The first item is read in as many bytes as `ReadsOn` allows. -/
theorem clocks_firstItem (hitem : Text.byteSize item ≤ maxItem)
    (h : maxItem + 2 ≤ limit + Text.byteSize item) :
    Clocks (readItem 0 limit byte 0 item) fun bytes _ => ReadsOn item bytes := by
  induction limit generalizing byte item with
  | zero => omega
  | succ limit ih =>
    rw [readItem]
    split
    · exact .done (.nil hitem)
    · split
      · -- the separator ends the item, but one more byte is read before that is noticed
        refine .bind ((Device.clocks_transfer 0x00).mono fun bytes back hback => ?_)
        have hpast : readItem 0 limit back (min 255 (0 + 1)) item = pure (some item) :=
          readItem_past (by omega) back item
        rw [hback, hpast]
        exact .done (.single hitem back)
      · obtain ⟨hpos, hsize⟩ := byteSize_char byte item
        rw [if_pos rfl]
        dsimp only
        split
        · next hroom =>
          refine .bind ((Device.clocks_transfer 0x00).mono fun bytes back hback => ?_)
          refine (ih hroom (by omega)).mono fun rest _ hrest => ?_
          rw [hback]
          exact hrest.cons back
        · exact .done (.nil hitem)

/-- The first item, `item? 0`, is asked for in one frame of at most 131 bytes, however the core
answers. -/
theorem does_firstItem :
    Does (item? 0) fun ds _ =>
      ∃ back bytes, ds = [.frame .io ((Opcode.configString, back) :: bytes)] ∧
        bytes.length ≤ maxItem + 2 ∧ ∀ b ∈ bytes, b.1 = 0x00 := by
  refine Device.does_query Opcode.configString ?_
  refine .bind ((Device.clocks_transfer 0x00).mono fun bytes back hback => ?_)
  rw [hback]
  split
  · refine .done ⟨(by decide : 1 ≤ maxItem + 2), fun b hb => ?_⟩
    rw [List.append_nil] at hb
    rw [List.mem_singleton.1 hb]
  · rw [map_eq_pure_bind]
    refine .bind ((clocks_firstItem (by decide) (by decide)).mono fun rest _ hrest => .done ?_)
    have hlength : rest.length + 0 ≤ maxItem + 1 := hrest.length_le
    rw [List.append_nil, List.singleton_append]
    refine ⟨?_, List.forall_mem_cons.2 ⟨rfl, hrest.sent⟩⟩
    rw [List.length_cons]
    omega

end IoController.Link.ConfigString
