import IoController.Proofs.Link.ConfigString
import IoController.Proofs.Program.Ensures

/-!
# Link — Items

The items of a config string, as the pieces of a text between separators.

* `Feeds`: a core that answers from a stream of bytes.
* `Fits`: the longest beginning of a text that an item has room for.  `Extracts`: what a piece of
  the text comes to as an item.
* `Settles`: what was sent decides an item, whatever comes after it.
* `item_extracted`: an item that is asked for is the piece of that number, as soon as it is settled.
-/

namespace IoController.Link.ConfigString

variable {stream : Nat → UInt8} {bytes : List UInt8} {next b : UInt8} {item cs : List Char}
  {c : Char} {j n k : Nat}

/-! ### A core that answers -/

/-- The core sends a `stream` of bytes, one each time that it is asked for one.  The state is how
many it has sent. -/
inductive Feeds (stream : Nat → UInt8) : Nat → Exchange Device → Nat → Prop where
  | byte (n : Nat) : Feeds stream n ⟨.link (.transfer 0x00), stream n⟩ (n + 1)
  | other {x : Exchange Device} (n : Nat) (h : x.request ≠ .link (.transfer 0x00)) :
      Feeds stream n x n

theorem Feeds.same {x : Exchange Device} {n' : Nat} (h : Feeds stream n x n')
    (hx : x.request ≠ .link (.transfer 0x00)) : n' = n := by
  cases h with
  | byte => exact absurd rfl hx
  | other => rfl

theorem Feeds.exists_reply (stream : Nat → UInt8) (n : Nat) (r : Device.Request) :
    ∃ x n', Feeds stream n ⟨r, x⟩ n' := by
  by_cases hr : r = .link (.transfer 0x00)
  · subst hr
    exact ⟨_, _, .byte n⟩
  · exact ⟨Device.replying id none (.error .io) r, n, .other n hr⟩

/-- What is received is the next byte of the `stream`. -/
theorem ensures_receive :
    receive.Ensures (Feeds stream) n fun b n' => b = stream n ∧ n' = n + 1 := by
  refine .request fun b n' hb => ?_
  cases hb with
  | byte => exact ⟨rfl, rfl⟩
  | other _ h => exact absurd rfl h

theorem ensures_query {α : Type} {opcode : UInt8} (hopcode : opcode ≠ 0x00) {reply : Action α}
    {Q : α → Nat → Prop} (h : reply.Ensures (Feeds stream) n Q) :
    (query opcode reply).Ensures (Feeds stream) n Q := by
  refine .bind (.request fun _ n₁ hselect => ?_)
  obtain rfl : n₁ = n := hselect.same fun h => nomatch h
  refine .bind (.bind (.request fun _ n₂ hsent => ?_))
  obtain rfl : n₂ = n₁ := hsent.same fun h => hopcode (by cases h; rfl)
  refine h.mono fun a n₃ hQ => .bind (.request fun _ n₄ hdeselect => ?_)
  obtain rfl : n₄ = n₃ := hdeselect.same fun h => nomatch h
  exact .done hQ

/-- What the core sends from the byte `start` on, `n` bytes of it. -/
def sent (stream : Nat → UInt8) (start n : Nat) : List UInt8 := (List.range' start n).map stream

theorem sent_succ (stream : Nat → UInt8) (start n : Nat) :
    sent stream start (n + 1) = stream start :: sent stream (start + 1) n := by
  rw [sent, List.range'_succ, List.map_cons, sent]

/-! ### What an item has room for -/

/-- The longest beginning `cs` of a `text` that an item has room for. -/
structure Fits (text cs : List Char) : Prop where
  begins : cs <+: text
  size_le : Text.byteSize cs ≤ maxItem
  longest : ∀ {ds : List Char}, ds <+: text → Text.byteSize ds ≤ maxItem → ds <+: cs

theorem fits_self (h : Text.byteSize cs ≤ maxItem) : Fits cs cs where
  begins := List.prefix_rfl
  size_le := h
  longest hds _ := hds

/-- A `text` that there is room for is not cut. -/
theorem Fits.eq_of_room {text : List Char} (h : Fits text cs)
    (hroom : Text.byteSize text ≤ maxItem) : cs = text :=
  h.begins.eq_of_length_le (h.longest List.prefix_rfl hroom).length_le

/-- An `item` without room for the next character has all it has room for. -/
theorem fits_full (h : Text.byteSize item ≤ maxItem)
    (hfull : maxItem < Text.byteSize (item ++ [c])) (cs : List Char) :
    Fits (item ++ c :: cs) item where
  begins := List.prefix_append _ _
  size_le := h
  longest {ds} hds hsize := by
    by_cases hlength : ds.length ≤ item.length
    · exact List.prefix_of_prefix_length_le hds (List.prefix_append _ _) hlength
    · have hnext : item ++ [c] <+: ds := by
        refine List.prefix_of_prefix_length_le ⟨cs, ?_⟩ hds ?_
        · rw [List.append_assoc, List.singleton_append]
        · rw [List.length_append, List.length_singleton]
          omega
      exact absurd (Text.byteSize_le_of_prefix hnext) (by omega)

/-! ### Pieces -/

theorem splitOn_separator (bytes : List UInt8) :
    (separator :: bytes).splitOn separator = [] :: bytes.splitOn separator := by
  rw [List.splitOn_eq_splitOnP, List.splitOnP_cons_eq_if_modifyHead, if_pos BEq.rfl,
    List.splitOn_eq_splitOnP]

theorem splitOn_of_ne (hb : b ≠ separator) (bytes : List UInt8) :
    (b :: bytes).splitOn separator = (bytes.splitOn separator).modifyHead (b :: ·) := by
  rw [List.splitOn_eq_splitOnP, List.splitOnP_cons_eq_if_modifyHead, if_neg (by simpa using hb),
    List.splitOn_eq_splitOnP]

/-- A text has a first piece. -/
theorem exists_piece (bytes : List UInt8) : ∃ p ps, bytes.splitOn separator = p :: ps :=
  List.exists_cons_of_ne_nil (List.splitOn_ne_nil separator bytes)

/-- What is read of an `item` that was begun, from a piece of what is still to come. -/
inductive Gathers (item : List Char) : Option (List UInt8) → List Char → Prop where
  | missing : Gathers item none item
  | piece {p : List UInt8} {cs : List Char} (fits : Fits (item ++ p.map char) cs) :
      Gathers item (some p) cs

/-- What a piece of the text comes to as an item. -/
inductive Extracts : Option (List UInt8) → Option String → Prop where
  | missing : Extracts none none
  | empty : Extracts (some []) none
  | item {p : List UInt8} {cs : List Char} (hp : p ≠ []) (fits : Fits (p.map char) cs) :
      Extracts (some p) (some (String.ofList cs))

/-- From the beginning, what is gathered of a `piece` is the item. -/
theorem Gathers.extracts {piece : Option (List UInt8)} (h : Gathers [] piece cs) :
    Extracts piece (nonempty? (some cs)) := by
  cases h with
  | missing => exact .missing
  | @piece p _ fits =>
    rw [List.nil_append] at fits
    cases p with
    | nil =>
      rw [List.prefix_nil.1 fits.begins]
      exact .empty
    | cons b p =>
      have hfirst : [char b] <+: cs := by
        refine fits.longest ⟨p.map char, rfl⟩ ?_
        have hsize := (char b).utf8Size_le_four
        simp only [Text.byteSize_cons, Text.byteSize_nil, maxItem]
        omega
      cases cs with
      | nil => exact absurd (List.prefix_nil.1 hfirst) (List.cons_ne_nil _ _)
      | cons c cs => exact .item (List.cons_ne_nil _ _) fits

/-! ### What settles an item -/

/-- The `bytes` and the one after them settle an item of that `number`, of which `item` was read
before them.  The text ends there, or the item ends earlier, or it is more than there is room for.
-/
structure Settles (bytes : List UInt8) (next : UInt8) (number : Nat) (item : List Char) : Prop where
  text : ∀ b ∈ bytes, isEnd b = false
  settled : isEnd next = true ∨ ∃ p, (bytes.splitOn separator)[number]? = some p ∧
    (number + 1 < (bytes.splitOn separator).length ∨
      maxItem < Text.byteSize (item ++ p.map char))

namespace Settles

/-- Without a byte only an end (`isEnd`) settles anything. -/
theorem isEnd_of_nil (h : Settles [] next j item) (hitem : Text.byteSize item ≤ maxItem) :
    isEnd next = true := by
  refine h.settled.resolve_right ?_
  rintro ⟨p, hp, hend⟩
  rw [List.splitOn_nil] at hp hend
  obtain rfl : p = [] := List.mem_singleton.1 (List.mem_of_getElem? hp)
  rw [List.length_singleton, List.map_nil, List.append_nil] at hend
  omega

theorem isEnd_head (h : Settles (b :: bytes) next j item) : isEnd b = false :=
  h.text b List.mem_cons_self

/-- After a `separator` comes the next item. -/
theorem after_separator (h : Settles (separator :: bytes) next (j + 1) item) :
    Settles bytes next j item where
  text b hb := h.text b (List.mem_cons_of_mem _ hb)
  settled := by
    refine h.settled.imp_right fun ⟨p, hp, hend⟩ => ⟨p, ?_, ?_⟩
    · rwa [splitOn_separator, List.getElem?_cons_succ] at hp
    · rwa [splitOn_separator, List.length_cons, Nat.add_lt_add_iff_right] at hend

/-- A character of the `item` itself has been read then. -/
theorem after_char (h : Settles (b :: bytes) next 0 item) (hb : b ≠ separator) :
    Settles bytes next 0 (item ++ [char b]) where
  text b hb := h.text b (List.mem_cons_of_mem _ hb)
  settled := by
    refine h.settled.imp_right fun ⟨p, hp, hend⟩ => ?_
    rw [splitOn_of_ne hb, List.getElem?_modifyHead, if_pos rfl] at hp
    obtain ⟨p', hp', rfl⟩ := Option.map_eq_some_iff.1 hp
    refine ⟨p', hp', ?_⟩
    rwa [splitOn_of_ne hb, List.length_modifyHead, List.map_cons, List.append_cons] at hend

/-- A character of another item plays no part. -/
theorem after_other (h : Settles (b :: bytes) next (j + 1) item) (hb : b ≠ separator) :
    Settles bytes next (j + 1) item where
  text b hb := h.text b (List.mem_cons_of_mem _ hb)
  settled := by
    refine h.settled.imp_right fun ⟨p, hp, hend⟩ => ⟨p, ?_, ?_⟩
    · rwa [splitOn_of_ne hb, List.getElem?_modifyHead, if_neg (Nat.succ_ne_zero j)] at hp
    · rwa [splitOn_of_ne hb, List.length_modifyHead] at hend

end Settles

/-! ### One byte of an item -/

section

variable {wanted current limit : Nat}

/-- `readItem` stops at the end of the text, and past the item. -/
theorem readItem_stop (h : isEnd b = true ∨ wanted < current) :
    readItem wanted (limit + 1) b current item = pure (some item) := by
  rw [readItem, if_pos]
  simpa using h

theorem readItem_go (hb : isEnd b = false) (hcurrent : current ≤ wanted) :
    ¬ (isEnd b || decide (wanted < current)) = true := by
  simpa [hb] using hcurrent

/-- `readItem` counts a `separator` and reads on. -/
theorem readItem_separator (hwanted : wanted < 255) (hcurrent : current ≤ wanted) :
    readItem wanted (limit + 1) separator current item =
      receive >>= fun byte => readItem wanted limit byte (current + 1) item := by
  have hnext : min 255 (current + 1) = current + 1 := by omega
  rw [readItem, if_neg (readItem_go rfl hcurrent), if_pos rfl, hnext]

/-- `readItem` keeps a character of the `item`, if there is room for it. -/
theorem readItem_char (hb : isEnd b = false) (hplain : b ≠ separator) :
    readItem wanted (limit + 1) b wanted item =
      if Text.byteSize (item ++ [char b]) ≤ maxItem then
        receive >>= fun byte => readItem wanted limit byte wanted (item ++ [char b])
      else pure (some item) := by
  rw [readItem, if_neg (readItem_go hb (Nat.le_refl _)), if_neg hplain, if_pos rfl]

/-- `readItem` passes over a character of another item. -/
theorem readItem_other (hb : isEnd b = false) (hplain : b ≠ separator)
    (hcurrent : current < wanted) :
    readItem wanted (limit + 1) b current item =
      receive >>= fun byte => readItem wanted limit byte current item := by
  rw [readItem, if_neg (readItem_go hb (Nat.le_of_lt hcurrent)), if_neg hplain,
    if_neg (Nat.ne_of_lt hcurrent)]

end

/-! ### Reading an item -/

theorem gathers_nil (hitem : Text.byteSize item ≤ maxItem) : Gathers item (some []) item := by
  refine .piece ?_
  rw [List.map_nil, List.append_nil]
  exact fits_self hitem

/-- A character that was read belongs to the piece `p`. -/
theorem Gathers.char {p : List UInt8} (h : Gathers (item ++ [char b]) (some p) cs) :
    Gathers item (some (b :: p)) cs := by
  cases h with
  | piece fits =>
    rw [List.append_assoc, List.singleton_append, ← List.map_cons] at fits
    exact .piece fits

/-- Reading on from the byte `n` gives the item that this byte and the `k` before the one that
settles it have. -/
def ReadsOff (stream : Nat → UInt8) (n k wanted current : Nat) (item : List Char) : Prop :=
  ∀ limit, k < limit →
    (readItem wanted limit (stream n) current item).Ensures (Feeds stream) (n + 1) fun result _ =>
      ∃ cs, result = some cs ∧
        Gathers item ((sent stream n k).splitOn separator)[wanted - current]? cs

section

variable {wanted current limit : Nat}

theorem ReadsOff.receive (h : ReadsOff stream n k wanted current item) (hlimit : k < limit) :
    (receive >>= fun byte => readItem wanted limit byte current item).Ensures (Feeds stream) n
      fun result _ => ∃ cs, result = some cs ∧
        Gathers item ((sent stream n k).splitOn separator)[wanted - current]? cs := by
  refine .bind (ensures_receive.mono fun b n' hb => ?_)
  obtain ⟨rfl, rfl⟩ := hb
  exact h limit hlimit

/-- At the end the `item` that was begun is all there is, and one that was not is missing. -/
theorem readsOff_end (hend : isEnd (stream n) = true) (hitem : Text.byteSize item ≤ maxItem) :
    ReadsOff stream n 0 wanted current item := by
  intro limit hlimit
  obtain ⟨limit, rfl⟩ := Nat.exists_eq_add_of_lt hlimit
  rw [Nat.zero_add, readItem_stop (.inl hend)]
  refine .done ⟨item, rfl, ?_⟩
  rw [sent, List.range'_zero, List.map_nil, List.splitOn_nil]
  cases wanted - current with
  | zero => exact gathers_nil hitem
  | succ j => exact .missing

/-- The `separator` after the item completes it, which one more byte finds. -/
theorem readsOff_complete (hwanted : wanted < 255) (hseparator : stream n = separator)
    (hitem : Text.byteSize item ≤ maxItem) : ReadsOff stream n (k + 1) wanted wanted item := by
  intro limit hlimit
  obtain ⟨limit, rfl⟩ : ∃ l, limit = l + 2 := ⟨limit - 2, by omega⟩
  rw [hseparator, readItem_separator hwanted (Nat.le_refl _), sent_succ, hseparator,
    splitOn_separator, Nat.sub_self]
  refine .bind (ensures_receive.mono fun b n' _ => ?_)
  rw [readItem_stop (.inr (Nat.lt_succ_self _))]
  exact .done ⟨item, rfl, gathers_nil hitem⟩

/-- A `separator` before the item brings it closer. -/
theorem readsOff_separator (hwanted : wanted < 255) (hseparator : stream n = separator)
    (hbefore : current < wanted) (h : ReadsOff stream (n + 1) k wanted (current + 1) item) :
    ReadsOff stream n (k + 1) wanted current item := by
  intro limit hlimit
  obtain ⟨limit, rfl⟩ : ∃ l, limit = l + 1 := ⟨limit - 1, by omega⟩
  have hnumber : wanted - current = wanted - (current + 1) + 1 := by omega
  rw [hseparator, readItem_separator hwanted (Nat.le_of_lt hbefore), sent_succ, hseparator,
    splitOn_separator, hnumber]
  exact h.receive (by omega)

/-- A character of another item than the `wanted` one plays no part. -/
theorem readsOff_other (hend : isEnd (stream n) = false) (hplain : stream n ≠ separator)
    (hbefore : current < wanted) (h : ReadsOff stream (n + 1) k wanted current item) :
    ReadsOff stream n (k + 1) wanted current item := by
  intro limit hlimit
  obtain ⟨limit, rfl⟩ : ∃ l, limit = l + 1 := ⟨limit - 1, by omega⟩
  rw [readItem_other hend hplain hbefore, sent_succ, splitOn_of_ne hplain,
    List.getElem?_modifyHead, if_neg (Nat.sub_ne_zero_of_lt hbefore)]
  exact h.receive (by omega)

/-- A character of the `item` is kept as long as there is room for it. -/
theorem readsOff_char (hend : isEnd (stream n) = false) (hplain : stream n ≠ separator)
    (hitem : Text.byteSize item ≤ maxItem)
    (h : Text.byteSize (item ++ [char (stream n)]) ≤ maxItem →
      ReadsOff stream (n + 1) k wanted wanted (item ++ [char (stream n)])) :
    ReadsOff stream n (k + 1) wanted wanted item := by
  intro limit hlimit
  obtain ⟨limit, rfl⟩ : ∃ l, limit = l + 1 := ⟨limit - 1, by omega⟩
  obtain ⟨p, ps, hpieces⟩ := exists_piece (sent stream (n + 1) k)
  rw [readItem_char hend hplain, sent_succ, splitOn_of_ne hplain, hpieces, List.modifyHead_cons,
    Nat.sub_self, List.getElem?_cons_zero]
  split
  · next hroom =>
    refine ((h hroom).receive (by omega)).mono fun result _ hresult => ?_
    rw [Nat.sub_self, hpieces, List.getElem?_cons_zero] at hresult
    obtain ⟨cs, rfl, hgathers⟩ := hresult
    exact ⟨cs, rfl, hgathers.char⟩
  · next hfull => exact .done ⟨item, rfl, .piece (fits_full hitem (by omega) _)⟩

/-- Reading on from a point where an `item` is settled gives that item. -/
theorem readsOff_of_settles (hwanted : wanted < 255) (hcurrent : current ≤ wanted)
    (hitem : Text.byteSize item ≤ maxItem)
    (h : Settles (sent stream n k) (stream (n + k)) (wanted - current) item) :
    ReadsOff stream n k wanted current item := by
  induction k generalizing n current item with
  | zero => exact readsOff_end (h.isEnd_of_nil hitem) hitem
  | succ k ih =>
    have hshift : n + (k + 1) = n + 1 + k := by omega
    rw [sent_succ, hshift] at h
    by_cases hseparator : stream n = separator
    · rw [hseparator] at h
      rcases Nat.eq_or_lt_of_le hcurrent with rfl | hbefore
      · exact readsOff_complete hwanted hseparator hitem
      · have hnumber : wanted - current = wanted - (current + 1) + 1 := by omega
        rw [hnumber] at h
        exact readsOff_separator hwanted hseparator hbefore (ih hbefore hitem h.after_separator)
    · rcases Nat.eq_or_lt_of_le hcurrent with rfl | hbefore
      · refine readsOff_char h.isEnd_head hseparator hitem fun hroom => ?_
        rw [Nat.sub_self] at h
        refine ih (Nat.le_refl _) hroom ?_
        rw [Nat.sub_self]
        exact h.after_char hseparator
      · refine readsOff_other h.isEnd_head hseparator hbefore (ih hcurrent hitem ?_)
        obtain ⟨j, hnumber⟩ : ∃ j, wanted - current = j + 1 := ⟨wanted - current - 1, by omega⟩
        rw [hnumber] at h ⊢
        exact h.after_other hseparator

end

/-! ### How much is read -/

/-- The `bytes` without an end settle the first item if there are more of them than there is room
for. -/
theorem settles_full (htext : ∀ b ∈ bytes, isEnd b = false) (hlength : maxItem < bytes.length)
    (next : UInt8) : Settles bytes next 0 [] := by
  refine ⟨htext, .inr ?_⟩
  obtain ⟨p, ps, hpieces⟩ := exists_piece bytes
  refine ⟨p, by rw [hpieces, List.getElem?_cons_zero], ?_⟩
  rw [hpieces]
  cases ps with
  | nil =>
    -- without a separator the piece is all the bytes
    have hwhole : [separator].intercalate [p] = bytes := by
      rw [← hpieces, List.intercalate_splitOn]
    have hp : p = bytes := by simpa using hwhole
    have hsize := Text.length_le_byteSize (bytes.map char)
    rw [List.length_map] at hsize
    rw [hp, List.nil_append]
    exact .inr (Nat.lt_of_lt_of_le hlength hsize)
  | cons p' ps => exact .inl (by simp)

/-- Among the first `n` bytes there is an end, or there is none. -/
theorem settles_or_text (stream : Nat → UInt8) (n : Nat) :
    (∃ m < n, Settles (sent stream 0 m) (stream m) 0 []) ∨
      ∀ b ∈ sent stream 0 n, isEnd b = false := by
  induction n with
  | zero => exact .inr fun b hb => absurd hb List.not_mem_nil
  | succ n ih =>
    rcases ih with ⟨m, hm, hsettles⟩ | htext
    · exact .inl ⟨m, Nat.lt_succ_of_lt hm, hsettles⟩
    · cases hend : isEnd (stream n) with
      | true => exact .inl ⟨n, Nat.lt_succ_self n, htext, .inl hend⟩
      | false =>
        refine .inr ?_
        rw [sent, List.range'_1_concat, List.map_append, List.forall_mem_append, Nat.zero_add]
        exact ⟨htext, List.forall_mem_singleton.2 hend⟩

/-- The first item is settled by 129 bytes of the `stream` at most. -/
theorem exists_settles (stream : Nat → UInt8) :
    ∃ n ≤ maxItem + 1, Settles (sent stream 0 n) (stream n) 0 [] := by
  rcases settles_or_text stream (maxItem + 1) with ⟨n, hn, hsettles⟩ | htext
  · exact ⟨n, Nat.le_of_lt hn, hsettles⟩
  · refine ⟨maxItem + 1, Nat.le_refl _, settles_full htext ?_ _⟩
    rw [sent, List.length_map, List.length_range']
    exact Nat.lt_succ_self _

/-- Every byte that is asked for is one of the `stream`. -/
theorem along_clocks {read : List (UInt8 × UInt8)} {n' : Nat} (hread : ∀ b ∈ read, b.1 = 0x00)
    (h : Trace.Along (Feeds stream) (Device.clocks read) n n') : n' = n + read.length := by
  induction read generalizing n with
  | nil =>
    cases h
    rfl
  | cons b read ih =>
    obtain ⟨hb, hrest⟩ := List.forall_mem_cons.1 hread
    obtain ⟨sent, back⟩ := b
    obtain rfl : sent = 0x00 := hb
    obtain _ | ⟨first, rest⟩ := h
    rw [ih hrest rest]
    cases first with
    | byte => rw [List.length_cons]; omega
    | other _ h => exact absurd rfl h

/-- Asking for the first item takes 130 bytes of the `stream` at most. -/
theorem ensures_firstItem (stream : Nat → UInt8) :
    (item? 0).Ensures (Feeds stream) 0 fun _ n => n ≤ maxItem + 2 := by
  intro t item n hrun halong
  obtain ⟨ds, rfl, back, read, rfl, hlength, hread⟩ := does_firstItem t item hrun
  rw [List.flatMap_singleton] at halong
  obtain _ | ⟨hselect, _ | ⟨hopcode, hbody⟩⟩ := halong
  obtain rfl := hselect.same fun h => nomatch h
  obtain rfl := hopcode.same fun h => nomatch h
  obtain ⟨m, hclocks, hdeselect⟩ := Trace.along_append_iff.1 hbody
  obtain _ | ⟨hlast, _ | _⟩ := hdeselect
  obtain rfl := hlast.same fun h => nomatch h
  have hcount := along_clocks hread hclocks
  omega

/-- What is asked for is answered with the item that the text has, if it is settled (`Settles`). -/
theorem ensures_itemWithin {index : UInt8} (hindex : index.toNat < 255)
    (hfirst : isAbsent (stream 0) = false) (h : Settles (sent stream 0 n) (stream n) index.toNat [])
    {limit : Nat} (hlimit : n < limit) :
    (itemWithin? limit index).Ensures (Feeds stream) 0 fun item _ =>
      Extracts ((sent stream 0 n).splitOn separator)[index.toNat]? item := by
  refine ensures_query (by decide) (.bind (ensures_receive.mono fun first n₁ hreceive => ?_))
  obtain ⟨rfl, rfl⟩ := hreceive
  rw [if_neg (Bool.eq_false_iff.1 hfirst), map_eq_pure_bind]
  have hsettles : Settles (sent stream 0 n) (stream (0 + n)) (index.toNat - 0) [] := by
    rwa [Nat.zero_add, Nat.sub_zero]
  have hreads := readsOff_of_settles hindex (Nat.zero_le _) (Nat.zero_le _) hsettles
  refine .bind ((hreads limit hlimit).mono fun result _ hresult => .done ?_)
  obtain ⟨cs, rfl, hgathers⟩ := hresult
  exact hgathers.extracts

theorem ensures_absent (hfirst : isAbsent (stream 0) = true) (limit : Nat) (index : UInt8) :
    (itemWithin? limit index).Ensures (Feeds stream) 0 fun item n => item = none ∧ n = 1 := by
  refine ensures_query (by decide) (.bind (ensures_receive.mono fun first n₁ hreceive => ?_))
  obtain ⟨rfl, rfl⟩ := hreceive
  rw [if_pos hfirst]
  exact .done ⟨rfl, rfl⟩

/-- **Items of a config string.**  Let a core answer from a `stream` of bytes (`Feeds`).  Asking for
an item comes to an end.  There is none if the first byte says so (`isAbsent`), and no other byte is
read then.  Otherwise, as soon as what was `sent` settles the item (`Settles`), it is the piece of
the number `index` between separators, of which it is the longest beginning that there is room for
(`Extracts`); a piece that is missing or empty is no item.  The first item is settled by 129 bytes
of any stream, and asking for it takes one more at most. -/
theorem item_extracted (stream : Nat → UInt8) (index : UInt8) (hindex : index.toNat < 255) :
    (∀ limit, ∃ t item n,
      (itemWithin? limit index).Run t item ∧ Trace.Along (Feeds stream) t 0 n) ∧
    (isAbsent (stream 0) = true → ∀ limit,
      (itemWithin? limit index).Ensures (Feeds stream) 0 fun item n => item = none ∧ n = 1) ∧
    (isAbsent (stream 0) = false → ∀ n, Settles (sent stream 0 n) (stream n) index.toNat [] →
      ∀ limit, n < limit → (itemWithin? limit index).Ensures (Feeds stream) 0 fun item _ =>
        Extracts ((sent stream 0 n).splitOn separator)[index.toNat]? item) ∧
    (∃ n ≤ maxItem + 1, Settles (sent stream 0 n) (stream n) 0 []) ∧
    (item? 0).Ensures (Feeds stream) 0 fun _ n => n ≤ maxItem + 2 :=
  ⟨fun _ => Program.exists_along (Feeds.exists_reply stream) _ 0,
    fun hfirst limit => ensures_absent hfirst limit index,
    fun hfirst _ hsettles _ hlimit => ensures_itemWithin hindex hfirst hsettles hlimit,
    exists_settles stream, ensures_firstItem stream⟩

/-- What a core with three items sends. -/
def threeItems (n : Nat) : UInt8 :=
  ("NES;F,NES;O1,Scanlines".toList.map fun c => c.toNat.toUInt8).getD n 0

/-- The last of the `threeItems` is settled by the end after it, and there is room for all of it. -/
theorem item_extracted_last :
    Settles (sent threeItems 0 22) (threeItems 22) 2 [] ∧
      (item? 2).Ensures (Feeds threeItems) 0 fun item _ => item = some "O1,Scanlines" := by
  have htext : ∀ b ∈ sent threeItems 0 22, isEnd b = false := by decide +kernel
  have hend : isEnd (threeItems 22) = true := by decide +kernel
  have hsettles : Settles (sent threeItems 0 22) (threeItems 22) 2 [] := ⟨htext, .inl hend⟩
  refine ⟨hsettles, ?_⟩
  obtain ⟨-, -, hitem, -⟩ := item_extracted threeItems 2 (by decide)
  refine (hitem (by decide +kernel) 22 hsettles readLimit (by decide)).mono fun item _ h => ?_
  have hpiece : ∃ p, ((sent threeItems 0 22).splitOn separator)[2]? = some p ∧ p ≠ [] ∧
      Text.byteSize (p.map char) ≤ maxItem ∧ String.ofList (p.map char) = "O1,Scanlines" :=
    ⟨"O1,Scanlines".toList.map fun c => c.toNat.toUInt8, by decide +kernel⟩
  obtain ⟨p, hp, hne, hroom, htext⟩ := hpiece
  change Extracts ((sent threeItems 0 22).splitOn separator)[2]? item at h
  rw [hp] at h
  cases h with
  | empty => exact absurd rfl hne
  | item _ fits => rw [fits.eq_of_room hroom, htext]

end IoController.Link.ConfigString
