import IoController.Keyboard.Remap
import Mathlib.Data.List.TakeWhile
import Mathlib.Tactic.IntervalCases

/-!
# Keyboard — RemapTable

Which texts are entries of the table of remapped keys, and what any row of offers makes of a
table.

* `Remap.HexDigit`, `Remap.HexByte`, `Remap.Spells`: the texts that are entries, written down
  without the functions that read them.  `Remap.spells_iff`: the reader knows these texts
  and no others.
* `Remap.ends`: the four ends that an offer can come to, each with the table it leaves.
* `HandsBack`, `Remap.handsBack_accept`: what a caller of `Remap.add` or `Remap.addText` is given.
* `Remap.entries_after`: a table has the entries that it had, and after them those it took.
  `Remap.taken_eq_take`: it takes the first ones with a key, as many as it has room for.
* `Remap.map_eq_iff`: a key stands for the target of its first entry.
-/

namespace IoController

/-! ### What a call hands back -/

/-- What is handed back as `result`, a new value or why there is none, is what a call `ended` with:
the new value, or the error and the value as it was `before`. -/
structure HandsBack {ε σ : Type} (result : Except ε σ) (ended : Except ε Unit × σ) (before : σ) :
    Prop where
  ok_iff (after : σ) : result = .ok after ↔ ended = (.ok (), after)
  error_iff (e : ε) : result = .error e ↔ ended = (.error e, before)

namespace HandsBack

variable {ε σ : Type} {result : Except ε σ} {ended : Except ε Unit × σ} {before : σ}

/-- A call that fails without a change may hand back the value that it ends with. -/
theorem of_map (h : ∀ e, ended.1 = .error e → ended.2 = before) :
    HandsBack (ended.1.map fun _ => ended.2) ended before := by
  obtain ⟨end?, left⟩ := ended
  cases end? with
  | ok u => exact ⟨fun after => by simp [Except.map], fun e => by simp [Except.map]⟩
  | error e =>
    obtain rfl := h e rfl
    exact ⟨fun after => by simp [Except.map], fun e' => by simp [Except.map]⟩

/-- Nothing is lost by keeping the value as it was `before` when there is no new one. -/
theorem getD (h : HandsBack result ended before) : result.toOption.getD before = ended.2 := by
  cases result with
  | ok after => rw [(h.ok_iff after).1 rfl]; rfl
  | error e => rw [(h.error_iff e).1 rfl]; rfl

end HandsBack

namespace Keyboard.Remap

/-! ### Bytes in hexadecimal -/

/-- A hexadecimal digit `c` of either case, and its value `d`. -/
def HexDigit (c : Char) (d : Nat) : Prop :=
  "0123456789abcdef".toList[d]? = some c ∨ "0123456789ABCDEF".toList[d]? = some c

/-- Two hexadecimal digits, or one behind a plus sign, and their value. -/
inductive HexByte : List Char → UInt8 → Prop
  | digits {c d : Char} {m n : Nat} :
      HexDigit c m → HexDigit d n → HexByte [c, d] (16 * m + n).toUInt8
  | plus {c : Char} {n : Nat} : HexDigit c n → HexByte ['+', c] n.toUInt8

theorem HexDigit.lt {c : Char} {d : Nat} (h : HexDigit c d) : d < 16 := by
  obtain h | h := h <;> exact (List.getElem?_eq_some_iff.1 h).1

/-- The digits are among those that numbers of any base are written in. -/
theorem HexDigit.digit? {c : Char} {d : Nat} (h : HexDigit c d) : Text.digit? c = some d := by
  have hd := h.lt
  obtain h | h := h <;> interval_cases d <;> cases h <;> rfl

/-- The character `c` that a digit is: a decimal one, or a letter of either case. -/
theorem eq_ofNat_of_digit? {c : Char} {d : Nat} (h : Text.digit? c = some d) :
    d < 10 ∧ c = .ofNat (48 + d) ∨ 10 ≤ d ∧ (c = .ofNat (87 + d) ∨ c = .ofNat (55 + d)) := by
  have hcode {n : Nat} (hn : c.toNat = n) : c = .ofNat n := by rw [← hn, Char.ofNat_toNat]
  have hle {a b : Char} : a ≤ b ↔ a.toNat ≤ b.toNat := UInt32.le_iff_toNat_le
  have h0 : '0'.toNat = 48 := rfl
  have h9 : '9'.toNat = 57 := rfl
  have ha : 'a'.toNat = 97 := rfl
  have hA : 'A'.toNat = 65 := rfl
  simp only [Text.digit?, hle, h0, h9, ha, hA] at h
  split_ifs at h with hdecimal hlower hupper
  · cases h
    exact .inl ⟨by omega, hcode (by omega)⟩
  · cases h
    exact .inr ⟨by omega, .inl (hcode (by omega))⟩
  · cases h
    exact .inr ⟨by omega, .inr (hcode (by omega))⟩

/-- A digit of any base that is below 16 is a hexadecimal one. -/
theorem hexDigit_of_digit? {c : Char} {d : Nat} (h : Text.digit? c = some d) (hd : d < 16) :
    HexDigit c d := by
  obtain ⟨hlt, rfl⟩ | ⟨hge, rfl | rfl⟩ := eq_ofNat_of_digit? h
  · interval_cases d <;> exact .inl rfl
  · interval_cases d <;> exact .inl rfl
  · interval_cases d <;> exact .inr rfl

/-- A digit `c` is one byte of text. -/
theorem HexDigit.utf8Size {c : Char} {d : Nat} (h : HexDigit c d) : c.utf8Size = 1 := by
  have hd := h.lt
  obtain h | h := h <;> interval_cases d <;> cases h <;> rfl

theorem HexDigit.ne_plus {c : Char} {d : Nat} (h : HexDigit c d) : c ≠ '+' := by
  rintro rfl
  cases h.digit?

/-- What is read as a number in base 16 is digits. -/
theorem digitsValue?_cons {value : Nat} {c : Char} {cs : List Char} {n : Nat} :
    Text.digitsValue? 16 value (c :: cs) = some n ↔
      ∃ d, HexDigit c d ∧ Text.digitsValue? 16 (value * 16 + d) cs = some n := by
  constructor
  · intro h
    rw [Text.digitsValue?] at h
    split at h
    · next d hd =>
      split_ifs at h with hlt
      exact ⟨d, hexDigit_of_digit? hd hlt, h⟩
    · cases h
  · rintro ⟨d, hd, h⟩
    rw [Text.digitsValue?, hd.digit?]
    exact (if_pos hd.lt).trans h

/-- Without another digit the `value` is the number. -/
theorem digitsValue?_nil {value n : Nat} :
    Text.digitsValue? 16 value [] = some n ↔ value = n :=
  Option.some_inj

theorem digitsValue?_one {c : Char} {n : Nat} :
    Text.digitsValue? 16 0 [c] = some n ↔ HexDigit c n := by
  simp only [digitsValue?_cons, digitsValue?_nil, Nat.zero_mul, Nat.zero_add, exists_eq_right]

/-- Two digits are read as their values, the first one sixteenfold. -/
theorem digitsValue?_two {c d : Char} {n : Nat} :
    Text.digitsValue? 16 0 [c, d] = some n ↔
      ∃ m, HexDigit c m ∧ ∃ k, HexDigit d k ∧ 16 * m + k = n := by
  simp only [digitsValue?_cons, digitsValue?_nil, Nat.zero_mul, Nat.zero_add, Nat.mul_comm]

/-- Without a plus sign in front, a byte is read from all of the text. -/
theorem byte?_digits {c : Char} (hplus : c ≠ '+') {cs : List Char} {n : UInt8} :
    Text.byte? 16 (c :: cs) = some n ↔
      ∃ value < 256, Text.digitsValue? 16 0 (c :: cs) = some value ∧ value.toUInt8 = n := by
  have hhead : ¬ (c :: cs).head? = some '+' := by simpa using hplus
  simp only [Text.byte?, if_neg hhead, List.isEmpty_cons, Bool.false_eq_true, if_false]
  cases Text.digitsValue? 16 0 (c :: cs) with
  | none => simp
  | some value => simp

/-- A plus sign in front of a digit is passed over. -/
theorem byte?_plus {c : Char} (hplus : c ≠ '+') :
    Text.byte? 16 ['+', c] = Text.byte? 16 [c] := by
  simp [Text.byte?, hplus]

theorem HexByte.byteSize {cs : List Char} {n : UInt8} (h : HexByte cs n) :
    Text.byteSize cs = 2 := by
  cases h with
  | digits hc hd => simp [hc.utf8Size, hd.utf8Size]
  | plus hc =>
    rw [Text.byteSize_cons, Text.byteSize_cons, hc.utf8Size]
    rfl

theorem HexByte.byte? {cs : List Char} {n : UInt8} (h : HexByte cs n) :
    Text.byte? 16 cs = some n := by
  cases h with
  | @digits c d m k hc hd =>
    have hm := hc.lt
    have hk := hd.lt
    exact (byte?_digits hc.ne_plus).2
      ⟨16 * m + k, by omega, digitsValue?_two.2 ⟨m, hc, k, hd, rfl⟩, rfl⟩
  | @plus c k hc =>
    rw [byte?_plus hc.ne_plus]
    exact (byte?_digits hc.ne_plus).2 ⟨k, hc.lt.trans (by decide), digitsValue?_one.2 hc, rfl⟩

/-- A byte is read from two bytes of text exactly if they write it. -/
theorem hexByte?_eq_some_iff {cs : List Char} {n : UInt8} :
    hexByte? cs = some n ↔ HexByte cs n := by
  unfold hexByte?
  constructor
  · intro h
    split_ifs at h with hsize
    match cs with
    | [] => cases hsize
    | [c] =>
      have hplus : c ≠ '+' := by
        rintro rfl
        cases hsize
      -- A single character of two bytes is no digit.
      obtain ⟨m, -, hm, -⟩ := (byte?_digits hplus).1 h
      rw [Text.byteSize_cons, (digitsValue?_one.1 hm).utf8Size] at hsize
      cases hsize
    | [c, d] =>
      by_cases hplus : c = '+'
      · subst hplus
        by_cases hplus : d = '+'
        · subst hplus
          cases h
        · rw [byte?_plus hplus] at h
          obtain ⟨m, -, hm, rfl⟩ := (byte?_digits hplus).1 h
          exact .plus (digitsValue?_one.1 hm)
      · obtain ⟨_, -, hm, rfl⟩ := (byte?_digits hplus).1 h
        obtain ⟨m, hc, k, hd, rfl⟩ := digitsValue?_two.1 hm
        exact .digits hc hd
    | c :: d :: e :: rest =>
      have hlength := Text.length_le_byteSize (c :: d :: e :: rest)
      rw [hsize] at hlength
      exact absurd hlength (by simp)
  · exact fun h => (if_pos h.byteSize).trans h.byte?

/-! ### Entries -/

/-- A `text` that is two bytes in hexadecimal, around its first comma and inside its blanks. -/
def Spells (text : String) (entry : UInt8 × UInt8) : Prop :=
  ∃ source target, Text.trim text.toList = source ++ ',' :: target ∧ ',' ∉ source ∧
    HexByte source entry.1 ∧ HexByte target entry.2

/-- What stands before the first comma and what stands behind it. -/
theorem parted_iff {cs source target : List Char} :
    cs.takeWhile (· != ',') = source ∧ cs.dropWhile (· != ',') = ',' :: target ↔
      cs = source ++ ',' :: target ∧ ',' ∉ source := by
  constructor
  · rintro ⟨rfl, hdrop⟩
    refine ⟨?_, fun h => ?_⟩
    · rw [← hdrop, List.takeWhile_append_dropWhile]
    · simpa using List.mem_takeWhile_imp h
  · rintro ⟨rfl, hsource⟩
    have hall : ∀ c ∈ source, (c != ',') = true := fun c hc =>
      bne_iff_ne.2 fun heq => hsource (heq ▸ hc)
    rw [List.takeWhile_append_of_pos hall, List.dropWhile_append_of_pos hall]
    exact ⟨by simp, rfl⟩

/-- The reader `entry?` knows exactly the texts that spell an entry. -/
theorem spells_iff {text : String} {entry : UInt8 × UInt8} :
    Spells text entry ↔ entry? text = some entry := by
  unfold entry? Spells
  dsimp only
  generalize Text.trim text.toList = cs
  symm
  constructor
  · intro h
    split at h
    · cases h
    · next c target hdrop =>
      have hc : c = ',' := by
        have hhead := List.head?_dropWhile_not (· != ',') cs
        rw [hdrop] at hhead
        simpa using hhead
      subst hc
      obtain ⟨hcs, hsource⟩ := parted_iff.1 ⟨rfl, hdrop⟩
      split at h
      · next a b ha hb =>
        cases h
        exact ⟨_, _, hcs, hsource, hexByte?_eq_some_iff.1 ha, hexByte?_eq_some_iff.1 hb⟩
      · cases h
  · rintro ⟨source, target, hcs, hsource, ha, hb⟩
    obtain ⟨htake, hdrop⟩ := parted_iff.2 ⟨hcs, hsource⟩
    rw [hdrop, htake]
    dsimp only
    rw [hexByte?_eq_some_iff.2 ha, hexByte?_eq_some_iff.2 hb]

/-- A `text` spells one entry at most. -/
theorem Spells.unique {text : String} {entry entry' : UInt8 × UInt8} (h : Spells text entry)
    (h' : Spells text entry') : entry = entry' :=
  Option.some_inj.1 ((spells_iff.1 h).symm.trans (spells_iff.1 h'))

/-! ### Offers -/

/-- A call that adds an entry. -/
inductive Offer where
  | keys (source target : UInt8)
  | text (written : String)

namespace Offer

/-- The entry that the `Offer` offers is this one. -/
def Writes : Offer → UInt8 × UInt8 → Prop
  | .keys source target, entry => (source, target) = entry
  | .text written, entry => Spells written entry

/-- The entry that the `Offer` offers, if there is one and it has a key. -/
def offered? : Offer → Option (UInt8 × UInt8)
  | .keys source target => if source = 0 then none else some (source, target)
  | .text written => ( entry? written).filter (·.1 ≠ 0)

/-- The entry that an offer comes to is the one that it `Writes`, if that has a key. -/
theorem offered?_eq_some_iff {o : Offer} {entry : UInt8 × UInt8} :
    o.offered? = some entry ↔ o.Writes entry ∧ entry.1 ≠ 0 := by
  cases o with
  | keys source target =>
    simp only [offered?, Writes, Option.ite_none_left_eq_some, Option.some_inj]
    constructor
    · rintro ⟨hkey, rfl⟩
      exact ⟨rfl, hkey⟩
    · rintro ⟨rfl, hkey⟩
      exact ⟨hkey, rfl⟩
  | text written => simp [offered?, Writes, spells_iff]

end Offer

/-- Makes an offer to the table `t`: how that ends, and the table it leaves. -/
def offer (t : Remap) : Offer → Except RemapError Unit × Remap
  | .keys source target => t.push source target
  | .text written => t.pushText written

/-- The table with what is offered, if it takes the offer: what a caller of `Remap.add` or of
`Remap.addText` is given. -/
def accept (t : Remap) : Offer → Except RemapError Remap
  | .keys source target => t.add source target
  | .text written => t.addText written

/-- What is offered is one `entry` at most. -/
theorem Offer.Writes.unique {o : Offer} {entry entry' : UInt8 × UInt8} (h : o.Writes entry)
    (h' : o.Writes entry') : entry = entry' := by
  cases o with
  | keys source target => exact h.symm.trans h'
  | text written => exact Spells.unique h h'

variable {t : Remap} {o : Offer}

/-- The ends that the offer `o` can come to, each with the table it leaves. -/
inductive Ends (t : Remap) (o : Offer) : Prop
  | taken {entry : UInt8 × UInt8} (hwrites : o.Writes entry) (hkey : entry.1 ≠ 0)
      (hroom : t.entries.length < maxEntries)
      (heq : t.offer o = (.ok (), ⟨t.entries ++ [entry]⟩))
  | full {entry : UInt8 × UInt8} (hwrites : o.Writes entry) (hkey : entry.1 ≠ 0)
      (hfull : maxEntries ≤ t.entries.length) (heq : t.offer o = (.error .full, t))
  | noKey {entry : UInt8 × UInt8} (hwrites : o.Writes entry) (hkey : entry.1 = 0)
      (heq : t.offer o = (.error .noKey, t))
  | malformed (hnone : ∀ entry, ¬ o.Writes entry) (heq : t.offer o = (.error .malformed, t))

/-- An offer that comes to `Remap.push` ends so. -/
theorem ends_of_push {source target : UInt8} (hwrites : o.Writes (source, target))
    (hpush : t.offer o = t.push source target) : Ends t o := by
  unfold push at hpush
  split_ifs at hpush with hkey hroom
  · exact .noKey hwrites hkey hpush
  · exact .taken hwrites hkey hroom hpush
  · exact .full hwrites hkey (Nat.le_of_not_lt hroom) hpush

theorem ends (t : Remap) (o : Offer) : Ends t o := by
  cases o with
  | keys source target => exact ends_of_push (Eq.refl (source, target)) rfl
  | text written =>
    have heq : t.offer (.text written) = t.pushText written := rfl
    unfold pushText at heq
    cases hentry : entry? written with
    | none =>
      rw [hentry] at heq
      refine .malformed (fun entry hspells => ?_) heq
      cases hentry.symm.trans (spells_iff.1 hspells)
    | some entry =>
      rw [hentry] at heq
      exact ends_of_push (spells_iff.2 hentry) heq

/-- An offer is taken, and puts its `entry` last, exactly if it offers an entry with a key and there
is room for it. -/
theorem offer_eq_ok_iff {entry : UInt8 × UInt8} :
    t.offer o = (.ok (), ⟨t.entries ++ [entry]⟩) ↔
      o.Writes entry ∧ entry.1 ≠ 0 ∧ t.entries.length < maxEntries := by
  constructor
  · intro h
    cases ends t o with
    | taken hwrites hkey hroom heq =>
      obtain rfl : _ = entry := by simpa using heq.symm.trans h
      exact ⟨hwrites, hkey, hroom⟩
    | full _ _ _ heq | noKey _ _ heq | malformed _ heq => cases heq.symm.trans h
  · rintro ⟨hwrites, hkey, hroom⟩
    cases ends t o with
    | taken hwrites' _ _ heq => rw [heq, hwrites.unique hwrites']
    | full _ _ hfull => omega
    | noKey hwrites' hkey' => exact absurd (hwrites.unique hwrites' ▸ hkey') hkey
    | malformed hnone => exact absurd hwrites (hnone _)

/-- An offer `o` that is refused leaves the table as it is. -/
theorem offer_error {e : RemapError} (h : (t.offer o).1 = .error e) : (t.offer o).2 = t := by
  cases ends t o with
  | taken _ _ _ heq =>
    rw [heq] at h
    cases h
  | full _ _ _ heq | noKey _ _ heq | malformed _ heq => rw [heq]

/-- `Remap.add` and `Remap.addText` hand back what `Remap.offer` comes to. -/
theorem handsBack_accept (t : Remap) (o : Offer) : HandsBack (t.accept o) (t.offer o) t := by
  have heq : t.accept o = (t.offer o).1.map fun _ => (t.offer o).2 := by cases o <;> rfl
  rw [heq]
  exact .of_map fun e => offer_error

/-! ### Rows of offers -/

/-- The table `t` after a row of offers. -/
def after (t : Remap) (os : List Offer) : Remap := os.foldl (fun t o => (t.offer o).2) t

/-- A caller of `accept` who keeps the table when an offer is refused comes to the same table. -/
theorem after_eq_foldl_accept (t : Remap) (os : List Offer) :
    t.after os = os.foldl (fun t o => (t.accept o).toOption.getD t) t := by
  simp only [after, (handsBack_accept _ _).getD]

/-- The entries of the offers to `t` that end well. -/
def taken (t : Remap) : List Offer → List (UInt8 × UInt8)
  | [] => []
  | o :: os =>
    match (t.offer o).1 with
    | .ok () => o.offered?.toList ++ (t.offer o).2.taken os
    | .error _ => (t.offer o).2.taken os

/-- A row of offers puts the entries that are `taken` behind those that the table has. -/
theorem entries_after (t : Remap) (os : List Offer) :
    (t.after os).entries = t.entries ++ t.taken os := by
  induction os generalizing t with
  | nil => exact (List.append_nil _).symm
  | cons o os ih =>
    have hafter : t.after (o :: os) = (t.offer o).2.after os := rfl
    rw [hafter, ih, taken]
    cases ends t o with
    | taken hwrites hkey _ heq =>
      rw [heq, Offer.offered?_eq_some_iff.2 ⟨hwrites, hkey⟩]
      exact List.append_assoc ..
    | full _ _ _ heq | noKey _ _ heq | malformed _ heq => rw [heq]

/-- A table takes the first entries with a key, as many as it has room for (`maxEntries`). -/
theorem taken_eq_take (t : Remap) (os : List Offer) :
    t.taken os = (os.filterMap Offer.offered?).take (maxEntries - t.entries.length) := by
  induction os generalizing t with
  | nil => exact List.take_nil.symm
  | cons o os ih =>
    have hnone (h : ∀ entry, o.Writes entry → entry.1 = 0) : o.offered? = none :=
      Option.eq_none_iff_forall_ne_some.2 fun entry hentry =>
        have ⟨hwrites, hkey⟩ := Offer.offered?_eq_some_iff.1 hentry
        hkey (h entry hwrites)
    rw [taken]
    cases ends t o with
    | taken hwrites hkey hroom heq =>
      have hentry := Offer.offered?_eq_some_iff.2 ⟨hwrites, hkey⟩
      have hsub : maxEntries - t.entries.length = maxEntries - (t.entries.length + 1) + 1 := by
        omega
      rw [heq, hentry, List.filterMap_cons_some hentry, hsub, List.take_succ_cons]
      dsimp only
      rw [ih, List.length_append]
      rfl
    | full _ _ hfull heq =>
      have hsub : maxEntries - t.entries.length = 0 := Nat.sub_eq_zero_of_le hfull
      rw [heq, hsub, List.take_zero]
      exact (ih t).trans (by rw [hsub, List.take_zero])
    | noKey hwrites hkey heq =>
      rw [heq, List.filterMap_cons_none (hnone fun entry h => hwrites.unique h ▸ hkey)]
      exact ih t
    | malformed hnone' heq =>
      rw [heq, List.filterMap_cons_none (hnone fun entry h => absurd h (hnone' entry))]
      exact ih t

/-! ### What a key stands for -/

/-- The `key` has the target of its first entry, or stands for itself if it has none. -/
def StandsFor (entries : List (UInt8 × UInt8)) (key target : UInt8) : Prop :=
  (∃ before rest, entries = before ++ (key, target) :: rest ∧ ∀ entry ∈ before, entry.1 ≠ key) ∨
    (∀ entry ∈ entries, entry.1 ≠ key) ∧ target = key

/-- `Remap.map` looks up what a `key` stands for by the entries. -/
theorem map_eq_iff {key target : UInt8} :
    t.map key = target ↔ StandsFor t.entries key target := by
  have hne {entry : UInt8 × UInt8} : entry.1 ≠ key ↔ (key != entry.1) = true := by
    rw [bne_iff_ne, ne_comm]
  unfold StandsFor map
  simp only [hne]
  rw [← List.lookup_eq_some_iff, ← List.lookup_eq_none_iff]
  cases t.entries.lookup key with
  | none => simp only [Option.getD_none, reduceCtorEq, false_or, true_and, eq_comm]
  | some target' => simp

end Keyboard.Remap

end IoController
