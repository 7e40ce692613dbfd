/-!
# Text

Texts as lists of characters: blanks around them, bytes written in digits, and lengths and cuts
measured in the bytes of their UTF-8 form.

* `trim`: a text without the blanks around it, blanks being what Unicode's White_Space property
  says.
* `byte?`: the byte that digits write.
* `byteSize`: how many bytes a text takes; `byteSize_eq_length_iff`: one for each character exactly
  if it is ASCII.
* `cut?`: the two parts of a text around a byte; `cut?_append`, `eq_append_of_cut?`: where there are
  such parts.
* `truncate?`: a text cut down to so many bytes; `byteSize_le_of_truncate?`, `truncate?_append`.
-/

namespace IoController.Text

/-! ### Blanks -/

/-- Whether `c` has Unicode's White_Space property. -/
def isBlank (c : Char) : Bool :=
  let n := c.toNat
  (0x09 ≤ n && n ≤ 0x0d) || n == 0x20 || n == 0x85 || n == 0xa0 || n == 0x1680 ||
    (0x2000 ≤ n && n ≤ 0x200a) || n == 0x2028 || n == 0x2029 || n == 0x202f || n == 0x205f ||
    n == 0x3000

/-- The text `cs` without the blanks it ends with. -/
def trimRight (cs : List Char) : List Char := (cs.reverse.dropWhile isBlank).reverse

/-- The text `cs` without the blanks it begins and ends with. -/
def trim (cs : List Char) : List Char := trimRight (cs.dropWhile isBlank)

/-! ### Digits -/

/-- The value of the digit `c`; letters of either case follow the nine. -/
def digit? (c : Char) : Option Nat :=
  if '0' ≤ c ∧ c ≤ '9' then some (c.toNat - '0'.toNat)
  else if 'a' ≤ c ∧ c ≤ 'z' then some (c.toNat - 'a'.toNat + 10)
  else if 'A' ≤ c ∧ c ≤ 'Z' then some (c.toNat - 'A'.toNat + 10)
  else none

/-- The number written in `base` by the digits of a text after those that come to `value`. -/
def digitsValue? (base : Nat) : Nat → List Char → Option Nat
  | value, [] => some value
  | value, c :: cs =>
    match digit? c with
    | some d => if d < base then digitsValue? base (value * base + d) cs else none
    | none => none

/-- The byte written in `base`, if `text` is a number below 256. -/
def byte? (base : Nat) (text : List Char) : Option UInt8 :=
  let digits := if text.head? = some '+' then text.tail else text
  if digits.isEmpty then none
  else
    match digitsValue? base 0 digits with
    | some n => if n < 256 then some n.toUInt8 else none
    | none => none

/-! ### Lengths in bytes -/

/-- How many bytes the characters `cs` take in UTF-8. -/
def byteSize (cs : List Char) : Nat := cs.foldr (fun c n => c.utf8Size + n) 0

@[simp] theorem byteSize_nil : byteSize [] = 0 := rfl

@[simp] theorem byteSize_cons (c : Char) (cs : List Char) :
    byteSize (c :: cs) = c.utf8Size + byteSize cs := rfl

@[simp] theorem byteSize_append (cs ds : List Char) :
    byteSize (cs ++ ds) = byteSize cs + byteSize ds := by
  induction cs with
  | nil => simp
  | cons c cs ih => rw [List.cons_append, byteSize_cons, byteSize_cons, ih, Nat.add_assoc]

/-- A beginning `cs` of `ds` takes no more bytes. -/
theorem byteSize_le_of_prefix {cs ds : List Char} (h : cs <+: ds) : byteSize cs ≤ byteSize ds := by
  obtain ⟨rest, rfl⟩ := h
  rw [byteSize_append]
  exact Nat.le_add_right _ _

theorem length_le_byteSize (cs : List Char) : cs.length ≤ byteSize cs := by
  induction cs with
  | nil => exact Nat.le_refl 0
  | cons c cs ih =>
    have hpos := c.utf8Size_pos
    rw [List.length_cons, byteSize_cons]
    omega

/-- A text takes one byte for each character exactly if it is ASCII. -/
theorem byteSize_eq_length_iff {cs : List Char} :
    byteSize cs = cs.length ↔ ∀ c ∈ cs, c.toNat < 0x80 := by
  induction cs with
  | nil => simp
  | cons c cs ih =>
    have hpos := c.utf8Size_pos
    have hlength := length_le_byteSize cs
    have hone : c.utf8Size = 1 ↔ c.toNat < 0x80 := by
      rw [Char.utf8Size_eq_one_iff, UInt32.le_iff_toNat_le]
      exact Nat.lt_succ_iff.symm
    rw [byteSize_cons, List.length_cons, List.forall_mem_cons, ← ih, ← hone]
    omega

/-! ### Cuts -/

/-- The characters that make up the first `n` bytes of a text, and the rest.  There is no such cut
beyond the end of the text or in the middle of a character. -/
def cut? : Nat → List Char → Option (List Char × List Char)
  | 0, cs => some ([], cs)
  | _, [] => none
  | n, c :: cs =>
    if c.utf8Size ≤ n then (cut? (n - c.utf8Size) cs).map fun (head, rest) => (c :: head, rest)
    else none

theorem cut?_zero (cs : List Char) : cut? 0 cs = some ([], cs) := by
  cases cs <;> rfl

/-- The first character `c` is cut off whole, if there are bytes enough for it. -/
theorem cut?_cons {n : Nat} (hn : n ≠ 0) (c : Char) (cs : List Char) :
    cut? n (c :: cs) =
      if c.utf8Size ≤ n then (cut? (n - c.utf8Size) cs).map fun (head, rest) => (c :: head, rest)
      else none := by
  cases n with
  | zero => exact absurd rfl hn
  | succ n => rfl

/-- A text is cut behind any beginning `head` of it. -/
theorem cut?_append (head rest : List Char) :
    cut? (byteSize head) (head ++ rest) = some (head, rest) := by
  induction head with
  | nil => exact cut?_zero rest
  | cons c head ih =>
    have hpos := c.utf8Size_pos
    rw [List.cons_append, byteSize_cons, cut?_cons (by omega), if_pos (Nat.le_add_right _ _),
      Nat.add_sub_cancel_left, ih]
    rfl

/-- What `cut?` cuts off is a beginning of the text, and takes `n` bytes. -/
theorem eq_append_of_cut? {n : Nat} {cs head rest : List Char}
    (h : cut? n cs = some (head, rest)) : cs = head ++ rest ∧ byteSize head = n := by
  induction cs generalizing n head with
  | nil =>
    cases n with
    | zero =>
      cases h
      exact ⟨rfl, rfl⟩
    | succ n => cases h
  | cons c cs ih =>
    by_cases hn : n = 0
    · subst hn
      cases h
      exact ⟨rfl, rfl⟩
    · rw [cut?_cons hn] at h
      split at h
      · obtain ⟨⟨head', rest'⟩, hcut, hp⟩ := Option.map_eq_some_iff.1 h
        obtain ⟨rfl, rfl⟩ := Prod.mk.inj hp
        obtain ⟨rfl, hsize⟩ := ih hcut
        refine ⟨rfl, ?_⟩
        rw [byteSize_cons]
        omega
      · cases h

/-- The text `cs` cut down to `n` bytes.  A text that has no more is left as it is.  There is no
such cut in the middle of a character. -/
def truncate? (n : Nat) (cs : List Char) : Option (List Char) :=
  if byteSize cs ≤ n then some cs else (cut? n cs).map (·.1)

/-- What `truncate?` leaves has no more bytes than it may. -/
theorem byteSize_le_of_truncate? {n : Nat} {cs base : List Char} (h : truncate? n cs = some base) :
    byteSize base ≤ n := by
  unfold truncate? at h
  split at h
  · next hshort =>
    obtain rfl := Option.some.inj h
    exact hshort
  · obtain ⟨⟨head, rest⟩, hcut, rfl⟩ := Option.map_eq_some_iff.1 h
    exact Nat.le_of_eq (eq_append_of_cut? hcut).2

/-- All that `truncate?` takes away is what follows the first bytes. -/
theorem truncate?_append (head rest : List Char) :
    truncate? (byteSize head) (head ++ rest) = some head := by
  unfold truncate?
  split
  · next hshort =>
    have hlength := length_le_byteSize rest
    rw [byteSize_append] at hshort
    obtain rfl : rest = [] := List.eq_nil_of_length_eq_zero (by omega)
    rw [List.append_nil]
  · rw [cut?_append, Option.map_some]

end IoController.Text
