import IoController.Keyboard.Router
import Mathlib.Data.List.Chain

/-!
# Keyboard — Strokes

What goes down and comes up in a list of events, counted.

* `Line`: a key of the core or of the OSD, with the events that put it down and let it up.
* `Line.Balanced`: from `n` downs that are still owed an up, the events lead to `m`, and no up
  comes before its down.  Such lists may be joined (`Line.Balanced.append`).
* `Turns`: the strokes of a key that is seen to make and break by turns.
-/

namespace IoController

/-- Whether an event is of no key, neither of the core nor of the OSD. -/
def Event.isQuiet : Event → Bool
  | .key .. | .osdKey _ => false
  | _ => true

namespace Keyboard

/-! ### Lines -/

/-- Something that goes down and comes up: a key of the core, or a key of the OSD. -/
inductive Line where
  | core (code : KeyCode)
  | osd (code : UInt8)
  deriving DecidableEq

namespace Line

/-- The event that puts it down. -/
def down : Line → Event
  | core code => .key code true
  | osd code => .osdKey code

/-- The event that lets it up. -/
def up : Line → Event
  | core code => .key code false
  | osd code => .osdKey (code ||| osdReleased)

/-- A key that comes up when it is let go, under a code that tells its downs from its ups. -/
def Regular : Line → Prop
  | core code => code.togglesCaps = false
  | osd code => code < 0x80

/-- The low seven bits are those of the `code` that went down. -/
theorem released_low {code : UInt8} (h : code < 0x80) : (code ||| osdReleased) &&& 0x7f = code := by
  have hall : ∀ b : BitVec 8, b < 0x80#8 → (b ||| 0x80#8) &&& 0x7f#8 = b := by decide
  exact UInt8.toBitVec_inj.1 (hall code.toBitVec h)

/-- A `code` with the bit of a release is none of a key that goes down. -/
theorem not_released_lt (code : UInt8) : ¬ (code ||| osdReleased) < 0x80 := by
  have hall : ∀ b : BitVec 8, ¬ (b ||| 0x80#8) < 0x80#8 := by decide
  exact hall code.toBitVec

/-- The event `Line.down` tells which line goes down. -/
theorem down_inj {l l' : Line} (h : l.down = l'.down) : l = l' := by
  cases l with
  | core code => cases l' with
    | core code' => cases h; rfl
    | osd code' => cases h
  | osd code => cases l' with
    | core code' => cases h
    | osd code' => cases h; rfl

/-- The event `Line.up` tells which regular line comes up. -/
theorem up_inj {l l' : Line} (hl : l.Regular) (hl' : l'.Regular) (h : l.up = l'.up) : l = l' := by
  cases l with
  | core code => cases l' with
    | core code' => cases h; rfl
    | osd code' => cases h
  | osd code => cases l' with
    | core code' => cases h
    | osd code' =>
      have hcodes : code ||| osdReleased = code' ||| osdReleased := Event.osdKey.inj h
      rw [← released_low hl, hcodes, released_low hl']

theorem down_ne_up {l : Line} (hl : l.Regular) (l' : Line) : l.down ≠ l'.up := by
  intro h
  cases l with
  | core code => cases l' with
    | core code' => cases h
    | osd code' => cases h
  | osd code => cases l' with
    | core code' => cases h
    | osd code' =>
      have hcode : code = code' ||| osdReleased := Event.osdKey.inj h
      have hlow : code < 0x80 := hl
      rw [hcode] at hlow
      exact not_released_lt code' hlow

/-! ### Balance -/

/-- From `n` downs that are still owed an up the `events` lead to `m`, and at no point are there
more ups than downs. -/
structure Balanced (l : Line) (n : Nat) (events : List Event) (m : Nat) : Prop where
  total : n + events.count l.down = events.count l.up + m
  before : ∀ p, p <+: events → p.count l.up ≤ n + p.count l.down

namespace Balanced

variable {l l' : Line} {n k m : Nat} {events rest : List Event} {lines : List Line}

theorem append (h : l.Balanced n events k) (h' : l.Balanced k rest m) :
    l.Balanced n (events ++ rest) m where
  total := by
    have h₁ := h.total
    have h₂ := h'.total
    rw [List.count_append, List.count_append]
    omega
  before p hp := by
    obtain ⟨q, hq⟩ := hp
    -- a prefix of the joined list ends in the first part, or goes on into the second
    rcases List.append_eq_append_iff.1 hq with ⟨s, hs, -⟩ | ⟨s, hs, hrest⟩
    · exact h.before p ⟨s, hs.symm⟩
    · have h₁ := h.total
      have h₂ := h'.before s ⟨q, hrest.symm⟩
      rw [hs, List.count_append, List.count_append]
      omega

theorem silent (h : ∀ e ∈ events, e ≠ l.down ∧ e ≠ l.up) : l.Balanced n events n where
  total := by
    have hdown : events.count l.down = 0 := List.count_eq_zero.2 fun hmem => (h _ hmem).1 rfl
    have hup : events.count l.up = 0 := List.count_eq_zero.2 fun hmem => (h _ hmem).2 rfl
    rw [hdown, hup, Nat.add_zero, Nat.zero_add]
  before p hp := by
    have hup : p.count l.up = 0 :=
      List.count_eq_zero.2 fun hmem => (h _ (hp.subset hmem)).2 rfl
    rw [hup]
    exact Nat.zero_le _

theorem nil : l.Balanced n [] n := silent fun _ he => absurd he List.not_mem_nil

/-- A line `l'` that goes down counts if it is this one. -/
theorem down (hl : l.Regular) (hl' : l'.Regular) : l.Balanced n [l'.down] (n + [l'].count l) := by
  by_cases h : l' = l
  · subst h
    have hne : l'.down ≠ l'.up := down_ne_up hl l'
    have hcount : [l'.down].count l'.up = 0 := List.count_eq_zero.2 (by simpa using hne.symm)
    refine ⟨by simp [hcount], fun p hp => ?_⟩
    have hle := hp.sublist.count_le l'.up
    omega
  · have hzero : [l'].count l = 0 := List.count_eq_zero.2 (by simpa using Ne.symm h)
    rw [hzero]
    refine silent fun e he => ?_
    rw [List.mem_singleton.1 he]
    exact ⟨fun heq => h (down_inj heq), down_ne_up hl' l⟩

/-- A line `l'` that comes up counts if it is this one. -/
theorem up (hl : l.Regular) (hl' : l'.Regular) : l.Balanced (n + [l'].count l) [l'.up] n := by
  by_cases h : l' = l
  · subst h
    have hne : l'.down ≠ l'.up := down_ne_up hl l'
    have hcount : [l'.up].count l'.down = 0 := List.count_eq_zero.2 (by simpa using hne)
    refine ⟨by simp [hcount, Nat.add_comm], fun p hp => ?_⟩
    have hle := hp.sublist.count_le l'.up
    simp only [List.count_singleton_self] at hle ⊢
    omega
  · have hzero : [l'].count l = 0 := List.count_eq_zero.2 (by simpa using Ne.symm h)
    rw [hzero]
    refine silent fun e he => ?_
    rw [List.mem_singleton.1 he]
    exact ⟨fun heq => down_ne_up hl l' heq.symm, fun heq => h (up_inj hl' hl heq)⟩

/-- The `lines` that go down, one after the other. -/
theorem downs (hl : l.Regular) (hlines : ∀ l' ∈ lines, l'.Regular) :
    l.Balanced n (lines.map Line.down) (n + lines.count l) := by
  induction lines generalizing n with
  | nil => exact nil
  | cons l' lines ih =>
    have hfirst : l.Balanced n [l'.down] (n + [l'].count l) :=
      down hl (hlines l' List.mem_cons_self)
    have hrest := ih (n := n + [l'].count l) fun l'' h => hlines l'' (List.mem_cons_of_mem l' h)
    rw [Nat.add_assoc, ← List.count_append] at hrest
    exact hfirst.append hrest

/-- The `lines` that come up, one after the other. -/
theorem ups (hl : l.Regular) (hlines : ∀ l' ∈ lines, l'.Regular) :
    l.Balanced (n + lines.count l) (lines.map Line.up) n := by
  induction lines generalizing n with
  | nil => exact nil
  | cons l' lines ih =>
    have hfirst : l.Balanced (n + lines.count l + [l'].count l) [l'.up] (n + lines.count l) :=
      up hl (hlines l' List.mem_cons_self)
    have hrest := ih (n := n) fun l'' h => hlines l'' (List.mem_cons_of_mem l' h)
    have hcount : n + (l' :: lines).count l = n + lines.count l + [l'].count l := by
      rw [← List.singleton_append, List.count_append]
      omega
    rw [hcount]
    exact hfirst.append hrest

end Balanced

end Line

/-! ### Strokes by turns -/

/-- What the `events` do to the key `code` of the core: `true` for a make, `false` for a break. -/
def strokes (code : KeyCode) (events : List Event) : List Bool :=
  events.filterMap fun
    | .key code' make => if code' = code then some make else none
    | _ => none

/-- More `events` have their own strokes after those before. -/
theorem strokes_append (code : KeyCode) (events rest : List Event) :
    strokes code (events ++ rest) = strokes code events ++ strokes code rest :=
  List.filterMap_append

/-- Every stroke is the opposite of the one before, the first one that of `s`; the last one is `s'`.
-/
inductive Turns : Bool → List Bool → Bool → Prop where
  | nil {s : Bool} : Turns s [] s
  | cons {s s' : Bool} {strokes : List Bool} (rest : Turns (!s) strokes s') :
      Turns s ((!s) :: strokes) s'

namespace Turns

variable {s t u : Bool} {first rest : List Bool}

theorem append (h : Turns s first t) (h' : Turns t rest u) : Turns s (first ++ rest) u := by
  induction h with
  | nil => exact h'
  | cons _ ih => exact .cons (ih h')

/-- By `Turns` no stroke repeats the one before it. -/
theorem isChain (h : Turns s first t) : (s :: first).IsChain (· ≠ ·) := by
  induction h with
  | nil => exact .singleton _
  | @cons s _ _ _ ih =>
    have hne : s ≠ !s := by cases s <;> decide
    exact .cons_cons hne ih

end Turns

/-! ### Events that are no strokes -/

theorem Line.Balanced.quiet {l : Line} {n : Nat} {events : List Event}
    (h : ∀ e ∈ events, e.isQuiet = true) : l.Balanced n events n := by
  refine .silent fun e he => ?_
  have hquiet := h e he
  cases l with
  | core code => constructor <;> (rintro rfl; cases hquiet)
  | osd code => constructor <;> (rintro rfl; cases hquiet)

/-- The `events` that are no strokes of the key `code`. -/
theorem strokes_eq_nil {code : KeyCode} {events : List Event}
    (h : ∀ e ∈ events, ∀ make, e ≠ .key code make) : strokes code events = [] := by
  refine List.filterMap_eq_nil_iff.2 fun e he => ?_
  cases e with
  | key code' make =>
    by_cases hcode : code' = code
    · subst hcode
      exact absurd rfl (h _ he make)
    · exact if_neg hcode
  | _ => rfl

theorem strokes_quiet {code : KeyCode} {events : List Event}
    (h : ∀ e ∈ events, e.isQuiet = true) : strokes code events = [] := by
  refine strokes_eq_nil fun e he make heq => ?_
  have hquiet := h e he
  rw [heq] at hquiet
  cases hquiet

/-- A key `code` that is seen to make and break by turns is no regular line. -/
theorem Line.Regular.ne_key {l : Line} (hl : l.Regular) {code : KeyCode}
    (hcode : code.togglesCaps = true) (make : Bool) :
    l.down ≠ .key code make ∧ l.up ≠ .key code make := by
  cases l with
  | core code' =>
    have hne : code' ≠ code := by
      rintro rfl
      exact Bool.false_ne_true (hl.symm.trans hcode)
    exact ⟨fun h => hne (Event.key.inj h).1, fun h => hne (Event.key.inj h).1⟩
  | osd code' => exact ⟨fun h => (nomatch h), fun h => (nomatch h)⟩

theorem strokes_downs {code : KeyCode} {lines : List Line} (hcode : code.togglesCaps = true)
    (hlines : ∀ l ∈ lines, l.Regular) : strokes code (lines.map Line.down) = [] := by
  refine strokes_eq_nil fun e he make => ?_
  obtain ⟨l, hl, rfl⟩ := List.mem_map.1 he
  exact ((hlines l hl).ne_key hcode make).1

theorem strokes_ups {code : KeyCode} {lines : List Line} (hcode : code.togglesCaps = true)
    (hlines : ∀ l ∈ lines, l.Regular) : strokes code (lines.map Line.up) = [] := by
  refine strokes_eq_nil fun e he make => ?_
  obtain ⟨l, hl, rfl⟩ := List.mem_map.1 he
  exact ((hlines l hl).ne_key hcode make).2

end Keyboard

end IoController
