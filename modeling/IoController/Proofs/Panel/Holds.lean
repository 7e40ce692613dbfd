import IoController.Proofs.Panel.Updates
import Mathlib.Data.List.DropRight

/-!
# Panel — Holds

What a hold of the menu button toggles, and whether it ends in a click.

* `Held`: what the buttons keep of the hold that they are in.  `held_run`: they always keep that.
* `IsHold`: a hold in a life, from the first update that finds the menu button down to the last.
* `IsHold.togglesYpbpr_iff`, `IsHold.togglesScandoubler_iff`: what an update of a hold toggles.
* `IsHold.menuClick_iff`, `menuClick_ends`: a click is the end of a hold that has toggled nothing.
-/

namespace IoController.Panel

/-! ### Holds -/

/-- When the hold began that the updates in `seen` are of, if it does not begin `now`. -/
def pressedAt (seen : List Glance) (now : Instant) : Instant := (seen.head?.map (·.now)).getD now

/-- Whether an update comes a `longPress` after the menu button went down at `start`. -/
def Glance.late (g : Glance) (start : Instant) : Bool := decide (start + longPress ≤ g.now)

/-- What the buttons `b` keep of the hold that they are in, told from the updates that have `seen`
it. -/
structure Held (seen : List Glance) (b : Buttons) : Prop where
  menuDown : b.menuDown = seen.head?.map (·.now)
  menuUsed : b.menuUsed = seen.any fun g => g.user || g.late (pressedAt seen g.now)
  ypbprLatch : b.ypbprLatch = seen.getLast?.any (·.user)

theorem pressedAt_snoc (seen : List Glance) (g : Glance) (now : Instant) :
    pressedAt (seen ++ [g]) now = pressedAt seen g.now := by
  cases seen <;> rfl

namespace Held

variable {seen : List Glance} {g : Glance} {b : Buttons}

theorem initial (scandoublerDisable ypbpr : Bool) : Held [] { scandoublerDisable, ypbpr } :=
  ⟨rfl, rfl, rfl⟩

/-- What the core was `sent` is no part of a hold. -/
theorem told (h : Held seen b) (sent : Option Map) : Held seen { b with sent } :=
  ⟨h.menuDown, h.menuUsed, h.ypbprLatch⟩

theorem of_turned (h : Held seen (g.before.turned g.panel g.now)) : Held seen g.after := by
  rw [g.after_eq]
  exact h.told _

theorem long_eq (h : Held seen b) (g : Glance) :
    b.long g.now = (!b.menuUsed && g.late (pressedAt seen g.now)) := by
  rw [Buttons.long, h.menuDown]
  rfl

theorem userEdge_eq (h : Held seen b) (g : Glance) :
    b.userEdge g.user = (g.user && !seen.getLast?.any (·.user)) := by
  rw [Buttons.userEdge, h.ypbprLatch]

/-- While the user button stays down the hold has been used. -/
theorem menuUsed_of_latch (h : Held seen b) (hlatch : b.ypbprLatch = true) : b.menuUsed = true := by
  rw [h.ypbprLatch] at hlatch
  rw [h.menuUsed, List.any_eq_true]
  cases hlast : seen.getLast? with
  | none =>
    rw [hlast] at hlatch
    cases hlatch
  | some last =>
    rw [hlast] at hlatch
    have huser : last.user = true := hlatch
    exact ⟨last, List.mem_of_getLast? hlast, by rw [huser, Bool.true_or]⟩

/-- Whatever the update `g` toggles, it uses the hold. -/
theorem used_after (h : Held seen b) (g : Glance) :
    (b.menuUsed || b.long g.now || b.userEdge g.user) =
      (b.menuUsed || (g.user || g.late (pressedAt seen g.now))) := by
  rw [h.long_eq, Buttons.userEdge]
  cases hlatch : b.ypbprLatch with
  | true => rw [h.menuUsed_of_latch hlatch, Bool.true_or, Bool.true_or, Bool.true_or]
  | false => cases b.menuUsed <;> cases g.user <;> cases g.late (pressedAt seen g.now) <;> rfl

/-- An update `g` that finds the menu button down sees more of the hold. -/
theorem snoc (h : Held seen g.before) (hmenu : g.menu = true) : Held (seen ++ [g]) g.after := by
  have hdown : g.panel.has .menu = true := hmenu
  refine of_turned ?_
  rw [Buttons.turned, if_pos hdown]
  refine ⟨?_, ?_, ?_⟩
  · change some (g.before.menuDown.getD g.now) = _
    rw [h.menuDown]
    cases seen <;> rfl
  · have hsame : (seen.any fun x => x.user || x.late (pressedAt (seen ++ [g]) x.now)) =
        seen.any fun x => x.user || x.late (pressedAt seen x.now) := by
      cases seen with
      | nil => rw [List.any_nil, List.any_nil]
      | cons first more =>
        have hstart : ∀ now, pressedAt (first :: more ++ [g]) now = pressedAt (first :: more) now :=
          fun _ => rfl
        simp only [hstart]
    change (g.before.menuUsed || g.before.long g.now || g.before.userEdge g.user) = _
    rw [h.used_after, h.menuUsed, List.any_append, hsame, List.any_cons, List.any_nil,
      Bool.or_false, pressedAt_snoc]
  · change g.user = _
    rw [List.getLast?_append_cons]
    rfl

/-- An update `g` that finds the menu button up is not in a hold. -/
theorem lifted (hmenu : g.menu = false) : Held [] g.after := by
  have hup : ¬ g.panel.has .menu = true := Bool.eq_false_iff.1 hmenu
  refine of_turned ?_
  rw [Buttons.turned, if_neg hup]
  exact ⟨rfl, rfl, rfl⟩

end Held

/-- What the updates `gs` have seen so far of the hold that may be going on. -/
def holdSoFar (gs : List Glance) : List Glance := gs.rtakeWhile (·.menu)

/-- The buttons always keep the hold (`holdSoFar`) that they are in. -/
theorem held_run {scandoublerDisable ypbpr : Bool} {calls : List Call} {past rest : List Turn}
    {t : Turn}
    (hsplit : ({ scandoublerDisable, ypbpr } : Buttons).run calls = past ++ t :: rest) :
    Held (holdSoFar (glances past)) t.before := by
  refine Buttons.run_before (P := fun past b => Held (holdSoFar (glances past)) b)
    (.initial scandoublerDisable ypbpr) (fun past t h => ?_) hsplit
  cases hglance : t.glance? with
  | none =>
    have hsame : glances (past ++ [t]) = glances past := by simp [glances, hglance]
    rw [hsame, Turn.after_of_resend hglance]
    exact h.told none
  | some g =>
    obtain ⟨hbefore, hafter⟩ := Turn.after_of_glance? hglance
    have hmore : glances (past ++ [t]) = glances past ++ [g] := by simp [glances, hglance]
    rw [hmore, hafter, holdSoFar, List.rtakeWhile_concat]
    cases hmenu : g.menu with
    | true => exact Held.snoc (hbefore.symm ▸ h) hmenu
    | false => exact Held.lifted hmenu

/-- A hold of the menu button: as many updates in a row as find it down, `first` and `more`. -/
structure IsHold (gs past : List Glance) (first : Glance) (more rest : List Glance) : Prop where
  split : gs = past ++ first :: more ++ rest
  down : ∀ g ∈ first :: more, g.menu = true
  begins : ∀ g ∈ past.getLast?, g.menu = false
  ends : ∀ g ∈ rest.head?, g.menu = false

/-- An update of the hold comes long after its `first` one, and the user button was not down in any
update before that. -/
def LongPress (first : Glance) (more : List Glance) : Prop :=
  ∃ early g later, first :: more = early ++ g :: later ∧ first.now + longPress ≤ g.now ∧
    ∀ x ∈ early, x.user = false

theorem holdSoFar_append {past seen : List Glance} (hpast : ∀ g ∈ past.getLast?, g.menu = false)
    (hseen : ∀ g ∈ seen, g.menu = true) : holdSoFar (past ++ seen) = seen := by
  induction seen using List.reverseRecOn with
  | nil =>
    rw [List.append_nil, holdSoFar, List.rtakeWhile_eq_nil_iff]
    intro hne
    rw [hpast _ (List.getLast?_eq_some_getLast hne)]
    exact Bool.false_ne_true
  | append_singleton seen g ih =>
    rw [List.forall_mem_append] at hseen
    rw [← List.append_assoc, holdSoFar, List.rtakeWhile_concat,
      if_pos (hseen.2 g (List.mem_singleton_self g))]
    exact congrArg (· ++ [g]) (ih hseen.1)

section Run

variable {scandoublerDisable ypbpr : Bool} {calls : List Call} {past : List Glance}

/-- What the buttons keep when an update `g` is made to them. -/
theorem held_before {rest : List Glance} {g : Glance}
    (h : glances (({ scandoublerDisable, ypbpr } : Buttons).run calls) = past ++ g :: rest) :
    Held (holdSoFar past) g.before := by
  obtain ⟨before, t, after, hturns, rfl, hglance⟩ := turn_of_glances h
  rw [(Turn.after_of_glance? hglance).1]
  exact held_run hturns

variable {first : Glance} {more rest : List Glance}
  (h : IsHold (glances (({ scandoublerDisable, ypbpr } : Buttons).run calls)) past first more rest)
include h

/-- An update `g` of a hold is made to buttons that keep what came before it in the hold. -/
theorem IsHold.held {early later : List Glance} {g : Glance}
    (hsplit : first :: more = early ++ g :: later) : Held early g.before := by
  have hgs := h.split
  rw [List.append_assoc, hsplit, List.append_assoc, ← List.append_assoc past] at hgs
  have hdown := h.down
  rw [hsplit, List.forall_mem_append] at hdown
  have hheld := held_before hgs
  rwa [holdSoFar_append h.begins hdown.1] at hheld

/-- So is the update that ends a hold. -/
theorem IsHold.held_end {g : Glance} (hg : g ∈ rest.head?) : Held (first :: more) g.before := by
  obtain ⟨later, rfl⟩ := List.head?_eq_some_iff.1 hg
  have hheld := held_before h.split
  rwa [holdSoFar_append h.begins h.down] at hheld

variable {early later : List Glance} {g : Glance} (hsplit : first :: more = early ++ g :: later)
include hsplit

/-- In a hold, YPbPr is toggled when the user button goes down. -/
theorem IsHold.togglesYpbpr_iff :
    g.togglesYpbpr = true ↔ g.user = true ∧ ∀ x ∈ early.getLast?, x.user = false := by
  have hmenu : g.menu = true := h.down g (by rw [hsplit]; simp)
  rw [g.togglesYpbpr_eq, hmenu, (h.held hsplit).userEdge_eq, Bool.true_and, Bool.and_eq_true]
  cases early.getLast? <;> simp

/-- In a hold, the scandoubler is toggled when it has been long and nothing has been toggled. -/
theorem IsHold.togglesScandoubler_iff :
    g.togglesScandoubler = true ↔
      g.late first.now = true ∧ ∀ x ∈ early, x.user = false ∧ x.late first.now = false := by
  have hmenu : g.menu = true := h.down g (by rw [hsplit]; simp)
  have hheld := h.held hsplit
  have hstart : pressedAt early g.now = first.now ∧
      ∀ x ∈ early, pressedAt early x.now = first.now := by
    cases early with
    | nil =>
      obtain ⟨rfl, -⟩ := List.cons.inj hsplit
      exact ⟨rfl, fun x hx => nomatch hx⟩
    | cons head early =>
      obtain ⟨rfl, -⟩ := List.cons.inj hsplit
      exact ⟨rfl, fun _ _ => rfl⟩
  have hused : g.before.menuUsed = false ↔
      ∀ x ∈ early, x.user = false ∧ x.late first.now = false := by
    rw [hheld.menuUsed, List.any_eq_false]
    refine forall₂_congr fun x hx => ?_
    rw [hstart.2 x hx, Bool.or_eq_true, not_or, Bool.not_eq_true, Bool.not_eq_true]
  rw [g.togglesScandoubler_eq, hmenu, hheld.long_eq, hstart.1, Bool.true_and, Bool.and_eq_true,
    Bool.not_eq_true', hused, and_comm]

end Run

/-- The first update of the hold that comes long after its `first` one. -/
theorem LongPress.first_late {first : Glance} {more : List Glance} (h : LongPress first more) :
    ∃ early g later, first :: more = early ++ g :: later ∧ g.late first.now = true ∧
      ∀ x ∈ early, x.user = false ∧ x.late first.now = false := by
  obtain ⟨early, g, later, hsplit, hlate, huser⟩ := h
  cases hfind : early.find? (·.late first.now) with
  | none =>
    refine ⟨early, g, later, hsplit, decide_eq_true hlate, fun x hx => ⟨huser x hx, ?_⟩⟩
    exact Bool.eq_false_iff.2 (List.find?_eq_none.1 hfind x hx)
  | some x =>
    obtain ⟨hx, before, between, rfl, hbefore⟩ := List.find?_eq_some_iff_append.1 hfind
    refine ⟨before, x, between ++ g :: later, ?_, hx, fun y hy => ⟨?_, ?_⟩⟩
    · rw [hsplit, List.append_assoc, List.cons_append]
    · exact huser y (List.mem_append_left _ hy)
    · exact Bool.not_eq_true' _ ▸ hbefore y hy

section Hold

variable {scandoublerDisable ypbpr : Bool} {calls : List Call} {past : List Glance}
  {first : Glance} {more rest : List Glance}
  (h : IsHold (glances (({ scandoublerDisable, ypbpr } : Buttons).run calls)) past first more rest)
include h

/-- A `LongPress` toggles the scandoubler in the first update that comes late, and in no other. -/
theorem IsHold.countP_of_longPress (hlong : LongPress first more) :
    (first :: more).countP (·.togglesScandoubler) = 1 := by
  obtain ⟨early, g, later, hsplit, hlate, hearly⟩ := hlong.first_late
  have hbefore : early.countP (·.togglesScandoubler) = 0 := by
    refine List.countP_eq_zero.2 fun x hx htoggles => ?_
    obtain ⟨early₁, early₂, rfl⟩ := List.append_of_mem hx
    rw [List.append_assoc, List.cons_append] at hsplit
    have hx := ((h.togglesScandoubler_iff hsplit).1 htoggles).1
    rw [(hearly x (by simp)).2] at hx
    cases hx
  have hafter : later.countP (·.togglesScandoubler) = 0 := by
    refine List.countP_eq_zero.2 fun x hx htoggles => ?_
    obtain ⟨later₁, later₂, rfl⟩ := List.append_of_mem hx
    rw [← List.cons_append, ← List.append_assoc] at hsplit
    have hg := (((h.togglesScandoubler_iff hsplit).1 htoggles).2 g (by simp)).2
    rw [hlate] at hg
    cases hg
  have htoggles : g.togglesScandoubler = true :=
    (h.togglesScandoubler_iff hsplit).2 ⟨hlate, hearly⟩
  rw [hsplit, List.countP_append, hbefore, List.countP_cons, hafter, if_pos htoggles]

theorem IsHold.countP_of_not_longPress (hshort : ¬ LongPress first more) :
    (first :: more).countP (·.togglesScandoubler) = 0 := by
  refine List.countP_eq_zero.2 fun g hg htoggles => hshort ?_
  obtain ⟨early, later, hsplit⟩ := List.append_of_mem hg
  obtain ⟨hlate, hearly⟩ := (h.togglesScandoubler_iff hsplit).1 htoggles
  exact ⟨early, g, later, hsplit, of_decide_eq_true hlate, fun x hx => (hearly x hx).1⟩

/-- Nothing has been toggled in a hold of `first` and `more` if nothing in it could toggle anything.
-/
theorem IsHold.quiet_iff :
    (∀ x ∈ first :: more, x.togglesYpbpr = false ∧ x.togglesScandoubler = false) ↔
      ∀ x ∈ first :: more, (x.user || x.late first.now) = false := by
  constructor
  · -- the first update with a cause would toggle something
    intro hquiet
    cases hfind : (first :: more).find? fun x => x.user || x.late first.now with
    | none => exact fun x hx => Bool.eq_false_iff.2 (List.find?_eq_none.1 hfind x hx)
    | some g =>
      obtain ⟨hcause, early, later, hsplit, hearly⟩ := List.find?_eq_some_iff_append.1 hfind
      have hbefore : ∀ x ∈ early, x.user = false ∧ x.late first.now = false := fun x hx => by
        simpa using hearly x hx
      obtain ⟨hypbpr, hscandoubler⟩ := hquiet g (by rw [hsplit]; simp)
      have huser : g.user = false := Bool.eq_false_iff.2 fun huser =>
        Bool.eq_false_iff.1 hypbpr ((h.togglesYpbpr_iff hsplit).2
          ⟨huser, fun x hx => (hbefore x (List.mem_of_getLast? hx)).1⟩)
      have hlate : g.late first.now = false := Bool.eq_false_iff.2 fun hlate =>
        Bool.eq_false_iff.1 hscandoubler ((h.togglesScandoubler_iff hsplit).2 ⟨hlate, hbefore⟩)
      rw [huser, hlate] at hcause
      cases hcause
  · intro hnone x hx
    obtain ⟨huser, hlate⟩ := Bool.or_eq_false_iff.1 (hnone x hx)
    obtain ⟨early, later, hsplit⟩ := List.append_of_mem hx
    refine ⟨Bool.eq_false_iff.2 fun htoggles => ?_, Bool.eq_false_iff.2 fun htoggles => ?_⟩
    · exact Bool.eq_false_iff.1 huser ((h.togglesYpbpr_iff hsplit).1 htoggles).1
    · exact Bool.eq_false_iff.1 hlate ((h.togglesScandoubler_iff hsplit).1 htoggles).1

/-- The update `g` that ends a hold is a click if the hold has toggled nothing. -/
theorem IsHold.menuClick_iff {g : Glance} (hg : g ∈ rest.head?) :
    g.answer.menuClick = true ↔
      ∀ x ∈ first :: more, x.togglesYpbpr = false ∧ x.togglesScandoubler = false := by
  have hheld := h.held_end hg
  have hused : g.before.menuUsed = (first :: more).any fun x => x.user || x.late first.now :=
    hheld.menuUsed
  rw [h.quiet_iff, g.menuClick_eq, h.ends g hg, hheld.menuDown, hused]
  simp

end Hold

/-- A click (`menuClick`) ends a hold. -/
theorem menuClick_ends {scandoublerDisable ypbpr : Bool} {calls : List Call}
    {past rest : List Glance} {g : Glance}
    (hsplit : glances (({ scandoublerDisable, ypbpr } : Buttons).run calls) = past ++ g :: rest)
    (hclick : g.answer.menuClick = true) :
    g.menu = false ∧ ∃ x ∈ past.getLast?, x.menu = true := by
  rw [g.menuClick_eq, Bool.and_eq_true, Bool.not_eq_true', Bool.and_eq_true] at hclick
  obtain ⟨hup, hdown, -⟩ := hclick
  refine ⟨hup, by_contra fun hnone => ?_⟩
  have hbegins : ∀ x ∈ past.getLast?, x.menu = false := fun x hx =>
    Bool.eq_false_iff.2 fun hmenu => hnone ⟨x, hx, hmenu⟩
  have hfree : holdSoFar (past ++ []) = [] := holdSoFar_append hbegins fun x hx => nomatch hx
  rw [List.append_nil] at hfree
  have hheld := held_before hsplit
  rw [hfree] at hheld
  rw [hheld.menuDown] at hdown
  cases hdown

end IoController.Panel
