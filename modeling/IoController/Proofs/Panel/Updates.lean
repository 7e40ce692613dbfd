import IoController.Panel.Buttons
import IoController.Proofs.Bits

/-!
# Panel — Updates

What the panel's buttons live through: updates, and requests to tell the core anew.

* `Buttons.update_eq`: an update turns the buttons, and then tells the core if it has to be told.
* `Glance.togglesScandoubler_eq`, `Glance.togglesYpbpr_eq`, `Glance.menuClick_eq`,
  `Glance.send_eq`: what an update comes to, as it is seen from outside.
* `Glance.map_has`: what the core is to know, line by line.
* `Buttons.run`, `Buttons.run_before`: a life, and what every call of it keeps.
-/

namespace IoController.Panel

instance : Placed Line where
  place
    | .button1 => 0
    | .button2 => 1
    | .switch1 => 2
    | .switch2 => 3
    | .scandoublerDisable => 4
    | .ypbpr => 5
  place_lt k := by cases k <;> decide
  mask_eq k := by cases k <;> rfl
  place_injective j k h := by cases j <;> cases k <;> first | rfl | cases h

/-- A switch that is turned or not has changed just if it was turned. -/
theorem xor_bne (a b : Bool) : ((a ^^ b) != a) = b := by
  cases a <;> cases b <;> rfl

namespace Buttons

/-! ### Steps of an update -/

/-- The menu button has been down for `longPress`, and nothing has been toggled meanwhile. -/
def long (b : Buttons) (now : Instant) : Bool :=
  !b.menuUsed && decide (b.menuDown.getD now + longPress ≤ now)

/-- The user button goes down, as `user` has it. -/
def userEdge (b : Buttons) (user : Bool) : Bool := user && !b.ypbprLatch

/-- A long press toggles the scandoubler if it is `long`. -/
theorem longPressed_eq (b : Buttons) (now : Instant) :
    b.longPressed now = (b.long now,
      { b with
        scandoublerDisable := b.scandoublerDisable ^^ b.long now
        menuDown := some (b.menuDown.getD now)
        menuUsed := b.menuUsed || b.long now }) := by
  have hlong : (!b.menuUsed && decide (b.menuDown.getD now + longPress ≤ now)) = b.long now := rfl
  unfold longPressed
  dsimp only
  rw [hlong]
  cases b.long now <;> simp

/-- The user button toggles YPbPr on its `userEdge`. -/
theorem userPressed_eq (b : Buttons) (user : Bool) :
    b.userPressed user = (b.userEdge user,
      { b with
        ypbpr := b.ypbpr ^^ b.userEdge user
        menuUsed := b.menuUsed || b.userEdge user
        ypbprLatch := user }) := by
  unfold userPressed userEdge
  cases user <;> cases b.ypbprLatch <;> simp

/-- The core is sent a `map` that is forced on it, or that it does not know. -/
theorem announce_eq (b : Buttons) (map : Map) (force : Bool) :
    b.announce map force =
      (if force || b.sent != some map then some map else none, { b with sent := some map }) := by
  unfold announce
  by_cases hsend : (force || b.sent != some map) = true
  · rw [if_pos hsend, if_pos hsend]
  · obtain ⟨-, hsent⟩ : ¬ force = true ∧ b.sent = some map := by simpa using hsend
    rw [if_neg hsend, if_neg hsend, ← hsent]

/-- What an update makes of the buttons `b` before the core is told. -/
def turned (b : Buttons) (panel : State) (now : Instant) : Buttons :=
  if panel.has .menu then
    { b with
      scandoublerDisable := b.scandoublerDisable ^^ b.long now
      ypbpr := b.ypbpr ^^ b.userEdge (panel.has .user)
      menuDown := some (b.menuDown.getD now)
      menuUsed := b.menuUsed || b.long now || b.userEdge (panel.has .user)
      ypbprLatch := panel.has .user }
  else { b with menuDown := none, menuUsed := false, ypbprLatch := false }

/-- Whether an update of the `panel` toggles an option. -/
def toggles (b : Buttons) (panel : State) (now : Instant) : Bool :=
  panel.has .menu && (b.long now || b.userEdge (panel.has .user))

/-- An update turns the buttons (`turned`), and then tells the core if it has to be told. -/
theorem update_eq (b : Buttons) (panel : State) (keyboardReset : Bool) (now : Instant) :
    b.update panel keyboardReset now =
      let map := (b.turned panel now).map panel keyboardReset
      (⟨if b.toggles panel now || b.sent != some map then some map else none,
          !panel.has .menu && (b.menuDown.isSome && !b.menuUsed)⟩,
        { b.turned panel now with sent := some map }) := by
  unfold update turned toggles
  cases panel.has .menu with
  | true =>
    rw [if_pos rfl, if_pos rfl, longPressed_eq]
    dsimp only
    rw [userPressed_eq]
    dsimp only
    rw [announce_eq]
    rfl
  | false =>
    rw [if_neg Bool.false_ne_true, if_neg Bool.false_ne_true, released]
    dsimp only
    rw [announce_eq]
    rfl

end Buttons

/-! ### One update -/

/-- An update that is made, and the buttons `before` it. -/
structure Glance where
  before : Buttons
  panel : State
  keyboardReset : Bool
  now : Instant

namespace Glance

/-- What the update `g` returns. -/
def answer (g : Glance) : Update := (g.before.update g.panel g.keyboardReset g.now).1

/-- The buttons after the update `g`. -/
def after (g : Glance) : Buttons := (g.before.update g.panel g.keyboardReset g.now).2

/-- Whether the menu button is down in the update `g`. -/
def menu (g : Glance) : Bool := g.panel.has .menu

/-- Whether the user button is down in the update `g`. -/
def user (g : Glance) : Bool := g.panel.has .user

/-- What the core is to know after the update `g`. -/
def map (g : Glance) : Map := g.after.map g.panel g.keyboardReset

/-- Whether the update `g` toggles the scandoubler. -/
def togglesScandoubler (g : Glance) : Bool :=
  g.after.scandoublerDisable != g.before.scandoublerDisable

/-- Whether the update `g` toggles YPbPr. -/
def togglesYpbpr (g : Glance) : Bool := g.after.ypbpr != g.before.ypbpr

/-- Whether a line to the core is on after the update `g`: the buttons and switches are as they are
pressed or set, but the user button does not count while the menu button is down, and the keyboard's
reset combination counts as the second button. -/
def lineOn (g : Glance) : Line → Bool
  | .button1 => g.menu
  | .button2 => !g.menu && g.user || g.keyboardReset
  | .switch1 => g.panel.has .switch1
  | .switch2 => g.panel.has .switch2
  | .scandoublerDisable => g.after.scandoublerDisable
  | .ypbpr => g.after.ypbpr

variable (g : Glance)

/-- The map has a `line` just if that is on. -/
theorem map_has (line : Line) : g.map.has line = g.lineOn line := by
  rw [map, Buttons.map, Flags.has_ofList]
  simp only [List.contains_eq_mem, List.mem_append, Bool.decide_or]
  cases line <;> simp only [lineOn, menu, user] <;>
    cases g.panel.has .menu <;> cases g.panel.has .user <;> cases g.keyboardReset <;> simp

theorem after_eq : g.after = { g.before.turned g.panel g.now with sent := some g.map } := by
  rw [map, after, Buttons.update_eq]
  rfl

/-- A map is sent if an option is toggled or the core was not sent it last. -/
theorem send_eq :
    g.answer.send =
      if g.before.toggles g.panel g.now || g.before.sent != some g.map then some g.map
      else none := by
  have hmap : g.map = (g.before.turned g.panel g.now).map g.panel g.keyboardReset := by
    rw [map, after_eq]
    rfl
  rw [hmap, answer, Buttons.update_eq]

/-- A click is a release of the menu button after a hold that was not used (`menuUsed`). -/
theorem menuClick_eq :
    g.answer.menuClick = (!g.menu && (g.before.menuDown.isSome && !g.before.menuUsed)) := by
  rw [answer, Buttons.update_eq]
  rfl

theorem togglesScandoubler_eq : g.togglesScandoubler = (g.menu && g.before.long g.now) := by
  have hafter : g.after.scandoublerDisable =
      (g.before.scandoublerDisable ^^ (g.menu && g.before.long g.now)) := by
    rw [after_eq, Buttons.turned, menu]
    cases g.panel.has .menu <;> simp
  rw [togglesScandoubler, hafter, xor_bne]

theorem togglesYpbpr_eq : g.togglesYpbpr = (g.menu && g.before.userEdge g.user) := by
  have hafter : g.after.ypbpr = (g.before.ypbpr ^^ (g.menu && g.before.userEdge g.user)) := by
    rw [after_eq, Buttons.turned, menu, user]
    cases g.panel.has .menu <;> simp
  rw [togglesYpbpr, hafter, xor_bne]

theorem toggles_eq :
    g.before.toggles g.panel g.now = (g.togglesScandoubler || g.togglesYpbpr) := by
  rw [togglesScandoubler_eq, togglesYpbpr_eq, ← Bool.and_or_distrib_left]
  rfl

end Glance

/-! ### A life -/

/-- Something that is done with the buttons. -/
inductive Call where
  | resend
  | update (panel : State) (keyboardReset : Bool) (now : Instant)

/-- A `call` that is made, and the buttons `before` it. -/
structure Turn where
  before : Buttons
  call : Call

namespace Turn

/-- The buttons after the call of `t`. -/
def after (t : Turn) : Buttons :=
  match t.call with
  | .resend => t.before.resend
  | .update panel keyboardReset now => (t.before.update panel keyboardReset now).2

/-- The call of `t`, if it is an update. -/
def glance? (t : Turn) : Option Glance :=
  match t.call with
  | .resend => none
  | .update panel keyboardReset now => some ⟨t.before, panel, keyboardReset, now⟩

/-- The map that the core is sent by the turn `t`. -/
def sent? (t : Turn) : Option Map := t.glance?.bind (·.answer.send)

theorem after_of_glance? {t : Turn} {g : Glance} (h : t.glance? = some g) :
    g.before = t.before ∧ t.after = g.after := by
  obtain ⟨before, call⟩ := t
  cases call with
  | resend => cases h
  | update panel keyboardReset now =>
    cases h
    exact ⟨rfl, rfl⟩

theorem after_of_resend {t : Turn} (h : t.glance? = none) : t.after = t.before.resend := by
  obtain ⟨before, call⟩ := t
  cases call with
  | resend => rfl
  | update panel keyboardReset now => cases h

end Turn

/-- The updates of the `turns`. -/
def glances (turns : List Turn) : List Glance := turns.filterMap (·.glance?)

namespace Buttons

/-- Makes `calls` one after another. -/
def run (b : Buttons) : List Call → List Turn
  | [] => []
  | call :: calls => ⟨b, call⟩ :: (Turn.after ⟨b, call⟩).run calls

/-- What holds at first, and is kept by every turn `t`, holds before every turn. -/
theorem run_before {P : List Turn → Buttons → Prop} {b : Buttons} (h₀ : P [] b)
    (hstep : ∀ past t, P past t.before → P (past ++ [t]) t.after) {calls : List Call}
    {past rest : List Turn} {t : Turn} (hsplit : b.run calls = past ++ t :: rest) :
    P past t.before := by
  -- the turns before those of the run are generalized
  have hfrom : ∀ calls ever b past, P ever b → b.run calls = past ++ t :: rest →
      P (ever ++ past) t.before := by
    intro calls
    induction calls with
    | nil =>
      intro ever b past _ hsplit
      cases past <;> cases hsplit
    | cons call calls ih =>
      intro ever b past h hsplit
      cases past with
      | nil =>
        obtain ⟨rfl, -⟩ := List.cons.inj hsplit
        rwa [List.append_nil]
      | cons turn past =>
        obtain ⟨rfl, hrest⟩ := List.cons.inj hsplit
        have hlater := ih _ _ past (hstep ever ⟨b, call⟩ h) hrest
        rwa [List.append_assoc] at hlater
  exact hfrom calls [] b past h₀ hsplit

end Buttons

/-- An update is one of the `turns`. -/
theorem turn_of_glances {turns : List Turn} {past rest : List Glance} {g : Glance}
    (h : glances turns = past ++ g :: rest) :
    ∃ before t after, turns = before ++ t :: after ∧ glances before = past ∧
      t.glance? = some g := by
  obtain ⟨before, between, rfl, rfl, hrest⟩ := List.filterMap_eq_append_iff.1 h
  obtain ⟨resends, t, after, rfl, hnone, hglance, -⟩ := List.filterMap_eq_cons_iff.1 hrest
  refine ⟨before ++ resends, t, after, (List.append_assoc _ _ _).symm, ?_, hglance⟩
  rw [glances, List.filterMap_append, List.filterMap_eq_nil_iff.2 hnone, List.append_nil]

end IoController.Panel
