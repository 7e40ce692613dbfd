import IoController.Proofs.Panel.Holds

/-!
# Panel — Gestures

What the core is told of the panel over a whole life, and what the user does with the menu button.

* `Tells`: what the buttons keep of what the core was told.  `tells_run`: they always keep that.
* `gestures`: what each hold toggles, whether it ends in a click, and what the core is told.
-/

namespace IoController.Panel

/-! ### What the core is told -/

/-- The last map that the `turns` sent. -/
def told (turns : List Turn) : Option Map := (turns.filterMap (·.sent?)).getLast?

/-- Since the last map was sent, it has been asked in `turns` that the core be told anew. -/
def ResendDue (turns : List Turn) : Prop :=
  ∃ t ∈ turns.rtakeWhile (·.sent?.isNone), t.call = .resend

/-- What the buttons `b` keep of what the core was told. -/
structure Tells (turns : List Turn) (b : Buttons) : Prop where
  due : ResendDue turns → b.sent = none
  known : ¬ ResendDue turns → b.sent = told turns

namespace Tells

variable {past : List Turn} {t : Turn} {b : Buttons}

theorem initial (scandoublerDisable ypbpr : Bool) : Tells [] { scandoublerDisable, ypbpr } where
  due hdue := by
    obtain ⟨t, ht, -⟩ := hdue
    cases ht
  known _ := rfl

/-- After a `resend` they keep nothing. -/
theorem resent (hcall : t.call = .resend) : Tells (past ++ [t]) t.after := by
  have hafter : t.after = t.before.resend := by rw [Turn.after, hcall]
  have hnone : t.sent? = none := by rw [Turn.sent?, Turn.glance?, hcall, Option.bind_none]
  have hdue : ResendDue (past ++ [t]) := by
    refine ⟨t, ?_, hcall⟩
    rw [List.rtakeWhile_concat, hnone]
    simp
  rw [hafter]
  exact ⟨fun _ => rfl, fun hnot => absurd hdue hnot⟩

/-- After an update `g` they keep the map that the core is to know. -/
theorem updated (h : Tells past t.before) {g : Glance} (hglance : t.glance? = some g) :
    Tells (past ++ [t]) t.after := by
  obtain ⟨hbefore, hafter⟩ := Turn.after_of_glance? hglance
  have hsent : t.after.sent = some g.map := by rw [hafter, g.after_eq]
  have hsend : t.sent? = g.answer.send := by rw [Turn.sent?, hglance, Option.bind_some]
  rw [g.send_eq] at hsend
  by_cases hmust : (g.before.toggles g.panel g.now || g.before.sent != some g.map) = true
  · rw [if_pos hmust] at hsend
    have htold : told (past ++ [t]) = some g.map := by simp [told, hsend]
    have hnot : ¬ ResendDue (past ++ [t]) := by simp [ResendDue, hsend]
    exact ⟨fun hdue => absurd hdue hnot, fun _ => hsent.trans htold.symm⟩
  · rw [if_neg hmust] at hsend
    have hknown : t.before.sent = some g.map := by
      rw [Bool.or_eq_true, not_or, bne_iff_ne, not_not, hbefore] at hmust
      exact hmust.2
    have hupdate : t.call ≠ .resend := by
      intro hcall
      rw [Turn.glance?, hcall] at hglance
      cases hglance
    have htold : told (past ++ [t]) = told past := by simp [told, hsend]
    have hsame : ResendDue (past ++ [t]) ↔ ResendDue past := by
      simp [ResendDue, hsend, or_and_right, exists_or, hupdate]
    refine ⟨fun hdue => ?_, fun hnot => ?_⟩
    · rw [h.due (hsame.1 hdue)] at hknown
      cases hknown
    · rw [htold, hsent, ← hknown]
      exact h.known fun hdue => hnot (hsame.2 hdue)

end Tells

section Run

variable {scandoublerDisable ypbpr : Bool} {calls : List Call} {past rest : List Turn} {t : Turn}
  (hsplit : ({ scandoublerDisable, ypbpr } : Buttons).run calls = past ++ t :: rest)
include hsplit

/-- The buttons always keep what the core was `told`. -/
theorem tells_run : Tells past t.before := by
  refine Buttons.run_before (.initial scandoublerDisable ypbpr) (fun past t h => ?_) hsplit
  cases hglance : t.glance? with
  | none =>
    refine .resent ?_
    cases hcall : t.call with
    | resend => rfl
    | update panel keyboardReset now =>
      rw [Turn.glance?, hcall] at hglance
      cases hglance
  | some g => exact h.updated hglance

variable {g : Glance} (hglance : t.glance? = some g)
include hglance

/-- After an update `g` the core knows what it is to know. -/
theorem told_after : told (past ++ [t]) = some g.map := by
  obtain ⟨-, hafter⟩ := Turn.after_of_glance? hglance
  have hsent : t.after.sent = some g.map := by rw [hafter, g.after_eq]
  have htells := (tells_run hsplit).updated hglance
  have hnot : ¬ ResendDue (past ++ [t]) := fun hdue => by
    rw [htells.due hdue] at hsent
    cases hsent
  rw [← htells.known hnot, hsent]

/-- An update tells the core what it does not know, what was toggled, and what is asked for. -/
theorem send_isSome_iff :
    g.answer.send.isSome = true ↔
      told past ≠ some g.map ∨ g.togglesScandoubler = true ∨ g.togglesYpbpr = true ∨
        ResendDue past := by
  obtain ⟨hbefore, -⟩ := Turn.after_of_glance? hglance
  have htells := tells_run hsplit
  rw [← hbefore] at htells
  have hsent : g.before.sent ≠ some g.map ↔ told past ≠ some g.map ∨ ResendDue past := by
    by_cases hdue : ResendDue past
    · simp [htells.due hdue, hdue]
    · simp [htells.known hdue, hdue]
  have hsend : g.answer.send.isSome = true ↔
      g.before.toggles g.panel g.now = true ∨ g.before.sent ≠ some g.map := by
    rw [g.send_eq, ← bne_iff_ne, ← Bool.or_eq_true]
    split <;> simp_all
  rw [hsend, hsent, g.toggles_eq, Bool.or_eq_true]
  tauto

end Run

/-! ### The whole -/

/-- **Gestures.**  Take any life of the panel.  In each hold of the menu button (`IsHold`), YPbPr is
toggled by just those updates in which the user button goes down, which counts as up before the
hold.  The scandoubler is toggled once if an update comes as long after the first one as a long
press takes and the user button was not down before it (`LongPress`), and otherwise not at all.  The
update that ends the hold is a click (`menuClick`) just if the hold has toggled nothing.  Without
the menu button nothing is toggled, and nothing but the end of a hold is a click.  After an update
the last map that was sent (`told`) is that of the panel and the options as they are, line by line
(`lineOn`).  One is sent just if the last one was another or there was none, an option is toggled,
or it has been asked for since (`ResendDue`). -/
theorem gestures (scandoublerDisable ypbpr : Bool) (calls : List Call) :
    let turns := ({ scandoublerDisable, ypbpr } : Buttons).run calls
    (∀ past first more rest, IsHold (glances turns) past first more rest →
      (∀ early g later, first :: more = early ++ g :: later →
        (g.togglesYpbpr = true ↔ g.user = true ∧ ∀ x ∈ early.getLast?, x.user = false)) ∧
      (LongPress first more → (first :: more).countP (·.togglesScandoubler) = 1) ∧
      (¬ LongPress first more → (first :: more).countP (·.togglesScandoubler) = 0) ∧
      ∀ g ∈ rest.head?, (g.answer.menuClick = true ↔
        ∀ x ∈ first :: more, x.togglesYpbpr = false ∧ x.togglesScandoubler = false)) ∧
    (∀ g ∈ glances turns, g.menu = false →
      g.togglesYpbpr = false ∧ g.togglesScandoubler = false) ∧
    (∀ past g rest, glances turns = past ++ g :: rest → g.answer.menuClick = true →
      g.menu = false ∧ ∃ x ∈ past.getLast?, x.menu = true) ∧
    ∀ past t rest g, turns = past ++ t :: rest → t.glance? = some g →
      told (past ++ [t]) = some g.map ∧ (∀ line, g.map.has line = g.lineOn line) ∧
      (g.answer.send.isSome = true ↔
        told past ≠ some g.map ∨ g.togglesScandoubler = true ∨ g.togglesYpbpr = true ∨
          ResendDue past) := by
  intro turns
  refine ⟨fun past first more rest hhold => ⟨fun early g later hsplit => ?_, ?_, ?_, ?_⟩,
    fun g _ hup => ?_, fun past g rest hsplit hclick => ?_,
    fun past t rest g hsplit hglance => ⟨?_, g.map_has, ?_⟩⟩
  · exact hhold.togglesYpbpr_iff hsplit
  · exact hhold.countP_of_longPress
  · exact hhold.countP_of_not_longPress
  · exact fun g hg => hhold.menuClick_iff hg
  · rw [g.togglesYpbpr_eq, g.togglesScandoubler_eq, hup]
    exact ⟨Bool.false_and _, Bool.false_and _⟩
  · exact menuClick_ends hsplit hclick
  · exact told_after hsplit hglance
  · exact send_isSome_iff hsplit hglance

/-- The menu button is held for a second, and then the user button goes down too. -/
def heldLong : List Call :=
  [.update ∅ false 0, .update ⟨0x04⟩ false 100, .resend, .update ⟨0x04⟩ false 1000100,
    .update ⟨0x0c⟩ false 1000200, .update ∅ false 1000300]

/-- Both options are toggled, and the end of the hold is no click. -/
theorem gestures_heldLong :
    ∃ up first long both released,
      glances (({ scandoublerDisable := false, ypbpr := false } : Buttons).run heldLong) =
        [up, first, long, both, released] ∧
      IsHold [up, first, long, both, released] [up] first [long, both] [released] ∧
      LongPress first [long, both] ∧
      [first, long, both].countP (·.togglesScandoubler) = 1 ∧ both.togglesYpbpr = true ∧
      ¬ released.answer.menuClick = true := by
  obtain ⟨up, first, long, both, released, hgs, hup, hfirst, hlong, hboth, hreleased, hnow, hlater,
      hfree, hfree', huser⟩ :
      ∃ up first long both released,
        glances (({ scandoublerDisable := false, ypbpr := false } : Buttons).run heldLong) =
          [up, first, long, both, released] ∧
        up.menu = false ∧ first.menu = true ∧ long.menu = true ∧ both.menu = true ∧
        released.menu = false ∧ first.now = 100 ∧ long.now = 1000100 ∧
        first.user = false ∧ long.user = false ∧ both.user = true :=
    ⟨_, _, _, _, _, rfl, rfl, rfl, rfl, rfl, rfl, rfl, rfl, rfl, rfl, rfl⟩
  have hhold : IsHold [up, first, long, both, released] [up] first [long, both] [released] :=
    ⟨rfl, by simp [hfirst, hlong, hboth], by simp [hup], by simp [hreleased]⟩
  have hpress : LongPress first [long, both] :=
    ⟨[first], long, [both], rfl, by rw [hnow, hlater]; decide, by simp [hfree]⟩
  obtain ⟨hholds, -⟩ := gestures false false heldLong
  obtain ⟨hypbpr, honce, -, hclick⟩ := hholds _ _ _ _ (hgs ▸ hhold)
  have htoggles : both.togglesYpbpr = true :=
    (hypbpr [first, long] both [] rfl).2 ⟨huser, by simp [hfree']⟩
  refine ⟨up, first, long, both, released, hgs, hhold, hpress, honce hpress, htoggles, ?_⟩
  rw [hclick released rfl]
  intro hquiet
  rw [(hquiet both (by simp)).1] at htoggles
  cases htoggles

end IoController.Panel
