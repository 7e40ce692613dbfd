import IoController.Board.Peripherals
import IoController.Controller.Poll
import IoController.Proofs.Program.Abides
import IoController.Proofs.Keyboard.LedOwners

/-!
# Board — LedFrames

The frames by which the keyboard learns what its LEDs are to show.

* `Controller.act`: the controller forwards the changes that the firmware or the core comes to.
  `Controller.pollLeds_eq`: that is what it does with the status byte that it asks for.
* `Board.Shows`: the frames that are written to the line to the USB host while that is carried out.
* `Board.leds_show_owners`: the last frame has the LEDs show what their owners say.
-/

namespace IoController

open Keyboard (Leds Lock Locks)

namespace Controller

/-- The changes that the firmware asks for (`set`) or that a status byte comes to (`update`),
forwarded. -/
def act (c : Controller) : Leds.Act → Action Controller
  | .set locks on => c.setLeds locks on
  | .update byte => do
    showLeds (c.leds.update byte).1
    pure { c with leds := (c.leds.update byte).2 }

/-- Changes after one another, each forwarded by `act`. -/
def acts (c : Controller) : List Leds.Act → Action Controller
  | [] => pure c
  | a :: as => do
    let c ← c.act a
    c.acts as

/-- When it is time to, the controller asks the core for its status byte, and acts on it by `act`.
-/
theorem pollLeds_eq (c : Controller) (now : Instant) :
    c.pollLeds now =
      if (c.leds.due now).1 then do
        let byte ← Link.ledStatus
        { c with leds := (c.leds.due now).2 }.act (.update byte)
      else pure { c with leds := (c.leds.due now).2 } := rfl

end Controller

namespace Board

/-! ### The line to the USB host -/

/-- What is written to the line. -/
def line? : Exchange Board → Option Bytes
  | ⟨.sendLine bytes, _⟩ => some bytes
  | _ => none

/-- What the trace `w` writes to the line, in order. -/
def lines (w : Trace Board) : List Bytes := w.filterMap line?

theorem lines_append (w w' : Trace Board) : lines (w ++ w') = lines w ++ lines w' :=
  List.filterMap_append

/-- The frames for LEDs that change one after another, from `locks` on. -/
def frames (locks : Locks) : List (Locks × Bool) → List Bytes
  | [] => []
  | (change, on) :: changes =>
    (Bridge.Frame.ofLeds (locks.put change on)).bytes :: frames (locks.put change on) changes

/-- Changes in a row have the `frames` of the first ones, and then those of the others from what is
shown by then. -/
theorem frames_append (locks : Locks) (changes changes' : List (Locks × Bool)) :
    frames locks (changes ++ changes') =
      frames locks changes ++ frames (Leds.after locks changes) changes' := by
  induction changes generalizing locks with
  | nil => rfl
  | cons change changes ih =>
    rw [List.cons_append, frames, ih, frames, List.cons_append]
    rfl

/-- The last frame has what is shown in the end. -/
theorem getLast?_frames (locks : Locks) {changes : List (Locks × Bool)} (h : changes ≠ []) :
    (frames locks changes).getLast? =
      some (Bridge.Frame.ofLeds (Leds.after locks changes)).bytes := by
  induction changes generalizing locks with
  | nil => exact absurd rfl h
  | cons change changes ih =>
    cases changes with
    | nil => rfl
    | cons next changes =>
      rw [frames, frames, List.getLast?_cons_cons, ← frames]
      exact ih _ (List.cons_ne_nil next changes)

/-! ### What is carried out -/

/-- To perform a sequence of programs is to perform them in sequence, the board remembering in
between. -/
theorem Peripherals.perform_bind {α β : Type} (p : Peripherals) (action : Action α)
    (f : α → Action β) :
    p.perform (action >>= f) = p.perform action >>= fun (a, p') => p'.perform (f a) :=
  Program.simulate_bind (I := Device) (J := Board) action f p

/-- On every board `action` can be carried out, and whenever it is, it writes the `frames` for these
`changes`, which the board remembers, and ends in a value that satisfies `Q`. -/
structure Shows {α : Type} (action : Action α) (changes : List (Locks × Bool)) (Q : α → Prop) :
    Prop where
  runs (p : Peripherals) : ∃ w a p', (p.perform action).Run w (a, p')
  writes {p p' : Peripherals} {w : Trace Board} {a : α} (h : (p.perform action).Run w (a, p')) :
    lines w = frames p.leds changes ∧ p'.leds = Leds.after p.leds changes ∧ Q a

namespace Shows

variable {α β : Type} {action : Action α} {changes changes' : List (Locks × Bool)}
  {Q : α → Prop} {R : β → Prop}

theorem done {a : α} (h : Q a) : Shows (.done a) [] Q where
  runs p := ⟨[], a, p, .done (a, p)⟩
  writes := by
    rintro p p' w a (_ | _)
    exact ⟨rfl, rfl, h⟩

theorem bind {f : α → Action β} (h : Shows action changes Q)
    (hf : ∀ a, Q a → Shows (f a) changes' R) : Shows (action >>= f) (changes ++ changes') R where
  runs p := by
    obtain ⟨w₁, a, p₁, hfirst⟩ := h.runs p
    obtain ⟨w₂, b, p₂, hrest⟩ := (hf a (h.writes hfirst).2.2).runs p₁
    refine ⟨w₁ ++ w₂, b, p₂, ?_⟩
    rw [Peripherals.perform_bind]
    exact Program.run_bind_iff.2 ⟨w₁, w₂, (a, p₁), rfl, hfirst, hrest⟩
  writes := by
    intro p p' w b hrun
    rw [Peripherals.perform_bind, Program.run_bind_iff] at hrun
    obtain ⟨w₁, w₂, ⟨a, p₁⟩, rfl, hfirst, hrest⟩ := hrun
    obtain ⟨hlines, hleds, ha⟩ := h.writes hfirst
    obtain ⟨hlines', hleds', hb⟩ := (hf a ha).writes hrest
    rw [hleds] at hlines' hleds'
    rw [lines_append, hlines, hlines', frames_append, hleds', Leds.after_append]
    exact ⟨rfl, rfl, hb⟩

/-- The `locks` that are set go out in a frame, whether or not the line takes it. -/
theorem setLeds (locks : Locks) (on : Bool) :
    Shows (Host.request (.setLeds locks on)) [(locks, on)] fun _ => True where
  runs p := ⟨_, (), { p with leds := p.leds.put locks on }, .ask true (.done _)⟩
  writes := by
    rintro p p' w a (_ | ⟨sent, _ | _⟩)
    exact ⟨rfl, rfl, trivial⟩

/-- The LEDs that a status byte `changes` go out one by one. -/
theorem showLeds (changes : List (Lock × Bool)) :
    Shows (Controller.showLeds changes) (changes.map fun (k, on) => (.single k, on))
      fun _ => True := by
  induction changes with
  | nil => exact done trivial
  | cons change changes ih => exact (setLeds (.single change.1) change.2).bind fun _ _ => ih

end Shows

/-! ### The controller -/

/-- The `changes` that are worth a frame. -/
def forwarded (changes : List (Locks × Bool)) : List (Locks × Bool) :=
  changes.filter fun (change, _) => !change.isEmpty

theorem forwarded_append (changes changes' : List (Locks × Bool)) :
    forwarded (changes ++ changes') = forwarded changes ++ forwarded changes' :=
  List.filter_append ..

/-- Changes of no LED change nothing, so that those that are `forwarded` come to the same. -/
theorem after_forwarded (locks : Locks) (changes : List (Locks × Bool)) :
    Leds.after locks (forwarded changes) = Leds.after locks changes := by
  induction changes generalizing locks with
  | nil => rfl
  | cons change changes ih =>
    obtain ⟨change, on⟩ := change
    cases hempty : change.isEmpty with
    | true =>
      have hsame : locks.put change on = locks := by
        have hnone : change = ∅ := congrArg Flags.mk (beq_iff_eq.1 hempty)
        rw [hnone]
        cases on
        · exact congrArg Flags.mk UInt8.and_neg_one
        · exact congrArg Flags.mk UInt8.or_zero
      rw [forwarded, List.filter_cons_of_neg (by simp [hempty]), ← forwarded, ih]
      exact congrArg (Leds.after · changes) hsame.symm
    | false =>
      rw [forwarded, List.filter_cons_of_pos (by simp [hempty]), ← forwarded]
      exact ih (locks.put change on)

/-- The firmware's `locks` go out in a frame of their own, unless the core is in charge of them all.
-/
theorem shows_setLeds (c : Controller) (locks : Locks) (on : Bool) :
    Shows (c.setLeds locks on) (forwarded [((c.leds.set locks on).1, on)])
      fun c' => c'.leds = (c.leds.set locks on).2 := by
  cases hempty : (c.leds.set locks on).1.isEmpty with
  | true =>
    have hnone : forwarded [((c.leds.set locks on).1, on)] = [] :=
      List.filter_cons_of_neg (by simp [hempty])
    have hset : c.setLeds locks on = .done { c with leds := (c.leds.set locks on).2 } := by
      simp [Controller.setLeds, hempty]
    rw [hnone, hset]
    exact .done rfl
  | false =>
    have hsome : forwarded [((c.leds.set locks on).1, on)] = [((c.leds.set locks on).1, on)] :=
      List.filter_cons_of_pos (by simp [hempty])
    have hset : c.setLeds locks on = Host.request (.setLeds (c.leds.set locks on).1 on) >>=
        fun _ => .done { c with leds := (c.leds.set locks on).2 } := by
      simp [Controller.setLeds, hempty]
    rw [hsome, hset]
    exact (Shows.setLeds _ on).bind fun _ _ => .done rfl

/-- What a status byte `changes`, LED by LED, is all forwarded. -/
theorem forwarded_singles (changes : List (Lock × Bool)) :
    forwarded (changes.map fun (k, on) => (.single k, on)) =
      changes.map fun (k, on) => (.single k, on) := by
  refine List.filter_eq_self.2 fun change hchange => ?_
  obtain ⟨⟨k, on⟩, -, rfl⟩ := List.mem_map.1 hchange
  cases k <;> rfl

/-- To `act` shows the changes that the LEDs' owners make of it, as far as they are `forwarded`. -/
theorem shows_act (c : Controller) (a : Leds.Act) :
    Shows (c.act a) (forwarded (a.apply c.leds).1) fun c' => c'.leds = (a.apply c.leds).2 := by
  cases a with
  | set locks on => exact shows_setLeds c locks on
  | update byte =>
    rw [Leds.Act.apply, forwarded_singles, ← List.append_nil (List.map _ _)]
    exact (Shows.showLeds (c.leds.update byte).1).bind fun _ _ => .done rfl

/-- Any number of acts `as` show the changes that they make one after another. -/
theorem shows_acts (c : Controller) (as : List Leds.Act) :
    Shows (c.acts as) (forwarded (c.leds.run as).1) fun c' => c'.leds = (c.leds.run as).2 := by
  induction as generalizing c with
  | nil => exact .done rfl
  | cons a as ih =>
    rw [Leds.run, forwarded_append]
    refine (shows_act c a).bind fun c' hc' => ?_
    rw [← hc']
    exact ih c'

/-! ### The theorem -/

/-- **The keyboard shows what the owners of its LEDs say.**  After every history `as` of what the
firmware asks for (`set`) and of status bytes of the core (`update`), valid or not, a keyboard whose
LEDs were off and that has been told of every change shows of each LED what it is `owed`.  Where the
controller forwards the changes by `acts`, the last frame to the USB host has just that, if there
was anything to forward, and otherwise there is none; and `pollLeds` forwards a status byte by
`act`. -/
theorem leds_show_owners (as : List Leds.Act) :
    (∀ k, (Leds.keyboard as).has k = Leds.owed as k) ∧
    (∀ (c : Controller) (p : Peripherals), c.leds = {} → p.leds = ∅ →
      (∃ w c' p', (p.perform (c.acts as)).Run w (c', p')) ∧
      ∀ w c' p', (p.perform (c.acts as)).Run w (c', p') →
        (lines w).getLast? =
          if forwarded (Leds.run {} as).1 = [] then none
          else some (Bridge.Frame.ofLeds (Leds.keyboard as)).bytes) ∧
    ∀ (c : Controller) (now : Instant), c.pollLeds now =
      if (c.leds.due now).1 then do
        let byte ← Link.ledStatus
        { c with leds := (c.leds.due now).2 }.act (.update byte)
      else pure { c with leds := (c.leds.due now).2 } := by
  refine ⟨Leds.keyboard_has as, fun c p hc hp => ?_, Controller.pollLeds_eq⟩
  have hshows := shows_acts c as
  refine ⟨hshows.runs p, fun w c' p' hrun => ?_⟩
  rw [(hshows.writes hrun).1, hc, hp]
  split
  · next hnone => rw [hnone]; rfl
  · next hsome => rw [getLast?_frames ∅ hsome, after_forwarded, Leds.keyboard]

/-- The core takes charge of caps lock and lights it, the firmware lets caps lock go and lights num
lock, and the core lets go of everything. -/
def takenOver : List Leds.Act :=
  [.update 0x43, .set (.single .caps) false, .set (.single .num) true, .update 0x40]

/-- Num lock alone is lit when the core has let go of caps lock, as `takenOver` has it. -/
theorem leds_show_owners_takenOver :
    let c := Controller.ofSettings {} ⟨0, false⟩
    (Leds.keyboard takenOver).has .caps = false ∧ (Leds.keyboard takenOver).has .num = true ∧
      ∃ w c' p', (Peripherals.perform {} (c.acts takenOver)).Run w (c', p') ∧
        (lines w).getLast? = some [0xa5, 0x81, 0x01, 0x01] := by
  intro c
  obtain ⟨hshown, hframes, -⟩ := leds_show_owners takenOver
  obtain ⟨⟨w, c', p', hrun⟩, hlast⟩ := hframes c {} rfl rfl
  refine ⟨(hshown .caps).trans (by decide), (hshown .num).trans (by decide), w, c', p', hrun, ?_⟩
  exact (hlast w c' p' hrun).trans (by decide)

end Board

end IoController
