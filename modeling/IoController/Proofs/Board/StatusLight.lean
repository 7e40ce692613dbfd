import IoController.Board.StatusLight
import IoController.Proofs.Program.Abides

/-!
# Board — StatusLight

What the status light shows, over everything that is done with it.

* `levels`, `readings`: what a pin was set to, and what the clock showed.
* `StatusLight.Drives`: the light knows what its pin was set to last, and is off while a core runs
  and on while the SD card is used, if it was before.
* `StatusLight.abides_display`, `StatusLight.abides_work`: so it is after each of the two calls, and
  they set no other pin.
* `StatusLight.Works`: the three things that `StatusLight.work` can do.
* `StatusLight.Works.toggles_iff`, `StatusLight.Works.pause_eq`: a light that blinks is changed as
  soon as the blink interval is over, and is waited for until just then.
* `StatusLight.Looks.spaced`: between two changes that it makes the blink interval passes.
-/

namespace IoController.Board

/-- To ask `r` is to abide by `P` if `r` does, and to end as `Q` says if it says so of every reply.
-/
theorem abides_ask {P : Trace Board → Request → Prop} {r : Request}
    {Q : Trace Board → Reply r → Prop} (h : P [] r) (hQ : ∀ x, Q [⟨r, x⟩] x) :
    Program.Abides P Q (ask r) := Program.Abides.request (I := Board) h hQ

/-- To look at the clock is to ask for `now`. -/
theorem abides_clock {P : Trace Board → Request → Prop} {Q : Trace Board → Instant → Prop}
    (h : P [] .now) (hQ : ∀ now : Instant, Q [⟨.now, now⟩] now) : Program.Abides P Q clock :=
  abides_ask h hQ

/-! ### Pins and the clock -/

/-- A request `r` that has nothing to do with what is looked for in a trace does not count. -/
theorem filterMap_request_cons {γ : Type} {look : Request → Option γ} {r : Request} (x : Reply r)
    (h : look r = none) (w : Trace Board) :
    List.filterMap (fun y : Exchange Board => look y.request) (⟨r, x⟩ :: w) =
      w.filterMap fun y => look y.request := List.filterMap_cons_none h

/-- If no request has anything to do with what `look` looks for, nothing is found. -/
theorem filterMap_request_eq_nil {γ : Type} {look : Request → Option γ} {P : Request → Prop}
    {w : Trace Board} (hw : ∀ x ∈ w, P x.request) (h : ∀ r, P r → look r = none) :
    w.filterMap (fun y => look y.request) = [] :=
  List.filterMap_eq_nil_iff.2 fun x hx => h _ (hw x hx)

/-- The level that a request sets `pin` to. -/
def level? (pin : UInt8) : Request → Option Bool
  | .setPin p high => if p = pin then some high else none
  | _ => none

/-- The levels that `pin` is set to in `w`, in order. -/
def levels (pin : UInt8) (w : Trace Board) : List Bool := w.filterMap (level? pin ·.request)

theorem levels_append (pin : UInt8) (w w' : Trace Board) :
    levels pin (w ++ w') = levels pin w ++ levels pin w' := List.filterMap_append

@[simp] theorem levels_setPin (pin : UInt8) (high : Bool) (w : Trace Board) :
    levels pin (⟨.setPin pin high, ()⟩ :: w) = high :: levels pin w :=
  List.filterMap_cons_some (f := fun x : Exchange Board => level? pin x.request) (if_pos rfl)

/-- The time that the clock shows. -/
def reading? : Exchange Board → Option Instant
  | ⟨.now, now⟩ => some now
  | _ => none

/-- The times that the clock shows in `w`, in order. -/
def readings (w : Trace Board) : List Instant := w.filterMap reading?

theorem readings_append (w w' : Trace Board) : readings (w ++ w') = readings w ++ readings w' :=
  List.filterMap_append

/-- A clock that is looked at last of all shows the last time, `now`. -/
theorem getLast?_readings (w : Trace Board) (now : Instant) :
    (readings (w ++ [⟨.now, now⟩])).getLast? = some now := by
  rw [readings_append]
  exact List.getLast?_concat

namespace StatusLight

/-! ### Both calls -/

/-- The light is off while a core runs, and on while the SD card is used, as its `status` says. -/
structure Truthful (l : StatusLight) : Prop where
  ready : l.status = .ready → l.on = false
  disk : l.status = .disk → l.on = true

/-- What is asked of the board for a light on `pin`. -/
inductive Asks (pin : UInt8) : Request → Prop where
  | now : Asks pin .now
  | setPin (high : Bool) : Asks pin (.setPin pin high)

/-- Exchanges `w` after which the light knows the last level of its `pin`, and is still `Truthful`.
-/
structure Drives (l : StatusLight) (w : Trace Board) (l' : StatusLight) : Prop where
  pin : l'.pin = l.pin
  on : l'.on = (levels l.pin w).getLast?.getD l.on
  truthful : l.Truthful → l'.Truthful

variable {l l' l'' : StatusLight} {w w' : Trace Board}

/-- Exchanges `w` that leave the pin alone leave the light as it is. -/
theorem Drives.of_levels (h : levels l.pin w = []) : Drives l w l where
  pin := rfl
  on := by rw [h]; rfl
  truthful := id

theorem Drives.append (h : Drives l w l') (h' : Drives l' w' l'') : Drives l (w ++ w') l'' where
  pin := h'.pin.trans h.pin
  on := by
    rw [h'.on, h.pin, h.on, levels_append, List.getLast?_append]
    cases (levels l.pin w').getLast? <;> rfl
  truthful hl := h'.truthful (h.truthful hl)

/-- A light `l` whose pin is set knows it. -/
theorem Drives.switched (l : StatusLight) (status : Status) (on : Bool) (now : Instant)
    (h : Truthful { l with status, on, lastToggle := now }) :
    Drives l [⟨.setPin l.pin on, ()⟩, ⟨.now, now⟩] { l with status, on, lastToggle := now } where
  pin := rfl
  on := by
    rw [levels_setPin]
    rfl
  truthful _ := h

/-- To `switch` the light is to set its pin, and to look at the clock after it. -/
theorem abides_switch (l : StatusLight) (on : Bool) {Q : Trace Board → StatusLight → Prop}
    (h : ∀ now, Q [⟨.setPin l.pin on, ()⟩, ⟨.now, now⟩] { l with on, lastToggle := now }) :
    Program.Abides (fun _ => Asks l.pin) Q (l.switch on) :=
  .ask (.setPin on) fun _ => .ask .now fun now => .done (h now)

/-- To `display` a status changes nothing if it is displayed already; otherwise the light goes off
for a core that runs and on for the SD card, and goes on as it was while a core is looked for. -/
theorem abides_display (l : StatusLight) (status : Status) :
    Program.Abides (fun _ => Asks l.pin) (fun w l' => Drives l w l' ∧ l'.status = status)
      (l.display status) := by
  unfold display
  split
  · next hsame => exact .done ⟨.of_levels rfl, hsame⟩
  · cases status with
    | ready =>
      refine abides_switch { l with status := .ready } false fun now =>
        ⟨.switched l _ _ now ?_, rfl⟩
      exact ⟨fun _ => rfl, nofun⟩
    | disk =>
      refine abides_switch { l with status := .disk } true fun now =>
        ⟨.switched l _ _ now ?_, rfl⟩
      exact ⟨nofun, fun _ => rfl⟩
    | detecting => exact .done ⟨⟨rfl, rfl, fun _ => ⟨nofun, nofun⟩⟩, rfl⟩

/-- An `interval` is over when the time has come that it adds up to. -/
theorem elapsed_iff {interval last now : Nat} (h : 0 < interval) :
    interval ≤ now - last ↔ last + interval ≤ now := by omega

/-- The things that `work` can do.  Times that go backwards count as no time at all. -/
inductive Works (l : StatusLight) : Trace Board → Duration → StatusLight → Prop where
  /-- The light does not blink. -/
  | steady (status : l.status ≠ .detecting) : Works l [] blinkInterval l
  /-- It is not yet time to blink. -/
  | waiting {now : Instant} (status : l.status = .detecting)
      (early : now - l.lastToggle < blinkInterval) :
      Works l [⟨.now, now⟩] (blinkInterval - (now - l.lastToggle)) l
  | toggled {now later : Instant} (status : l.status = .detecting)
      (due : blinkInterval ≤ now - l.lastToggle) :
      Works l [⟨.now, now⟩, ⟨.setPin l.pin !l.on, ()⟩, ⟨.now, later⟩] blinkInterval
        { l with on := !l.on, lastToggle := later }

/-- To `work` is one of the things that `Works` says. -/
theorem abides_work (l : StatusLight) :
    Program.Abides (fun _ => Asks l.pin) (fun w x => Works l w x.1 x.2) l.work := by
  unfold work
  split
  · next hstatus =>
    refine .bind (abides_clock .now fun now => ?_)
    dsimp only
    split
    · next hdue =>
      exact .bind (abides_switch l _ fun later => .done (.toggled hstatus hdue))
    · next hearly => exact .done (.waiting hstatus (Nat.lt_of_not_le hearly))
  · next hstatus => exact .done (.steady hstatus)

namespace Works

variable {pause : Duration}

theorem drives (h : Works l w pause l') : Drives l w l' := by
  cases h with
  | steady | waiting => exact .of_levels rfl
  | @toggled now later status due =>
    refine .append (w := [⟨.now, now⟩]) (.of_levels rfl) (.switched l l.status _ later ?_)
    exact ⟨fun hready => (nomatch status.symm.trans hready),
      fun hdisk => (nomatch status.symm.trans hdisk)⟩

/-- A light that blinks is changed as soon as `blinkInterval` is over. -/
theorem toggles_iff {now : Instant} (h : Works l (⟨.now, now⟩ :: w) pause l') :
    w ≠ [] ↔ l.lastToggle + blinkInterval ≤ now := by
  rw [← elapsed_iff (by decide)]
  cases h with
  | waiting status early => exact ⟨fun h => absurd rfl h, fun h => absurd early (Nat.not_lt.2 h)⟩
  | toggled status due => exact ⟨fun _ => due, fun _ => List.cons_ne_nil _ _⟩

/-- If it is not changed yet, the `pause` ends just when it is to be changed. -/
theorem pause_eq {now : Instant} (h : Works l [⟨.now, now⟩] pause l')
    (hnow : l.lastToggle ≤ now) : now + pause = l.lastToggle + blinkInterval := by
  have hends {interval last now : Nat} (hlast : last ≤ now) (early : now - last < interval) :
      now + (interval - (now - last)) = last + interval := by omega
  cases h with
  | waiting status early => exact hends hnow early

end Works

/-! ### Blinking -/

/-- The light is looked at again and again, by `work`. -/
inductive Looks : StatusLight → Trace Board → StatusLight → Prop where
  | nil (l : StatusLight) : Looks l [] l
  | cons {l l' l'' : StatusLight} {w w' : Trace Board} {pause : Duration}
      (look : l.work.Run w (pause, l')) (rest : Looks l' w' l'') : Looks l (w ++ w') l''

/-- When a pin was set, by the clock that is read right after. -/
def changes : Trace Board → List Instant
  | ⟨.setPin .., _⟩ :: ⟨.now, later⟩ :: w => later :: changes w
  | _ :: w => changes w
  | [] => []

/-- If the clock does not go back, the light changes no sooner than `blinkInterval` after it changed
last, and it is as long from each of the `changes` to the next. -/
theorem Looks.spaced (h : Looks l w l') (hclock : (l.lastToggle :: readings w).Pairwise (· ≤ ·)) :
    (l.lastToggle :: changes w).Pairwise fun t t' => t + blinkInterval ≤ t' := by
  induction h with
  | nil l => exact List.pairwise_singleton _ _
  | @cons l l' l'' w w' pause look rest ih =>
    rw [readings_append, ← List.cons_append] at hclock
    have hworks : Works l w pause l' := (abides_work l).ends look
    cases hworks with
    | steady status => exact ih hclock
    | @waiting now status early =>
      exact ih (hclock.sublist (.cons_cons _ (List.sublist_cons_self _ _)))
    | @toggled now later status due =>
      have hreadings : (l.lastToggle :: now :: later :: readings w').Pairwise (· ≤ ·) := hclock
      obtain ⟨-, hreadings⟩ := List.pairwise_cons.1 hreadings
      obtain ⟨hnow, hrest⟩ := List.pairwise_cons.1 hreadings
      have hspaced : l.lastToggle + blinkInterval ≤ later :=
        Nat.le_trans ((elapsed_iff (by decide)).1 due) (hnow later (.head _))
      have hchanges := ih hrest
      refine List.pairwise_cons.2 ⟨fun t ht => ?_, hchanges⟩
      rcases List.mem_cons.1 ht with rfl | ht
      · exact hspaced
      · exact Nat.le_trans hspaced
          (Nat.le_trans (Nat.le_add_right _ _) ((List.pairwise_cons.1 hchanges).1 t ht))

end StatusLight

end IoController.Board
