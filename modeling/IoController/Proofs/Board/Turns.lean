import IoController.Board.Firmware
import IoController.Proofs.Board.Peripherals

/-!
# Board — Turns

What a task of the firmware does from when it is woken until it waits again, whatever the board
answers.

* `Firmware.Asks`: what each task may ask of the board.
* `Firmware.Begins`, `Firmware.Polls`, `Firmware.Follows`: the parts of a turn of the controller's
  task, each with its exchanges.
* `Firmware.Went`: the turns of each task; `Firmware.abides_step`: there are no others, and a turn
  that does not come to its end asks nothing else.
-/

namespace IoController.Board

/-- The number under which the watchdog polices a task, if it does. -/
def Task.policed? : Task → Option Policed
  | .watchdog => none
  | .status => some .status
  | .io => some .io
  | .bridge => some .bridge

namespace Firmware

variable {f f' f'' : Firmware} {w w' : Trace Board} {state : Controller.Phase}

/-! ### What a turn is made of -/

/-- What `task` may ask of the board: to be policed and to feed the watchdog, to look at the clock,
and what the controller or the light needs, if it is theirs. -/
inductive Asks (p : Peripherals) : Task → Request → Prop where
  | watch : Asks p .watchdog .watch
  | police {task : Task} {policed : Policed} (number : task.policed? = some policed) :
      Asks p task (.police policed policed.interval)
  | feed {task : Task} {policed : Policed} (number : task.policed? = some policed) :
      Asks p task (.feed policed)
  | now {task : Task} {policed : Policed} (number : task.policed? = some policed) : Asks p task .now
  | light {l : StatusLight} {r : Request} (light : p.light = some l)
      (asks : StatusLight.Asks l.pin r) : Asks p .status r
  | uses {r : Request} (uses : p.Uses r) : Asks p .io r
  | reset : Asks p .io .reset

/-- A task that is only starting asks to be policed, as `task`. -/
def policing (task : Policed) : Wake → Trace Board
  | .start => [⟨.police task task.interval, ()⟩]
  | _ => []

/-- The beginning of a turn of the controller's task: on `start` the controller is started, and
later nothing is done. -/
inductive Begins (f : Firmware) : Wake → Trace Board → Firmware → Prop where
  | start {c : Controller} {p p' : Peripherals} {w w' : Trace Board}
      (started : (f.peripherals.perform f.controller.start).Run w (c, p))
      (ready : (p.setStatus .ready).Run w' p') :
      Begins f .start (⟨.police .io (Policed.interval .io), ()⟩ :: (w ++ w'))
        { f with controller := c, peripherals := p' }
  | later {wake : Wake} (later : wake ≠ .start) : Begins f wake [] f

/-- The controller takes in what waits in the `inbox`, and is polled. -/
inductive Polls (f : Firmware) : Trace Board → Controller.Phase → Firmware → Prop where
  | mk {now : Instant} {c c' : Controller} {p p' : Peripherals} {w w' : Trace Board}
      {state : Controller.Phase}
      (handled : (f.peripherals.perform (handleAll f.controller now f.inbox)).Run w (c, p))
      (polled : (p.perform (c.poll now)).Run w' ((state, c'), p')) :
      Polls f (⟨.now, now⟩ :: ⟨.feed .io, ()⟩ :: (w ++ w')) state
        { f with controller := c', peripherals := p', inbox := [] }

/-- What comes of the loop's `state`: a change is shown by the light, and a change to `restart` is
not lived through. -/
structure Follows (f : Firmware) (state : Controller.Phase) (w : Trace Board) (f' : Firmware) :
    Prop where
  same : f' = { f with peripherals := f'.peripherals, phase := state }
  lights : f.peripherals.Lights w f'.peripherals
  alive : state ≠ f.phase → state ≠ .restart
  shown {l : StatusLight} (change : state ≠ f.phase) (light : f'.peripherals.light = some l) :
    l.status = if state = .reloading then .detecting else .ready

/-- The beginning of a turn touches the `controller` and its peripherals only. -/
theorem Begins.same {wake : Wake} (h : Begins f wake w f') :
    f' = { f with controller := f'.controller, peripherals := f'.peripherals } := by
  cases h <;> rfl

/-- A poll takes all that waits in the `inbox`, and leaves the decoder and the phase alone. -/
theorem Polls.same (h : Polls f w state f') :
    f' = { f with controller := f'.controller, peripherals := f'.peripherals, inbox := [] } := by
  cases h
  rfl

/-- To `follow` a state of the loop is what `Follows` says. -/
theorem abides_follow (f : Firmware) (state : Controller.Phase) :
    Program.Abides (fun _ => Asks f.peripherals .io) (fun w f' => Follows f state w f')
      (f.follow state) := by
  have hshow (status : Status) (hrestart : state ≠ .restart)
      (hstatus : (if state = .reloading then Status.detecting else .ready) = status) :
      Program.Abides (fun _ => Asks f.peripherals .io) (fun w f' => Follows f state w f')
        (({ f with phase := state } : Firmware).setStatus status) := by
    refine .map ((f.peripherals.abides_setStatus status).mono (fun _ _ h => .uses h)
      fun w p' ⟨hlights, hshown⟩ => ?_)
    exact ⟨rfl, hlights, fun _ => hrestart, fun _ hl => (hshown _ hl).trans hstatus.symm⟩
  unfold follow
  split
  · next hsame =>
    subst hsame
    exact .done ⟨rfl, .nil _, fun h => absurd rfl h, fun h => absurd rfl h⟩
  · cases state with
    | restart => exact .ask .reset nofun
    | reloading => exact hshow .detecting nofun rfl
    | running | idle => exact hshow .ready nofun rfl

/-- What a `task` may ask after a program of the controller it could ask before. -/
theorem Asks.of_serving {p p' : Peripherals} (h : p.Serving w p') {task : Task} {r : Request}
    (hasks : Asks p' task r) : Asks p task r := by
  cases hasks with
  | watch => exact .watch
  | police number => exact .police number
  | feed number => exact .feed number
  | now number => exact .now number
  | light light' asks =>
    obtain ⟨l, hlight, hpin⟩ := h.pin_eq light'
    exact .light hlight (hpin ▸ asks)
  | uses uses => exact .uses (h.uses uses)
  | reset => exact .reset

/-- What becomes of the bridge of `f` that is woken: a byte is received. -/
def listen (f : Firmware) : Wake → Firmware
  | .byte b => f.receive b
  | _ => f

/-- To have a report wait touches nothing but the `inbox`. -/
theorem post_same (f : Firmware) (input : UsbReport) :
    f.post input = { f with inbox := (f.post input).inbox } := by
  unfold post
  split <;> rfl

/-- To be woken touches nothing of a bridge but the `decoder` and the `inbox`. -/
theorem listen_same (f : Firmware) (wake : Wake) :
    f.listen wake =
      { f with decoder := (f.listen wake).decoder, inbox := (f.listen wake).inbox } := by
  cases wake with
  | start | time | lineError => rfl
  | byte b =>
    simp only [listen, receive]
    cases (f.decoder.push b).1 with
    | none => rfl
    | some input =>
      rw [Option.elim_some, post_same]

/-- What a turn of each task of `f` comes to: its exchanges, what the task waits for then, and what
has become of the firmware. -/
inductive Went (f : Firmware) : Task → Wake → Trace Board → Wait → Firmware → Prop where
  | watchdog (wake : Wake) : Went f .watchdog wake [⟨.watch, ()⟩] .forever f
  | status {wake : Wake} {w : Trace Board} {p : Peripherals} {now : Instant} {pause : Duration}
      (lights : f.peripherals.Lights w p) (pause_le : pause ≤ StatusLight.workInterval) :
      Went f .status wake (policing .status wake ++ ⟨.feed .status, ()⟩ :: (w ++ [⟨.now, now⟩]))
        (.time (now + pause)) { f with peripherals := p }
  | bridge {wake : Wake} {now : Instant} :
      Went f .bridge wake (policing .bridge wake ++ [⟨.feed .bridge, ()⟩, ⟨.now, now⟩])
        (.byte (now + lineTimeout)) (f.listen wake)
  | io {f₁ f₂ f₃ : Firmware} {wake : Wake} {w₁ w₂ w₃ : Trace Board} {state : Controller.Phase}
      {now : Instant} (begins : Begins f wake w₁ f₁) (polls : Polls f₁ w₂ state f₂)
      (follows : Follows f₂ state w₃ f₃) :
      Went f .io wake (w₁ ++ (w₂ ++ (w₃ ++ [⟨.now, now⟩]))) (.time (now + loopPause)) f₃

/-- A round of the controller's task ends the turn that it began as `Begins` says. -/
theorem abides_ioRound {wake : Wake} {w₁ : Trace Board} {f f₁ : Firmware}
    (hbegins : Begins f wake w₁ f₁) (hwired : f₁.peripherals.Wired) :
    Program.Abides (fun _ => Asks f₁.peripherals .io)
      (fun w x => Went f .io wake (w₁ ++ w) x.1 x.2) f₁.ioRound := by
  refine .bind (abides_clock (.now rfl) fun now => ?_)
  refine .bind (abides_ask (r := .feed .io) (.feed rfl) fun ⟨⟩ => ?_)
  refine .bind (.bind ((Peripherals.abides_perform hwired
    (handleAll f₁.controller now f₁.inbox)).run.mono (fun _ _ h => .uses h)
    fun w ⟨c, p⟩ ⟨hhandled, hserving⟩ => .done ?_))
  refine .bind ((Peripherals.abides_perform (hserving.wired hwired) (c.poll now)).run.mono
    (fun _ _ h => .uses (hserving.uses h)) fun w' ⟨⟨state, c'⟩, p'⟩ ⟨hpolled, hserving'⟩ => ?_)
  refine .bind ((abides_follow _ state).mono (fun _ _ h => h.of_serving (hserving.append hserving'))
    fun w'' f₂ hfollows => ?_)
  refine .bind (abides_clock (.now rfl) fun later => .done ?_)
  have hwent : Went f .io wake (w₁ ++ ((⟨.now, now⟩ :: ⟨.feed .io, ()⟩ :: (w ++ w')) ++
      (w'' ++ [⟨.now, later⟩]))) (.time (later + loopPause)) f₂ :=
    .io hbegins (.mk hhandled hpolled) hfollows
  simpa only [List.append_assoc, List.cons_append, List.nil_append, List.append_nil] using hwent

/-- The first turn of the controller's task is a round as well (`ioStart`). -/
theorem abides_ioStart (hwired : f.peripherals.Wired) :
    Program.Abides (fun _ => Asks f.peripherals .io)
      (fun w x => Went f .io .start w x.1 x.2) f.ioStart := by
  refine .bind (abides_ask (r := .police _ _) (.police rfl) fun ⟨⟩ => ?_)
  refine .bind (.bind ((Peripherals.abides_perform hwired f.controller.start).run.mono
    (fun _ _ h => .uses h) fun w ⟨c, p⟩ ⟨hstarted, hserving⟩ => .done ?_))
  refine .bind (.bind ((p.abides_setStatus .ready).run.mono
    (fun _ _ h => .uses (hserving.uses h)) fun w' p' ⟨hready, hlights, _⟩ => .done ?_))
  have hserving' := hserving.append hlights.serving
  have hround := abides_ioRound (f := f) (.start hstarted hready)
    (hserving'.wired hwired)
  refine hround.mono (fun _ _ h => h.of_serving hserving') fun w'' x hwent => ?_
  simpa only [List.append_assoc, List.cons_append, List.nil_append, List.append_nil] using hwent

/-- In the `statusRound` the light is looked at after the watchdog has been fed, and the clock after
that. -/
theorem abides_statusRound (f : Firmware) (wake : Wake) :
    Program.Abides (fun _ => Asks f.peripherals .status)
      (fun w x => Went f .status wake (policing .status wake ++ w) x.1 x.2) f.statusRound := by
  refine .bind (abides_ask (r := .feed .status) (.feed rfl) fun ⟨⟩ => ?_)
  cases hlight : f.peripherals.light with
  | none =>
    refine .bind (abides_clock (.now rfl) fun now => .done ?_)
    exact .status (w := []) (.nil _) (Nat.le_refl _)
  | some l =>
    refine .bind (l.abides_work.requests.mono (fun _ _ h => .light hlight h)
      fun w ⟨pause, l'⟩ ⟨hasks, hworks⟩ => ?_)
    refine .bind (abides_clock (.now rfl) fun now => .done ?_)
    exact .status (.of_drives hlight hworks.drives hasks) (Nat.min_le_right _ _)

/-- The bridge waits for the next byte (`bridgeWait`), whatever it was woken for. -/
theorem abides_bridgeWait (f : Firmware) (wake : Wake) :
    Program.Abides (fun _ => Asks f.peripherals .bridge)
      (fun w x => Went f .bridge wake (policing .bridge wake ++ w) x.1 x.2)
      (f.listen wake).bridgeWait := by
  refine .bind (abides_ask (r := .feed .bridge) (Asks.feed rfl) fun ⟨⟩ => ?_)
  exact .bind (abides_clock (Asks.now rfl) fun now => .done .bridge)

/-- **One turn.**  Whatever task is woken and why, all that `step` asks is what the task may ask by
`Asks`, whether the turn comes to its end or not; and if it does, it `Went` as the task does. -/
theorem abides_step (hwired : f.peripherals.Wired) (task : Task) (wake : Wake) :
    Program.Abides (fun _ => Asks f.peripherals task) (fun w x => Went f task wake w x.1 x.2)
      (f.step task wake) := by
  cases task with
  | watchdog => exact .ask .watch fun ⟨⟩ => .done (.watchdog wake)
  | status =>
    cases wake with
    | start => exact .ask (.police rfl) fun ⟨⟩ => f.abides_statusRound .start
    | time => exact f.abides_statusRound .time
    | byte b => exact f.abides_statusRound (.byte b)
    | lineError => exact f.abides_statusRound .lineError
  | io =>
    have hround {wake : Wake} (hlater : wake ≠ .start) :
        Program.Abides (fun _ => Asks f.peripherals .io)
          (fun w x => Went f .io wake w x.1 x.2) f.ioRound :=
      abides_ioRound (.later hlater) hwired
    cases wake with
    | start => exact abides_ioStart hwired
    | time => exact hround nofun
    | byte b => exact hround nofun
    | lineError => exact hround nofun
  | bridge =>
    cases wake with
    | start => exact .ask (.police rfl) fun ⟨⟩ => f.abides_bridgeWait .start
    | byte b => exact f.abides_bridgeWait (.byte b)
    | time => exact f.abides_bridgeWait .time
    | lineError => exact f.abides_bridgeWait .lineError

end Firmware

end IoController.Board
