import IoController.Proofs.Board.Turns
import IoController.Proofs.Controller.Lives

/-!
# Board — Runs

What the firmware does over every run, whichever task is woken next and why, and whatever the board
answers.

* `Firmware.Lived`: exchanges of the board, and the life of the controller behind them.
* `Firmware.Went.lived`, `Firmware.Went.fed`, `Firmware.Went.ends`: one turn.
* `Firmware.Runs.lived`: over a run one controller lives, and the setup stays.
* `Firmware.Runs.asks`: nothing is asked that the setup from before the run does not allow.
* `Firmware.Runs.watched`: the watchdog hears from every policed task in each of its turns, and
  the next turn is due long before the watchdog's interval is over.
-/

namespace IoController.Board

/-- The task that a request shows to live. -/
def feed? : Request → Option Policed
  | .feed task => some task
  | _ => none

/-- The tasks that are shown to live in `w`, in order. -/
def fed (w : Trace Board) : List Policed := w.filterMap (feed? ·.request)

theorem fed_append (w w' : Trace Board) : fed (w ++ w') = fed w ++ fed w' := List.filterMap_append

/-- What the controller or the status light `Uses` shows no task to live. -/
theorem fed_of_uses {p : Peripherals} {w : Trace Board} (h : ∀ x ∈ w, p.Uses x.request) :
    fed w = [] := by
  refine filterMap_request_eq_nil h fun r huses => ?_
  cases huses with
  | light light asks => cases asks <;> rfl
  | block r => cases r <;> rfl
  | file uses => cases uses <;> rfl
  | _ => rfl

namespace Firmware

variable {f f' f'' : Firmware} {w w' : Trace Board} {state : Controller.Phase}

/-! ### The controller's part -/

/-- What the board does while the controller goes through `lives` of its own: the setup stays, by
`Peripherals.Serving`, and the files that are `opened` and the `blocks` of the card are those that
the lives ask for. -/
structure Lived (f : Firmware) (w : Trace Board) (lives : List Controller.Turn) (f' : Firmware) :
    Prop where
  life : Controller.Lives f.controller lives f'.controller
  serving : f.peripherals.Serving w f'.peripherals
  opened : opened w = (lives.flatMap (·.trace)).flatMap (f.peripherals.names ·.request)
  blocks : blocks w = (lives.flatMap (·.trace)).flatMap (f.peripherals.accesses ·.request)

variable {lives lives' : List Controller.Turn}

/-- One life goes on where the other ends. -/
theorem Lived.append (h : Lived f w lives f') (h' : Lived f' w' lives' f'') :
    Lived f (w ++ w') (lives ++ lives') f'' where
  life := Controller.lives_append_iff.2 ⟨_, h.life, h'.life⟩
  serving := h.serving.append h'.serving
  opened := by
    rw [opened_append, h.opened, h'.opened, h.serving.names, List.flatMap_append,
      List.flatMap_append]
  blocks := by
    rw [blocks_append, h.blocks, h'.blocks, h.serving.accesses, List.flatMap_append,
      List.flatMap_append]

/-- What the `decoder` and the `inbox` have received meanwhile is not the controller's yet. -/
theorem Lived.received (h : Lived f w lives f') (decoder : Bridge.Decoder)
    (inbox : List UsbReport) : Lived f w lives { f' with decoder, inbox } :=
  ⟨h.life, h.serving, h.opened, h.blocks⟩

/-- What the light does (`Lights`) is not the controller's. -/
theorem Lived.lights (h : f.peripherals.Lights w f'.peripherals)
    (hcontroller : f'.controller = f.controller) : Lived f w [] f' where
  life := hcontroller ▸ .nil _
  serving := h.serving
  opened := h.opened
  blocks := h.blocks

/-- Exchanges that are `Apart`, about neither the light, nor files, nor the card are not the
controller's. -/
theorem Lived.apart (h : f.peripherals.Apart w) : Lived f w [] f where
  life := .nil _
  serving := h.serving _ _
  opened := h.opened
  blocks := h.blocks

/-- To feed the watchdog is not the controller's either. -/
theorem Lived.feed (f : Firmware) (policed : Policed) : Lived f [⟨.feed policed, ()⟩] [] f :=
  .apart (.cons (fun _ _ => rfl) rfl rfl .nil)

theorem Lived.now (f : Firmware) (now : Instant) : Lived f [⟨.now, now⟩] [] f :=
  .apart (.cons (fun _ _ => rfl) rfl rfl .nil)

theorem Lived.policing (f : Firmware) (policed : Policed) (wake : Wake) :
    Lived f (policing policed wake) [] f := by
  cases wake with
  | start => exact .apart (.cons (fun _ _ => rfl) rfl rfl .nil)
  | time | byte | lineError => exact .apart .nil

/-- A program `action` of the controller that comes to `calls` of it, whatever it is answered. -/
def Comes {α : Type} (c : Controller) (action : Action α) (a : α) (c' : Controller)
    (calls : List Controller.Call) : Prop :=
  ∀ t, action.Run t a → ∃ lives, Controller.Lives c lives c' ∧ lives.flatMap (·.trace) = t ∧
    lives.map (·.call) = calls

/-- What the board does for a program that `Comes` to calls. -/
theorem lived_perform {α : Type} {action : Action α} {a : α} {c : Controller} {p : Peripherals}
    {calls : List Controller.Call} (hwired : f.peripherals.Wired)
    (h : (f.peripherals.perform action).Run w (a, p))
    (hcomes : Comes f.controller action a c calls) :
    ∃ lives, Lived f w lives { f with controller := c, peripherals := p } ∧
      lives.map (·.call) = calls := by
  obtain ⟨t, hrun, hserving, hopened, hblocks⟩ := Peripherals.run_perform hwired h
  obtain ⟨lives, hlives, rfl, hcalls⟩ := hcomes t hrun
  exact ⟨lives, ⟨hlives, hserving, hopened, hblocks⟩, hcalls⟩

/-- A program that runs as the `call` does comes to that call. -/
theorem Comes.call {α : Type} {action : Action α} {a : α} {c c' : Controller}
    {call : Controller.Call} {reply : Option Controller.Phase}
    (h : ∀ t, action.Run t a → (c.perform call).Run t (reply, c')) : Comes c action a c' [call] :=
  fun t hrun => ⟨[⟨c, call, t, reply⟩], .cons (h t hrun) (.nil c'), List.append_nil t, rfl⟩

/-- To start the controller is one call, `start`. -/
theorem comes_start (c c' : Controller) : Comes c c.start c' c' [.start] :=
  .call fun _ hrun => Program.run_map_iff.2 ⟨c', hrun, rfl⟩

/-- To poll the controller is one call, `poll`. -/
theorem comes_poll (c c' : Controller) (now : Instant) (state : Controller.Phase) :
    Comes c (c.poll now) (state, c') c' [.poll now] :=
  .call fun _ hrun => Program.run_map_iff.2 ⟨(state, c'), hrun, rfl⟩

/-- To handle reports is one call, `handle`, for each. -/
theorem comes_handleAll (c c' : Controller) (now : Instant) (inputs : List UsbReport) :
    Comes c (handleAll c now inputs) c' c' (inputs.map (.handle · now)) := by
  induction inputs generalizing c with
  | nil =>
    intro t hrun
    obtain ⟨rfl, rfl⟩ := Program.run_done_iff.1 hrun
    exact ⟨[], .nil c', rfl, rfl⟩
  | cons input inputs ih =>
    intro t hrun
    obtain ⟨t₁, t₂, c₁, rfl, hfirst, hrest⟩ := Program.run_bind_iff.1 hrun
    obtain ⟨lives, hlives, rfl, hcalls⟩ := ih c₁ t₂ hrest
    have hcall : (c.perform (.handle input now)).Run t₁ (none, c₁) :=
      Program.run_map_iff.2 ⟨c₁, hfirst, rfl⟩
    exact ⟨⟨c, .handle input now, t₁, none⟩ :: lives, .cons hcall hlives, rfl,
      congrArg (Controller.Call.handle input now :: ·) hcalls⟩

/-- The calls that a turn of the controller's task begins with, when it is woken by `wake`. -/
def starting : Wake → List Controller.Call
  | .start => [.start]
  | _ => []

/-- If the turn is the first one, the controller is started (`starting`). -/
theorem Begins.lived {wake : Wake} (h : Begins f wake w f') (hwired : f.peripherals.Wired) :
    ∃ lives, Lived f w lives f' ∧ lives.map (·.call) = starting wake := by
  cases h with
  | @start c p p' w w' started ready =>
    obtain ⟨lives, hlived, hcalls⟩ := lived_perform hwired started (comes_start f.controller c)
    obtain ⟨hlights, -⟩ := (p.abides_setStatus .ready).ends ready
    refine ⟨lives, (Lived.policing f .io .start).append ?_, hcalls⟩
    exact List.append_nil lives ▸ hlived.append (.lights hlights rfl)
  | later later =>
    refine ⟨[], .apart .nil, ?_⟩
    cases wake with
    | start => exact absurd rfl later
    | time | byte | lineError => rfl

/-- The controller handles the reports that wait, in order and at one time `now`, and is polled at
that time. -/
theorem Polls.lived (h : Polls f w state f') (hwired : f.peripherals.Wired) :
    ∃ now lives, Lived f w lives f' ∧
      lives.map (·.call) = f.inbox.map (.handle · now) ++ [.poll now] := by
  cases h with
  | @mk now c c' p p' w w' state handled polled =>
    obtain ⟨lives, hlived, hcalls⟩ :=
      lived_perform hwired handled (comes_handleAll f.controller c now f.inbox)
    obtain ⟨lives', hlived', hcalls'⟩ :=
      lived_perform (f := { f with controller := c, peripherals := p })
        (hlived.serving.wired hwired) polled (comes_poll c c' now state)
    refine ⟨now, lives ++ lives', ?_, ?_⟩
    · have hboth := (hlived.append hlived').received f.decoder []
      exact (Lived.now f now).append ((Lived.feed f .io).append hboth)
    · rw [List.map_append, hcalls, hcalls']

/-- What follows is not the controller's. -/
theorem Follows.lived (h : Follows f state w f') : Lived f w [] f' :=
  .lights h.lights (by rw [h.same])

/-- The calls of the controller that a turn comes to: one of the controller's `task` to those that
take in what waits and poll it, and one of any `other` task to none. -/
inductive Calls (f : Firmware) : Task → Wake → List Controller.Call → Prop where
  | io (wake : Wake) (now : Instant) :
      Calls f .io wake (starting wake ++ (f.inbox.map (.handle · now) ++ [.poll now]))
  | other {task : Task} (wake : Wake) (other : task ≠ .io) : Calls f task wake []

variable {task : Task} {wake : Wake} {wait : Wait}

/-- A turn comes to a life of the controller, with the calls that `Calls` allows. -/
theorem Went.lived (h : Went f task wake w wait f') (hwired : f.peripherals.Wired) :
    ∃ lives, Lived f w lives f' ∧ Calls f task wake (lives.map (·.call)) := by
  cases h with
  | watchdog => exact ⟨[], .apart (.cons (fun _ _ => rfl) rfl rfl .nil), .other wake nofun⟩
  | @status wake w p now pause lights pause_le =>
    have hlights : Lived f w [] { f with peripherals := p } := .lights lights rfl
    refine ⟨[], ?_, .other wake nofun⟩
    exact (Lived.policing f .status wake).append ((Lived.feed f .status).append
      (hlights.append (.now _ now)))
  | @bridge wake now =>
    have hturn := (Lived.policing f .bridge wake).append ((Lived.feed f .bridge).append
      (.now f now))
    rw [listen_same]
    exact ⟨[], hturn.received _ _, .other wake nofun⟩
  | @io f₁ f₂ f₃ wake w₁ w₂ w₃ state now begins polls follows =>
    obtain ⟨lives, hlived, hcalls⟩ := begins.lived hwired
    obtain ⟨now', lives', hlived', hcalls'⟩ := polls.lived (hlived.serving.wired hwired)
    refine ⟨lives ++ lives', hlived.append ?_, ?_⟩
    · exact List.append_nil lives' ▸ hlived'.append (follows.lived.append (.now f' now))
    · rw [List.map_append, hcalls, hcalls', begins.same]
      exact .io wake now'

/-! ### The watchdog -/

/-- No program of the controller feeds the watchdog. -/
theorem fed_perform {α : Type} {action : Action α} {x : α × Peripherals} {p : Peripherals}
    (hwired : p.Wired) (h : (p.perform action).Run w x) : fed w = [] :=
  fed_of_uses ((Peripherals.abides_perform hwired action).requests.ends h).1

/-- To ask to be `policed` does not feed the watchdog. -/
theorem fed_policing (policed : Policed) (wake : Wake) : fed (policing policed wake) = [] := by
  cases wake <;> rfl

/-- What `Begins` a turn does not feed the watchdog. -/
theorem Begins.fed (h : Begins f wake w f') (hwired : f.peripherals.Wired) : fed w = [] := by
  cases h with
  | @start c p p' w w' started ready =>
    obtain ⟨hlights, -⟩ := (p.abides_setStatus .ready).ends ready
    change Board.fed (w ++ w') = []
    rw [fed_append, fed_perform hwired started, fed_of_uses hlights.uses, List.append_nil]
  | later => rfl

/-- A round of the controller's task (`Polls`) feeds the watchdog once. -/
theorem Polls.fed (h : Polls f w state f') (hwired : f.peripherals.Wired) : fed w = [.io] := by
  cases h with
  | @mk now c c' p p' w w' state handled polled =>
    have hserving : f.peripherals.Serving w p :=
      (Peripherals.abides_perform hwired _).ends handled
    change .io :: Board.fed (w ++ w') = [.io]
    rw [fed_append, fed_perform hwired handled, fed_perform (hserving.wired hwired) polled,
      List.append_nil]

/-- A policed task shows once in every turn that it lives, and nothing else shows that. -/
theorem Went.fed (h : Went f task wake w wait f') (hwired : f.peripherals.Wired) :
    fed w = task.policed?.toList := by
  cases h with
  | watchdog => rfl
  | @status wake w p now pause lights pause_le =>
    rw [fed_append, fed_policing]
    change .status :: Board.fed (w ++ [_]) = [.status]
    rw [fed_append, fed_of_uses lights.uses]
    rfl
  | @bridge wake now =>
    rw [fed_append, fed_policing]
    rfl
  | @io f₁ f₂ f₃ wake w₁ w₂ w₃ state now begins polls follows =>
    obtain ⟨lives, hlived, -⟩ := begins.lived hwired
    rw [fed_append, fed_append, fed_append, begins.fed hwired,
      polls.fed (hlived.serving.wired hwired), fed_of_uses follows.lights.uses]
    rfl

/-- How long a policed task waits at most. -/
def patience : Policed → Duration
  | .io => loopPause
  | .status => StatusLight.workInterval
  | .bridge => lineTimeout

/-- The watchdog waits four times as long as the `patience` of a task at least. -/
theorem patience_le_interval (policed : Policed) : 4 * patience policed ≤ policed.interval := by
  cases policed <;> decide

/-- The `wait` is over by `due`, whatever comes from the USB host. -/
def Ends (wait : Wait) (due : Instant) : Prop :=
  ∀ now next, due ≤ now → (wait.over? now next).isSome

/-- A wait for the point in time `due` is over then, and from then on. -/
theorem ends_time {due due' : Instant} (h : due ≤ due') : Ends (.time due) due' := by
  intro now next hnow
  rw [Wait.over?, if_pos (Nat.le_trans h hnow)]
  rfl

/-- A byte ends the wait for one, and so does a line that fails. -/
theorem ends_byte (due : Instant) : Ends (.byte due) due := by
  intro now next hnow
  rcases next with _ | _ | b
  · rw [Wait.over?, if_pos hnow]
    rfl
  · rfl
  · rfl

/-- A policed task looks at the clock last of all, and waits at most its `patience` from then on. -/
theorem Went.ends (h : Went f task wake w wait f') {policed : Policed}
    (hpoliced : task.policed? = some policed) :
    ∃ now, (readings w).getLast? = some now ∧ Ends wait (now + patience policed) := by
  cases h with
  | watchdog => nomatch hpoliced
  | @status wake w p now pause lights pause_le =>
    obtain rfl := Option.some.inj hpoliced
    refine ⟨now, ?_, ends_time (Nat.add_le_add_left pause_le now)⟩
    rw [← List.cons_append, ← List.append_assoc]
    exact getLast?_readings _ now
  | @bridge wake now =>
    obtain rfl := Option.some.inj hpoliced
    refine ⟨now, ?_, ends_byte _⟩
    rw [List.append_cons]
    exact getLast?_readings _ now
  | @io f₁ f₂ f₃ wake w₁ w₂ w₃ state now begins polls follows =>
    obtain rfl := Option.some.inj hpoliced
    refine ⟨now, ?_, ends_time (Nat.le_refl _)⟩
    rw [← List.append_assoc, ← List.append_assoc]
    exact getLast?_readings _ now

/-! ### Runs -/

/-- A turn of a `task` that was carried out, with what was there `before`, what it asked and what it
waits for. -/
structure Turn where
  before : Firmware
  task : Task
  wake : Wake
  trace : Trace Board
  wait : Wait

/-- What a firmware goes through, whichever `task` is woken next and why. -/
inductive Runs : Firmware → List Turn → Firmware → Prop where
  | nil (f : Firmware) : Runs f [] f
  | cons {f f' f'' : Firmware} {task : Task} {wake : Wake} {w : Trace Board} {wait : Wait}
      {turns : List Turn} (run : (f.step task wake).Run w (wait, f')) (rest : Runs f' turns f'') :
      Runs f (⟨f, task, wake, w, wait⟩ :: turns) f''

namespace Runs

variable {turns : List Turn}

/-- **One controller lives through the whole run.**  The turns come to lives of the controller that
follow one another: a turn of its task to the `Calls` that take in what waits and poll it, and a
turn of any other task to none.  Meanwhile the setup stays and the light knows its level, by
`Peripherals.Serving`; and the files that are `opened` and the `blocks` of the card that are read
and written are those that the controller asked for. -/
theorem lived (h : Runs f turns f') (hwired : f.peripherals.Wired) :
    ∃ liveses : List (List Controller.Turn),
      Lived f (turns.flatMap (·.trace)) liveses.flatten f' ∧
      List.Forall₂ (fun turn lives => Calls turn.before turn.task turn.wake (lives.map (·.call)))
        turns liveses := by
  induction h with
  | nil f => exact ⟨[], .apart .nil, .nil⟩
  | cons run rest ih =>
    obtain ⟨lives, hlived, hcalls⟩ := ((abides_step hwired _ _).ends run).lived hwired
    obtain ⟨liveses, hliveses, hrest⟩ := ih (hlived.serving.wired hwired)
    exact ⟨lives :: liveses, hlived.append hliveses, .cons hcalls hrest⟩

/-- **The setup is all that is used.**  Whatever `r` is asked in a turn after a run, whether the
turn comes to its end or not, the task may ask it by the setup from before the run. -/
theorem asks (h : Runs f turns f') (hwired : f.peripherals.Wired)
    {r : Request} (hreaches : (f'.step task wake).Reaches w r) : Asks f.peripherals task r := by
  obtain ⟨liveses, hlived, -⟩ := h.lived hwired
  exact ((abides_step (hlived.serving.wired hwired) task wake).asks hreaches).of_serving
    hlived.serving

/-- **The watchdog hears of every turn.**  Over a run the tasks that are `fed` are those that had a
turn, each once for each of its turns.  A turn looks at the clock last of all, and the wait after it
`Ends` within the task's `patience`, which is at most a quarter of its `Policed.interval`. -/
theorem watched (h : Runs f turns f') (hwired : f.peripherals.Wired) :
    fed (turns.flatMap (·.trace)) = turns.filterMap (·.task.policed?) ∧
      ∀ turn ∈ turns, ∀ policed, turn.task.policed? = some policed →
        ∃ now, (readings turn.trace).getLast? = some now ∧
          Ends turn.wait (now + patience policed) ∧ 4 * patience policed ≤ policed.interval := by
  induction h with
  | nil f => exact ⟨rfl, List.forall_mem_nil _⟩
  | @cons f f' f'' task wake w wait turns run rest ih =>
    have hwent := (abides_step hwired task wake).ends run
    obtain ⟨lives, hlived, -⟩ := hwent.lived hwired
    obtain ⟨hfed, hends⟩ := ih (hlived.serving.wired hwired)
    constructor
    · rw [List.flatMap_cons, fed_append, hwent.fed hwired, hfed]
      cases task <;> rfl
    · refine List.forall_mem_cons.2 ⟨fun policed hpoliced => ?_, hends⟩
      obtain ⟨now, hnow, hwait⟩ := hwent.ends hpoliced
      exact ⟨now, hnow, hwait, patience_le_interval policed⟩

end Runs

end Firmware

end IoController.Board
