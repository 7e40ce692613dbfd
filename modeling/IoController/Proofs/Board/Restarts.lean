import IoController.Proofs.Board.Runs

/-!
# Board — Restarts

When the firmware starts over.  No run comes past that, so this is about what is reached.

* `Firmware.reaches_ioRound_iff`: a round of the controller's task asks for a reset just when its
  poll says so.
* `Firmware.reaches_reset_iff`: no other turn asks for a reset.
* `Firmware.Runs.phase_ne`: as long as the firmware runs it has not been told to start over.
-/

namespace IoController.Board.Firmware

variable {f f' : Firmware} {w : Trace Board} {task : Task} {wake : Wake} {wait : Wait}

/-- A firmware `f` that goes on has not been told to start over. -/
theorem Went.phase_ne (h : Went f task wake w wait f') (hphase : f.phase ≠ .restart) :
    f'.phase ≠ .restart := by
  cases h with
  | watchdog | status => exact hphase
  | bridge =>
    rw [listen_same]
    exact hphase
  | @io f₁ f₂ f₃ wake w₁ w₂ w₃ state now begins polls follows =>
    rw [follows.same]
    by_cases hsame : state = f₂.phase
    · rw [begins.same] at polls
      rw [hsame, polls.same]
      exact hphase
    · exact follows.alive hsame

/-- Nothing that the controller or the status light `Uses` is a reset. -/
theorem not_uses_reset (p : Peripherals) : ¬ p.Uses .reset := by
  intro h
  generalize hr : Request.reset = r at h
  cases h with
  | light light asks => subst hr; nomatch asks
  | block r => cases r <;> nomatch hr
  | file uses => subst hr; nomatch uses
  | _ => nomatch hr

/-- To set a `status` asks for no reset. -/
theorem never_firmware_setStatus (f : Firmware) (status : Status) :
    ∀ w, ¬ (f.setStatus status).Reaches w .reset :=
  Program.never_map
    (fun _ h => not_uses_reset _ ((f.peripherals.abides_setStatus status).asks h)) _

/-- To `follow` a state of the loop is to start over just when it has changed to `restart`. -/
theorem reaches_follow_iff (f : Firmware) (state : Controller.Phase) :
    (f.follow state).Reaches w .reset ↔ w = [] ∧ state = .restart ∧ f.phase ≠ .restart := by
  unfold follow
  split
  · next hsame =>
    constructor
    · exact nofun
    · rintro ⟨rfl, rfl, hphase⟩
      exact absurd hsame.symm hphase
  · next hchange =>
    cases state with
    | restart =>
      constructor
      · rintro (_ | ⟨⟨⟩, _⟩)
        exact ⟨rfl, rfl, Ne.symm hchange⟩
      · rintro ⟨rfl, -, -⟩
        exact .here
    | running | idle | reloading =>
      constructor
      · exact fun h => absurd h (never_firmware_setStatus _ _ w)
      · rintro ⟨-, ⟨⟩, -⟩

/-- No `action` of the controller asks for a reset. -/
theorem never_perform {α : Type} {p : Peripherals} (hwired : p.Wired) (action : Action α)
    (w : Trace Board) : ¬ (p.perform action).Reaches w .reset :=
  fun h => not_uses_reset p ((Peripherals.abides_perform hwired action).asks h)

theorem never_ask {r : Request} (hr : r ≠ .reset) (w : Trace Board) :
    ¬ (ask r).Reaches w .reset := by
  rintro (_ | ⟨_, ⟨⟩⟩)
  exact hr rfl

/-- A program of the controller that the firmware runs is one that its peripherals `perform`. -/
theorem run_perform_iff {action : Action Controller} :
    (f.perform action).Run w f' ↔ ∃ c p, (f.peripherals.perform action).Run w (c, p) ∧
      f' = { f with controller := c, peripherals := p } :=
  Program.run_map_iff.trans Prod.exists

/-- No `action` of the controller that the firmware runs asks for a reset. -/
theorem never_firmware_perform (hwired : f.peripherals.Wired) (action : Action Controller) :
    ∀ w, ¬ (f.perform action).Reaches w .reset :=
  Program.never_map (never_perform hwired action) _

/-- To set a `status` touches nothing of the firmware but its `peripherals`. -/
theorem run_setStatus_iff {status : Status} :
    (f.setStatus status).Run w f' ↔ ∃ p, (f.peripherals.setStatus status).Run w p ∧
      f' = { f with peripherals := p } := Program.run_map_iff

/-- A round starts over just when its poll says `restart`, and the phase was another one. -/
theorem reaches_ioRound_iff (hwired : f.peripherals.Wired) :
    f.ioRound.Reaches w .reset ↔ f.phase ≠ .restart ∧ ∃ f', Polls f w .restart f' := by
  constructor
  · intro h
    obtain ⟨_, _, now, rfl, hnow, h⟩ :=
      (Program.reaches_bind_of_never (never_ask (r := .now) nofun)).1 h
    obtain ⟨_, _, ⟨⟩, rfl, hfeed, h⟩ :=
      (Program.reaches_bind_of_never (never_ask (r := .feed .io) nofun)).1 h
    obtain ⟨w₁, _, f₁, rfl, hfirst, h⟩ :=
      (Program.reaches_bind_of_never
        (never_firmware_perform (f := { f with inbox := [] }) hwired _)).1 h
    obtain ⟨c, p, hhandled, rfl⟩ := run_perform_iff.1 hfirst
    have hserving : f.peripherals.Serving w₁ p :=
      (Peripherals.abides_perform hwired _).ends hhandled
    obtain ⟨w₂, _, ⟨⟨state, c'⟩, p'⟩, rfl, hpolled, h⟩ :=
      (Program.reaches_bind_of_never (never_perform (hserving.wired hwired) _)).1 h
    obtain hfollow | ⟨_, _, f₂, rfl, -, h⟩ := Program.reaches_bind_iff.1 h
    · obtain ⟨rfl, rfl, hphase⟩ := (reaches_follow_iff _ _).1 hfollow
      obtain rfl := Program.run_request_iff.1 hnow
      obtain rfl := Program.run_request_iff.1 hfeed
      have hpolls : Polls f (⟨.now, now⟩ :: ⟨.feed .io, ()⟩ :: (w₁ ++ w₂)) .restart _ :=
        .mk hhandled hpolled
      rw [List.append_nil]
      exact ⟨hphase, _, hpolls⟩
    · obtain ⟨_, _, later, rfl, -, hdone⟩ :=
        (Program.reaches_bind_of_never (never_ask (r := .now) nofun)).1 h
      nomatch hdone
  · rintro ⟨hphase, _, @⟨now, c, c', p, p', w, w', _, hhandled, hpolled⟩⟩
    have hfollow := (reaches_follow_iff (f := { f with
      controller := c', peripherals := p', inbox := [] }) .restart).2 ⟨rfl, rfl, hphase⟩
    refine (Program.reaches_bind_iff (p := clock)).2
      (.inr ⟨_, _, now, rfl, Program.run_request_iff.2 rfl, ?_⟩)
    refine (Program.reaches_bind_iff (p := ask (.feed .io))).2
      (.inr ⟨_, _, (), rfl, Program.run_request_iff.2 rfl, ?_⟩)
    refine Program.reaches_bind_iff.2 (.inr ⟨w, w', _, rfl, run_perform_iff.2
      ⟨c, p, hhandled, rfl⟩, ?_⟩)
    refine Program.reaches_bind_iff.2 (.inr ⟨w', [], _, (List.append_nil w').symm, hpolled, ?_⟩)
    exact Program.reaches_bind_iff.2 (.inl hfollow)

/-- Before the first round the controller is started as `Begins` says, which asks for no reset. -/
theorem reaches_ioStart_iff (hwired : f.peripherals.Wired) :
    f.ioStart.Reaches w .reset ↔ ∃ w₁ w₂ f₁, w = w₁ ++ w₂ ∧ Begins f .start w₁ f₁ ∧
      f₁.ioRound.Reaches w₂ .reset := by
  constructor
  · intro h
    obtain ⟨_, _, ⟨⟩, rfl, hpolice, hperform⟩ := (Program.reaches_bind_of_never
      (never_ask (r := .police .io (Policed.interval .io)) nofun)).1 h
    obtain ⟨w₁, _, f₁, rfl, hfirst, hset⟩ :=
      (Program.reaches_bind_of_never (never_firmware_perform hwired _)).1 hperform
    obtain ⟨c, p, hstarted, rfl⟩ := run_perform_iff.1 hfirst
    obtain ⟨w₂, w₃, f₂, rfl, hsecond, hround⟩ :=
      (Program.reaches_bind_of_never (never_firmware_setStatus _ _)).1 hset
    obtain ⟨p', hready, rfl⟩ := run_setStatus_iff.1 hsecond
    obtain rfl := Program.run_request_iff.1 hpolice
    refine ⟨_, w₃, _, ?_, .start hstarted hready, hround⟩
    simp only [List.cons_append, List.nil_append, List.append_assoc]
  · rintro ⟨_, w₃, _, rfl, @⟨c, p, p', w₁, w₂, hstarted, hready⟩ | ⟨hlater⟩, h⟩
    · rw [List.cons_append, List.append_assoc]
      refine (Program.reaches_bind_iff (p := police .io)).2
        (.inr ⟨[_], _, (), rfl, Program.run_request_iff.2 rfl, ?_⟩)
      refine Program.reaches_bind_iff.2 (.inr ⟨w₁, _, _, rfl, run_perform_iff.2
        ⟨c, p, hstarted, rfl⟩, ?_⟩)
      exact Program.reaches_bind_iff.2 (.inr ⟨w₂, w₃, _, rfl, run_setStatus_iff.2
        ⟨p', hready, rfl⟩, h⟩)
    · exact absurd rfl hlater

/-- Whatever the controller's task is woken for, only its `ioRound` can ask for a reset. -/
theorem reaches_io_iff (hwired : f.peripherals.Wired) :
    (f.step .io wake).Reaches w .reset ↔ ∃ w₁ w₂ f₁, w = w₁ ++ w₂ ∧ Begins f wake w₁ f₁ ∧
      f₁.ioRound.Reaches w₂ .reset := by
  by_cases hstart : wake = .start
  · subst hstart
    exact reaches_ioStart_iff hwired
  · have hround : f.step .io wake = f.ioRound := by
      cases wake with
      | start => exact absurd rfl hstart
      | time | byte | lineError => rfl
    rw [hround]
    constructor
    · exact fun h => ⟨[], w, f, rfl, .later hstart, h⟩
    · rintro ⟨_, _, _, rfl, _ | _, h⟩
      · exact absurd rfl hstart
      · exact h

/-- **The firmware starts over when the controller says so.**  A turn `Reaches` a reset just when it
is one of the controller's task and the poll in it says `restart`, unless the phase was `restart`
already; and then right after the poll. -/
theorem reaches_reset_iff (hwired : f.peripherals.Wired) :
    (f.step task wake).Reaches w .reset ↔ task = .io ∧ f.phase ≠ .restart ∧
      ∃ w₁ w₂ f₁ f₂, w = w₁ ++ w₂ ∧ Begins f wake w₁ f₁ ∧ Polls f₁ w₂ .restart f₂ := by
  have hround {w₁ w₂ : Trace Board} {f₁ : Firmware} (hbegins : Begins f wake w₁ f₁) :
      f₁.ioRound.Reaches w₂ .reset ↔ f.phase ≠ .restart ∧ ∃ f₂, Polls f₁ w₂ .restart f₂ := by
    obtain ⟨lives, hlived, -⟩ := hbegins.lived hwired
    have hphase : f₁.phase = f.phase := by rw [hbegins.same]
    rw [reaches_ioRound_iff (hlived.serving.wired hwired), hphase]
  constructor
  · intro h
    have hasks : Asks f.peripherals task .reset := (abides_step hwired task wake).asks h
    cases hasks with
    | light light asks => nomatch asks
    | uses uses => exact absurd uses (not_uses_reset _)
    | reset =>
      obtain ⟨w₁, w₂, f₁, rfl, hbegins, hreset⟩ := (reaches_io_iff hwired).1 h
      obtain ⟨hphase, f₂, hpolls⟩ := (hround hbegins).1 hreset
      exact ⟨rfl, hphase, w₁, w₂, f₁, f₂, rfl, hbegins, hpolls⟩
  · rintro ⟨rfl, hphase, w₁, w₂, f₁, f₂, rfl, hbegins, hpolls⟩
    exact (reaches_io_iff hwired).2
      ⟨w₁, w₂, f₁, rfl, hbegins, (hround hbegins).2 ⟨hphase, f₂, hpolls⟩⟩

/-! ### Runs -/

/-- A firmware that runs has not been told to start over. -/
theorem Runs.phase_ne {turns : List Turn} (h : Runs f turns f') (hwired : f.peripherals.Wired)
    (hphase : f.phase ≠ .restart) : f'.phase ≠ .restart := by
  induction h with
  | nil => exact hphase
  | cons run rest ih =>
    have hwent := (abides_step hwired _ _).ends run
    obtain ⟨lives, hlived, -⟩ := hwent.lived hwired
    exact ih (hlived.serving.wired hwired) (hwent.phase_ne hphase)

end IoController.Board.Firmware
