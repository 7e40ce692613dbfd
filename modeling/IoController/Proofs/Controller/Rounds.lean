import IoController.Proofs.Controller.Channels
import IoController.Proofs.Controller.Lives
import IoController.Proofs.Core.Loading
import IoController.Proofs.Core.Watch
import IoController.Proofs.Disk.Protocol
import IoController.Proofs.Keyboard.Passes

/-!
# Controller — Rounds

What a round of the controller's loop has to say on the channels of the core that carry state.

* `Controller.portReports`: in a closed form, which joystick ports a round reports.
* `Controller.Round`: the part of a round that talks to a core that runs.
* `Controller.Polls`: all that a round may do.  `Controller.does_poll`: it does nothing else.
* `Controller.Takes`: all that a call may do.  `Controller.Lives.takes`: a life is made of such.
-/

namespace IoController

open Device (Deed Does Says Uses Word Within)

namespace Keyboard

/-- As time passes only the emulated mouse moves (`Event.mouse`). -/
theorem Emulation.tick_mouse (e : Emulation) (now : Instant) :
    ∀ event ∈ (e.tick now).1, ∃ buttons dx dy, event = .mouse buttons dx dy := by
  intro event hevent
  unfold tick at hevent
  split at hevent
  · dsimp only at hevent
    split at hevent
    · exact ⟨_, _, _, (Option.some.inj hevent).symm⟩
    · cases hevent
  · cases hevent

theorem Router.tick_mouse (r : Router) (now : Instant) :
    ∀ event ∈ (r.tick now).1, ∃ buttons dx dy, event = .mouse buttons dx dy := by
  by_cases hvisible : r.osdVisible
  · rw [tick, if_pos hvisible]
    intro event hevent
    cases hevent
  · rw [tick, if_neg hvisible]
    exact r.emulation.tick_mouse now

end Keyboard

namespace Controller

variable {c c' c₁ : Controller} {profile : Profile} {now : Instant} {ws ws' : List Word}

/-! ### The joystick ports -/

/-- The ports that a round reports, each with its state, and what is remembered of them, if they
were sampled as `s₀` and `s₁`. -/
def portReports (d : Joystick.Db9) (s₀ s₁ : Joystick.State) :
    List (UInt8 × Joystick.State) × Joystick.Db9 :=
  let (report₀, d) := d.sample 0 s₀
  let (report₁, d) := d.sample 1 s₁
  ((report₀.map fun s => ((0 : UInt8), s)).toList ++
    (report₁.map fun s => ((1 : UInt8), s)).toList, d.sampled)

/-- The joystick states that go out with the `reports` of ports. -/
def portStates (c : Controller) (reports : List (UInt8 × Joystick.State)) :
    List (UInt8 × UInt32) :=
  reports.flatMap fun report => c.joystickStates (c.portSlot report.1) report.2

/-- The messages on the Atari's keyboard link that go out with the `reports` of ports. -/
def portMessages (c : Controller) (reports : List (UInt8 × Joystick.State)) : List Bytes :=
  reports.flatMap fun report => c.joystickMessages (c.portSlot report.1) report.2

/-- The port `port` was sampled, and reported if it is to be. -/
structure Sampled (profile : Profile) (now : Instant) (port : Nat) (state : Joystick.State)
    (c : Controller) (ws : List Word) (c' : Controller) : Prop where
  rest : c' = { c with limiter := c'.limiter, db9 := (c.db9.sample port state).2 }
  extended : Device.extended ws =
    c.portStates ((c.db9.sample port state).1.map (UInt8.ofNat port, ·)).toList
  samples : Device.samples ws = [(port, state)]
  serial : IsAtari profile → (Device.serial ws, c'.limiter) = c.limiter.offer now
    (c.portMessages ((c.db9.sample port state).1.map (UInt8.ofNat port, ·)).toList).flatten

/-- A `port` is sampled, in whatever state it is. -/
theorem says_samplePort (c : Controller) (profile : Profile) (now : Instant) (port : Nat) :
    Says (c.samplePort profile now port) fun ws c' =>
      ∃ state, Sampled profile now port state c ws c' := by
  refine .bind ((Says.sample port).mono fun ws state hws => ?_)
  rw [hws]
  generalize hsample : c.db9.sample port state = sampled
  obtain ⟨report, db9⟩ := sampled
  cases report with
  | none =>
    refine .done ⟨state, ?_, ?_, rfl, fun _ => ?_⟩ <;> rw [hsample] <;> rfl
  | some reported =>
    refine (says_sendJoystick { c with db9 } profile _ reported now).mono fun ws' c' h => ?_
    refine ⟨state, ?_, ?_, congrArg ((port, state) :: ·) h.samples, fun hatari => ?_⟩
    · rw [hsample]
      exact h.rest
    · rw [hsample]
      exact h.extended.trans (List.append_nil _).symm
    · rw [hsample]
      exact (h.serial hatari).trans (congrArg (c.limiter.offer now ·.flatten)
        (List.append_nil _).symm)

/-- Both ports were sampled, as `s₀` and `s₁`, and those in `portReports` were reported. -/
structure Ported (profile : Profile) (now : Instant) (s₀ s₁ : Joystick.State) (c : Controller)
    (ws : List Word) (c' : Controller) : Prop where
  rest : c' = { c with
    limiter := c'.limiter, db9 := (portReports c.noteOsd.db9 s₀ s₁).2
    osdWasVisible := c.router.osdVisible }
  extended : Device.extended ws = c.portStates (portReports c.noteOsd.db9 s₀ s₁).1
  samples : Device.samples ws = [(0, s₀), (1, s₁)]
  serial : IsAtari profile → (Device.serial ws, c'.limiter) =
    c.limiter.offer now (c.portMessages (portReports c.noteOsd.db9 s₀ s₁).1).flatten

/-- Both ports are sampled, in whatever states `s₀` and `s₁` they are. -/
theorem says_pollPorts (c : Controller) (profile : Profile) (now : Instant) :
    Says (c.pollPorts profile now) fun ws c' => ∃ s₀ s₁, Ported profile now s₀ s₁ c ws c' := by
  refine .bind ((says_samplePort c.noteOsd profile now 0).mono fun ws c₁ hfirst => ?_)
  refine .bind ((says_samplePort c₁ profile now 1).mono fun ws' c₂ hsecond => .done ?_)
  obtain ⟨s₀, hfirst⟩ := hfirst
  obtain ⟨s₁, hsecond⟩ := hsecond
  rw [List.append_nil]
  obtain ⟨limiter, rfl⟩ : ∃ limiter, c₁ = { c.noteOsd with
    limiter, db9 := (c.noteOsd.db9.sample 0 s₀).2 } := ⟨_, hfirst.rest⟩
  refine ⟨s₀, s₁, by rw [hsecond.rest]; rfl, ?_, ?_, fun hatari => ?_⟩
  · rw [Device.extended_append, hfirst.extended, hsecond.extended]
    exact List.flatMap_append.symm
  · rw [Device.samples_append, hfirst.samples, hsecond.samples]
    rfl
  · obtain ⟨hserial, hlimiter⟩ := Prod.mk.inj (hfirst.serial hatari)
    obtain ⟨hserial', hlimiter'⟩ := Prod.mk.inj (hsecond.serial hatari)
    dsimp only at hlimiter hserial' hlimiter'
    rw [hlimiter] at hserial' hlimiter'
    rw [Device.serial_append, hserial, hserial', hlimiter']
    refine (Keyboard.Limiter.offer_append _ _ _ _).symm.trans ?_
    rw [← List.flatten_append]
    exact congrArg (c.limiter.offer now ·.flatten) List.flatMap_append.symm

/-! ### The other parts -/

theorem says_pollDisk (c : Controller) (profile : Profile) :
    Says (c.pollDisk profile) fun ws c' => Device.Silent ws ∧ c' = { c with disk := c'.disk } := by
  unfold pollDisk
  split
  · refine .bind (c.disk.uses_poll.within.mono fun ws p hws => .done ⟨?_, rfl⟩)
    rw [List.append_nil]
    exact hws.silent (by decide)
  · exact .done ⟨.nil, rfl⟩

/-- A value that has waited in the `limiter` goes out on the Atari's keyboard link as one byte. -/
theorem says_pollLimiter (c : Controller) (profile : Profile) (now : Instant) :
    Says (c.pollLimiter profile now) fun ws c' =>
      Device.extended ws = [] ∧ Device.samples ws = [] ∧
        (IsAtari profile →
          Device.serial ws = ((c.limiter.poll now).1.map (·.toUInt8)).toList) ∧
        c' = { c with limiter := (c.limiter.poll now).2 } := by
  unfold pollLimiter
  generalize c.limiter.poll now = polled
  obtain ⟨ready, limiter⟩ := polled
  cases ready with
  | none => exact .bind (.done (.done ⟨rfl, rfl, fun _ => rfl, rfl⟩))
  | some value =>
    refine .bind ((says_sendLimited profile value).mono fun ws _ hws => .done ?_)
    obtain ⟨hextended, hsamples, hserial⟩ := hws
    rw [List.append_nil]
    exact ⟨hextended, hsamples, hserial, rfl⟩

/-- The packet of the `mouse` that is due, and what is left of the movement. -/
def duePacket (mouse : Option Mouse.Accumulator) (now : Instant) :
    Option Bytes × Option Mouse.Accumulator :=
  match mouse with
  | none => (none, none)
  | some m => ((m.poll now).1, some (m.poll now).2)

theorem says_pollMouse (c : Controller) (profile : Profile) (now : Instant) :
    Says (c.pollMouse profile now)
      (Output now (duePacket c.mouse now).1.toList [] profile
        { c with mouse := (duePacket c.mouse now).2 }) := by
  obtain ⟨_, _, _, _, mouse, _⟩ := c
  cases mouse with
  | none => exact .done (.silent _ .nil)
  | some m =>
    unfold pollMouse duePacket
    dsimp only
    generalize m.poll now = polled
    obtain ⟨packet, m⟩ := polled
    cases packet with
    | none => exact .done (.silent _ .nil)
    | some packet => exact says_sendMouse _ profile packet now

/-- The front panel sends its `buttons`, and may open or close the OSD. -/
theorem says_pollPanel (c : Controller) (profile : Profile) (now : Instant) :
    Says (c.pollPanel profile now) fun ws c' => Within [Link.Opcode.buttons] ws ∧
      c' = { c with
        router := { c.router with osdVisible := c'.router.osdVisible }
        nextPanel := c'.nextPanel, buttons := c'.buttons } := by
  unfold pollPanel
  split
  · refine .bind ((Says.host fun _ => rfl).mono fun ws panel hws => ?_)
    rw [hws]
    dsimp only
    generalize c.buttons.update panel _ now = updated
    obtain ⟨update, buttons⟩ := updated
    have hclick : ∀ ws', Within [Link.Opcode.buttons] ws' → Says (if update.menuClick = true then
        { c with nextPanel := some (now + panelInterval), buttons }.menuClick
        else pure { c with nextPanel := some (now + panelInterval), buttons }) fun ws'' c' =>
          Within [Link.Opcode.buttons] ([] ++ (ws' ++ ws'')) ∧ c' = { c with
            router := { c.router with osdVisible := c'.router.osdVisible }
            nextPanel := c'.nextPanel, buttons := c'.buttons } := by
      intro ws' hwithin
      split
      · refine .bind ((Says.host fun _ => rfl).mono fun ws'' _ hclick => .done ⟨?_, rfl⟩)
        rwa [hclick, List.append_nil, List.append_nil, List.nil_append]
      · refine .done ⟨?_, rfl⟩
        rwa [List.append_nil, List.nil_append]
    cases update.send with
    | none => exact .bind (.done (hclick [] .nil))
    | some map =>
      refine .bind ((Says.command _ _).mono fun ws' _ hcommand => hclick ws' ?_)
      rw [hcommand]
      exact .command (List.mem_singleton_self _) _
  · exact .done ⟨.nil, rfl⟩

theorem says_showLeds (changes : List (Keyboard.Lock × Bool)) :
    Says (showLeds changes) fun ws _ => ws = [] := by
  induction changes with
  | nil => exact .done rfl
  | cons change changes ih =>
    refine .bind ((Says.host fun _ => rfl).mono fun ws _ hfirst => ih.mono fun ws' _ hrest => ?_)
    rw [hfirst, hrest]
    rfl

theorem says_pollLeds (c : Controller) (now : Instant) :
    Says (c.pollLeds now) fun ws c' =>
      Within [Link.Opcode.ledStatus] ws ∧ c' = { c with leds := c'.leds } := by
  have hquery : Uses [Link.Opcode.ledStatus] Link.ledStatus :=
    Uses.query (List.mem_singleton_self _) ((Device.clocks_transfer _).mono fun _ _ _ => trivial)
  unfold pollLeds
  generalize c.leds.due now = asked
  obtain ⟨due, leds⟩ := asked
  cases due with
  | false => exact .done ⟨.nil, rfl⟩
  | true =>
    refine .bind (hquery.within.mono fun ws byte hws => ?_)
    refine .bind ((says_showLeds _).mono fun ws' _ hshown => .done ⟨?_, rfl⟩)
    rwa [hshown, List.append_nil, List.append_nil]

/-! ### A round -/

/-- The mouse packet that a round at `now` sends, and what is left of the movement. -/
def roundPacket (c : Controller) (now : Instant) : Option Bytes × Option Mouse.Accumulator :=
  duePacket ((c.router.tick now).1.toList.foldl moved c.mouse) now

/-- The messages that a round makes for the Atari's keyboard link: a mouse packet, and those of the
ports (`portReports`). -/
def roundMessages (c : Controller) (now : Instant) (s₀ s₁ : Joystick.State) : List Bytes :=
  (c.roundPacket now).1.toList ++ c.portMessages (portReports c.noteOsd.db9 s₀ s₁).1

/-- A round has talked to the core, with the joystick ports in the states `s₀` and `s₁`. -/
structure Round (now : Instant) (s₀ s₁ : Joystick.State) (c : Controller) (ws : List Word)
    (c' : Controller) : Prop where
  rest : c' = { c' with
    joystick0PreferDb9 := c.joystick0PreferDb9
    monitor := c.monitor
    usbJoysticks := c.usbJoysticks
    db9 := (portReports c.noteOsd.db9 s₀ s₁).2
    osdWasVisible := c.router.osdVisible
    router := { c.router with
      emulation := c'.router.emulation, osdVisible := c'.router.osdVisible } }
  extended : Device.extended ws = c.portStates (portReports c.noteOsd.db9 s₀ s₁).1
  samples : Device.samples ws = [(0, s₀), (1, s₁)]
  serial : c.monitor.core = .atariSt →
    Device.serial ws = ((c.limiter.poll now).1.map (·.toUInt8)).toList ++
      ((c.limiter.poll now).2.offer now (c.roundMessages now s₀ s₁).flatten).1 ∧
    c'.limiter = ((c.limiter.poll now).2.offer now (c.roundMessages now s₀ s₁).flatten).2 ∧
    c'.mouse = (c.roundPacket now).2

/-- The emulated mouse moves; that says nothing to the core yet. -/
theorem says_pollEmulation (c : Controller) (now : Instant) :
    Says (c.pollEmulation now) (Response now (c.router.tick now).1.toList
      { c with router := (c.router.tick now).2 }) :=
  says_handleEvents { c with router := (c.router.tick now).2 } now _

theorem tick_quiet (c : Controller) (r : Keyboard.Router) (now : Instant) :
    (r.tick now).1.toList.flatMap c.eventStates = [] ∧
      (r.tick now).1.toList.flatMap c.eventMessages = [] := by
  cases hevent : (r.tick now).1 with
  | none => exact ⟨rfl, rfl⟩
  | some event =>
    obtain ⟨buttons, dx, dy, rfl⟩ := r.tick_mouse now event hevent
    exact ⟨rfl, rfl⟩

/-- **What a round says.**  Whatever the surroundings answer, the part of a round that talks to the
core is a `Round`: it samples both joystick ports once, sends the joystick states that their reports
come to, and offers the Atari's keyboard link a mouse packet and the messages of the ports, in this
order. -/
theorem says_pollInput (hprofile : c.profile? = some profile) (now : Instant) :
    Says (c.pollInput profile now) fun ws c' => ∃ s₀ s₁, Round now s₀ s₁ c ws c' := by
  refine .bind ((says_pollDisk c profile).mono fun ws₁ c₁ hdisk => ?_)
  obtain ⟨hdisk, hrest⟩ := hdisk
  obtain ⟨disk, rfl⟩ : ∃ disk, c₁ = { c with disk } := ⟨_, hrest⟩
  refine .bind ((says_pollLimiter _ profile now).mono fun ws₂ c₂ hlimiter => ?_)
  obtain ⟨hextended, hsamples, hserial, rfl⟩ := hlimiter
  refine .bind ((says_pollEmulation _ now).mono fun ws₃ c₃ htick => ?_)
  obtain ⟨emulation, hrouter⟩ : ∃ emulation,
      (c.router.tick now).2 = { c.router with emulation } := ⟨_, c.router.tick_router now⟩
  obtain ⟨limiter₃, mouse, mouseKeys, leds, restart, rfl⟩ :
      ∃ limiter mouse mouseKeys leds restart, c₃ = { c with
        disk, router := { c.router with emulation }, limiter, mouse, mouseKeys, leds, restart } :=
    ⟨_, _, _, _, _, htick.rest.trans (by rw [hrouter])⟩
  refine .bind ((says_pollMouse _ profile now).mono fun ws₄ c₄ hmouse => ?_)
  obtain ⟨limiter₄, rfl⟩ : ∃ limiter, c₄ = { c with
      disk, router := { c.router with emulation }, limiter, mouse := (duePacket mouse now).2
      mouseKeys, leds, restart } := ⟨_, hmouse.rest⟩
  refine .bind ((says_pollPorts _ profile now).mono fun ws₅ c₅ hports => ?_)
  obtain ⟨s₀, s₁, hports⟩ := hports
  obtain ⟨limiter₅, rfl⟩ : ∃ limiter, c₅ = { c with
      disk, router := { c.router with emulation }, limiter, mouse := (duePacket mouse now).2
      mouseKeys, leds, restart, db9 := (portReports c.noteOsd.db9 s₀ s₁).2
      osdWasVisible := c.router.osdVisible } := ⟨_, hports.rest⟩
  refine .bind ((says_pollPanel _ profile now).mono fun ws₆ c₆ hpanel => ?_)
  obtain ⟨hbuttons, hrest⟩ := hpanel
  have hpanel := hbuttons.silent (by decide)
  obtain ⟨osdVisible, nextPanel, buttons, rfl⟩ : ∃ osdVisible nextPanel buttons, c₆ = { c with
      disk, router := { c.router with emulation, osdVisible }, limiter := limiter₅
      mouse := (duePacket mouse now).2, mouseKeys, leds, restart
      db9 := (portReports c.noteOsd.db9 s₀ s₁).2, osdWasVisible := c.router.osdVisible
      nextPanel, buttons } := ⟨_, _, _, hrest⟩
  refine (says_pollLeds _ now).mono fun ws₇ c' hleds => ?_
  obtain ⟨hstatus, hrest⟩ := hleds
  have hleds := hstatus.silent (by decide)
  obtain ⟨hstates, hmessages⟩ := tick_quiet
    { c with disk, limiter := (c.limiter.poll now).2, router := (c.router.tick now).2 }
    c.router now
  refine ⟨s₀, s₁, ?_, ?_, ?_, fun hatari => ?_⟩
  · rw [hrest]
  · simp only [Device.extended_append, hdisk.extended, hextended, htick.extended, hstates,
      hmouse.extended, hports.extended, hpanel.extended, hleds.extended, List.nil_append,
      List.append_nil]
    rfl
  · simp only [Device.samples_append, hdisk.samples, hsamples, htick.samples, hmouse.samples,
      hports.samples, hpanel.samples, hleds.samples, List.nil_append, List.append_nil]
  · have hprofile := isAtari_of_core hprofile hatari
    obtain ⟨htick, hmoved⟩ := htick.serial hatari
    rw [hmessages] at htick
    -- the limiter goes from one part of the round to the next
    obtain ⟨hsilent, hlimiter₃⟩ : Device.serial ws₃ = [] ∧ limiter₃ = (c.limiter.poll now).2 :=
      Prod.mk.inj htick
    obtain rfl : mouse = (c.router.tick now).1.toList.foldl moved c.mouse := hmoved
    obtain ⟨hpacket, hlimiter₄⟩ :
        Device.serial ws₄ = (limiter₃.offer now (c.roundPacket now).1.toList.flatten).1 ∧
          limiter₄ = (limiter₃.offer now (c.roundPacket now).1.toList.flatten).2 :=
      Prod.mk.inj (hmouse.serial hprofile)
    obtain ⟨hported, hlimiter₅⟩ :
        Device.serial ws₅ = (limiter₄.offer now
          (c.portMessages (portReports c.noteOsd.db9 s₀ s₁).1).flatten).1 ∧
        limiter₅ = (limiter₄.offer now
          (c.portMessages (portReports c.noteOsd.db9 s₀ s₁).1).flatten).2 :=
      Prod.mk.inj (hports.serial hprofile)
    have hpolled : Device.serial ws₂ = ((c.limiter.poll now).1.map (·.toUInt8)).toList :=
      hserial hprofile
    rw [roundMessages, List.flatten_append, Keyboard.Limiter.offer_append, ← hlimiter₃,
      ← hlimiter₄, ← hlimiter₅, ← hpacket, ← hported, ← hpolled]
    refine ⟨?_, by rw [hrest], by rw [hrest]; rfl⟩
    simp only [Device.serial_append, hdisk.serial, hsilent, hpanel.serial, hleds.serial,
      List.nil_append, List.append_nil]

/-! ### A poll -/

/-- The core is asked for its identification byte, which is `id`: a frame of one byte, and one more
clock. -/
def checking (id extra : UInt8) : List Deed := [.frame .io [(0xff, id)], .clock 0xff extra]

/-- A poll: nothing, if the firmware is to start over (`restart`); a check of the core alone, if it
finds that there is no core to talk to (`checked`); or a check and a `round`. -/
inductive Polls (c : Controller) (now : Instant) : List Deed → Phase × Controller → Prop where
  | restart (restart : c.restart = true) : Polls c now [] (.restart, c)
  | checked {id extra : UInt8} {phase : Phase} (restart : c.restart = false) :
      Polls c now (checking id extra) (phase, { c with monitor := (c.monitor.check id).2 })
  | round {id extra : UInt8} {ds : List Deed} {phase : Phase} {s₀ s₁ : Joystick.State}
      {c' : Controller} (restart : c.restart = false) (framed : ∀ d ∈ ds, d.isFramed = true)
      (round : Round now s₀ s₁ { c with monitor := (c.monitor.check id).2 } (Device.words ds) c') :
      Polls c now (checking id extra ++ ds) (phase, c')

/-- A check does not change which `core` there is. -/
theorem check_core (m : Core.Monitor) (id : UInt8) : (m.check id).2.core = m.core := by
  unfold Core.Monitor.check
  split
  · rfl
  · split
    · rfl
    · dsimp only
      split <;> rfl

theorem does_round (c : Controller) (now : Instant) (id extra : UInt8)
    (restart : c.restart = false) :
    Does (match ({ c with monitor := (c.monitor.check id).2 } : Controller).profile? with
      | none => pure (Phase.idle, { c with monitor := (c.monitor.check id).2 })
      | some profile => do
        let c ← ({ c with monitor := (c.monitor.check id).2 } : Controller).pollInput profile now
        pure (if c.restart then Phase.restart else Phase.running, c))
      fun ds p => Polls c now (checking id extra ++ ds) p := by
  generalize hchecked : ({ c with monitor := (c.monitor.check id).2 } : Controller) = c₁
  cases hprofile : c₁.profile? with
  | none =>
    refine .done ?_
    rw [← hchecked]
    exact .checked restart
  | some profile =>
    refine .bind (Program.Spells.mono (says_pollInput hprofile now) fun ds c' hround => .done ?_)
    obtain ⟨hframed, s₀, s₁, hround⟩ := hround
    rw [List.append_nil]
    exact .round restart hframed (hchecked ▸ hround)

/-- **What a poll says.**  Whatever the surroundings answer, a poll is one of those that `Polls`
describes. -/
theorem does_poll (c : Controller) (now : Instant) : Does (c.poll now) (Polls c now) := by
  unfold poll
  by_cases hrestart : c.restart = true
  · rw [if_pos hrestart]
    exact .done (.restart hrestart)
  · rw [if_neg hrestart]
    have hno := Bool.eq_false_iff.2 hrestart
    refine .bind ((Core.does_poll c.monitor).mono fun ds p hcheck => ?_)
    obtain ⟨id, extra, rfl, rfl⟩ := hcheck
    have hround := does_round c now id extra hno
    have hchecked : ∀ phase, Polls c now (checking id extra)
        (phase, { c with monitor := (c.monitor.check id).2 }) := fun _ => .checked hno
    generalize c.monitor.check id = checked at hround hchecked ⊢
    obtain ⟨check, monitor⟩ := checked
    cases check with
    | reloading => exact .done (hchecked .reloading)
    | restart => exact .done (hchecked .restart)
    | active => exact hround
    | mismatch count => exact hround

/-! ### A call -/

/-- A call: what is done, the journal `ds`, and the controller after it. -/
inductive Takes (c : Controller) : Call → List Deed → Controller → Prop where
  | start {monitor : Core.Monitor} {disk : Disk.VirtualCard} {ds : List Deed}
      (framed : ∀ d ∈ ds, d.isFramed = true)
      (within : Within Core.detectionVocabulary (Device.words ds)) :
      Takes c .start ds { c with monitor, disk }.adopt
  | poll {now : Instant} {ds : List Deed} {phase : Phase} {c' : Controller}
      (polls : Polls c now ds (phase, c')) : Takes c (.poll now) ds c'
  | handle {input : UsbReport} {now : Instant} {ds : List Deed} {c' : Controller}
      (framed : ∀ d ∈ ds, d.isFramed = true) (heeds : Heeds now input c (Device.words ds) c') :
      Takes c (.handle input now) ds c'
  | setOsdVisible {visible : Bool} : Takes c (.setOsdVisible visible) [] (c.setOsdVisible visible)

/-- **What a call does.**  Whatever the surroundings answer, a call is one of those that `Takes`
describes. -/
theorem does_takes (c : Controller) (call : Call) :
    Does (c.perform call) fun ds p => Takes c call ds p.2 := by
  cases call with
  | start =>
    have hdetect := (Core.uses_detect c.monitor c.disk).within
    refine .bind (.bind (Program.Spells.mono hdetect fun ds p h => .done (.done ?_)))
    rw [List.append_nil, List.append_nil]
    exact .start h.1 h.2
  | poll now =>
    refine .bind ((does_poll c now).mono fun ds p hpolls => .done ?_)
    rw [List.append_nil]
    exact .poll hpolls
  | handle input now =>
    refine .bind (Program.Spells.mono (says_handle c input now) fun ds c' h => .done ?_)
    rw [List.append_nil]
    exact .handle h.1 h.2
  | setOsdVisible visible => exact .done .setOsdVisible

/-- The commands and samples of the `turn`. -/
def Turn.words (turn : Turn) : List Word := Device.words (Device.journal turn.trace)

/-- What identifies a core (`detectionVocabulary`) says nothing on the channels. -/
theorem silent_detection (h : Within Core.detectionVocabulary ws) : Device.Silent ws :=
  h.silent (by decide)

/-- Nor does a check of the core. -/
theorem silent_checking (id extra : UInt8) : Device.Silent (Device.words (checking id extra)) :=
  .command rfl []

/-- What a turn did, read off its `trace`. -/
theorem Turn.Leaves.takes {turn : Turn} (h : turn.Leaves c') :
    turn.trace = Device.traces (Device.journal turn.trace) ∧
      Takes turn.before turn.call (Device.journal turn.trace) c' :=
  (does_takes turn.before turn.call).journal h

/-- Every turn of a life did what its call `Takes`, read off its `trace`. -/
theorem Lives.takes {turns : List Turn} (h : Lives c turns c') :
    ∀ turn ∈ turns, turn.trace = Device.traces (Device.journal turn.trace) ∧
      ∃ c', Takes turn.before turn.call (Device.journal turn.trace) c' := by
  intro turn hturn
  obtain ⟨past, future, rfl⟩ := List.append_of_mem hturn
  obtain ⟨-, c₁, hleaves, -⟩ := h.cut
  obtain ⟨htrace, htakes⟩ := hleaves.takes
  exact ⟨htrace, c₁, htakes⟩

/-- Until it is started anew a controller has the same `core`. -/
theorem Lives.core (h : Lives c turns c') (hcalls : ∀ turn ∈ turns, turn.call ≠ .start) :
    c'.monitor.core = c.monitor.core := by
  refine h.invariant (P := fun _ c' => c'.monitor.core = c.monitor.core) rfl
    fun past turn hturn c₁ hleaves hpast => ?_
  have htakes := hleaves.takes.2
  have hcall := hcalls turn hturn
  generalize turn.call = call, Device.journal turn.trace = ds at htakes hcall
  rw [← hpast]
  cases htakes with
  | start => exact absurd rfl hcall
  | setOsdVisible => rfl
  | @handle input _ _ _ _ heeds =>
    rw [heeds.rest]
    cases input <;> rfl
  | poll polls =>
    cases polls with
    | restart => rfl
    | checked => exact check_core _ _
    | round _ _ round =>
      rw [round.rest]
      exact check_core _ _

end Controller

end IoController
