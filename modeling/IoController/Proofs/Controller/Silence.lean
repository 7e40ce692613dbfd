import IoController.Proofs.Controller.Rounds
import IoController.Proofs.Core.Detection
import IoController.Proofs.Keyboard.Balance

/-!
# Controller — Silence

What is done for a core that takes neither keys nor a mouse: one without a profile, or the one with
joysticks alone.

* `Controller.Deaf`: the state of a controller with such a core.
* `Controller.Idles`: nothing is done but to check the core.
* `Controller.Deaf.performs`: what one call does, and that it leaves the controller so.
* `Controller.silent_from_start`: from a start on a core without a profile is only checked, and the
  one with joysticks alone is never sent a key or a mouse packet.
-/

namespace IoController

open Device (Deed Does Says Word Within)

/-! ### Commands that are not sent -/

namespace Device

variable {opcodes : List UInt8} {ws ws' : List Word}

/-- No word of `ws` is one of the commands `opcodes`. -/
def Spares (opcodes : List UInt8) (ws : List Word) : Prop :=
  ∀ w ∈ ws, ∀ opcode ∈ opcodes, ∀ payload, w ≠ .command (opcode :: payload)

theorem Spares.nil : Spares opcodes [] := fun _ hw => nomatch hw

theorem Spares.append (h : Spares opcodes ws) (h' : Spares opcodes ws') :
    Spares opcodes (ws ++ ws') :=
  fun w hw => (List.mem_append.1 hw).elim (h w) (h' w)

/-- Commands from another `vocabulary` spare these. -/
theorem Within.spares {vocabulary : List UInt8} (h : Within vocabulary ws)
    (hapart : opcodes.all (· ∉ vocabulary) = true) : Spares opcodes ws := by
  rintro w hw opcode hopcode payload rfl
  obtain ⟨opcode', hvocabulary, payload', heq⟩ := h _ hw
  cases heq
  exact of_decide_eq_true (List.all_eq_true.1 hapart opcode hopcode) hvocabulary

theorem Spares.command {opcode : UInt8} (h : opcode ∉ opcodes) (payload : Bytes) :
    Spares opcodes [.command (opcode :: payload)] := by
  rintro w hw opcode' hopcode payload' rfl
  cases List.mem_singleton.1 hw
  exact h hopcode

theorem Spares.sample (port : Nat) (state : Joystick.State) :
    Spares opcodes [.sample port state] := by
  rintro w hw opcode - payload rfl
  cases List.mem_singleton.1 hw

end Device

open Device (Spares)

/-! ### Reports without a layout -/

namespace Keyboard

theorem Limiter.poll_of_empty {l : Limiter} (h : l.queue = []) (now : Instant) :
    (l.poll now).1 = none ∧ (l.poll now).2.queue = [] := by
  unfold poll
  rw [h]
  split
  · exact ⟨rfl, rfl⟩
  · exact ⟨rfl, h⟩

namespace Router

variable {r : Router} {report : Report} {priority : UInt8} {now : Instant}

/-- Without a `layout` a report asks for resets at most. -/
theorem receive_of_no_layout (h : ∀ profile, r.profile = some profile → profile.layout = none) :
    ∀ event ∈ (r.receive report priority now).1, ∃ request, event = .reset request := by
  intro event hevent
  have hprocess : event ∈ (r.process report priority now).1 := List.mem_of_mem_take hevent
  cases hignore : r.ignores report priority with
  | true =>
    rw [process_of_ignores hignore] at hprocess
    exact absurd hprocess List.not_mem_nil
  | false =>
    have hopened : (r.opened report priority).profile = r.profile := by rw [opened_router]
    rw [process_of_accepts hignore, passes_of_no_layout (by rwa [hopened]), List.append_nil]
      at hprocess
    exact resetPass_events _ report event hprocess

/-- No `report` changes what the core takes. -/
theorem receive_profile (r : Router) (report : Report) (priority : UInt8) (now : Instant) :
    (r.receive report priority now).2.profile = r.profile := by
  have hrouter := congrArg Router.profile (r.process_router report priority now)
  exact hrouter

end Router

end Keyboard

namespace Controller

variable {c c' : Controller} {profile : Profile} {now : Instant}

/-- The commands that carry keys and mouse packets. -/
def inputCommands : List UInt8 :=
  [Link.Opcode.keyboard, Link.Opcode.osdKeyboard, Link.Opcode.mouse]

/-- The core of `c` takes neither keys nor a mouse, and nothing waits to be sent to it. -/
structure Deaf (c : Controller) : Prop where
  /-- If the core has a profile at all, it is that of the one with joysticks alone. -/
  profile : ∀ profile, c.profile? = some profile → Core.pace.profile? = some profile
  router : c.router.profile = c.profile?
  queue : c.limiter.queue = []
  mouse : c.mouse = none

/-- Nothing has changed that has a part in being `Deaf`. -/
structure Alike (c c' : Controller) : Prop where
  core : c'.monitor.core = c.monitor.core
  router : c'.router.profile = c.router.profile
  queue : c'.limiter.queue = c.limiter.queue
  mouse : c'.mouse = c.mouse

theorem Alike.refl (c : Controller) : Alike c c := ⟨rfl, rfl, rfl, rfl⟩

theorem Alike.trans {c₁ : Controller} (h : Alike c c₁) (h' : Alike c₁ c') : Alike c c' where
  core := h'.core.trans h.core
  router := h'.router.trans h.router
  queue := h'.queue.trans h.queue
  mouse := h'.mouse.trans h.mouse

theorem Alike.profile? (h : Alike c c') : c'.profile? = c.profile? :=
  congrArg Core.profile? h.core

/-- A controller stays `Deaf` as long as nothing has changed that counts. -/
theorem Deaf.alike (h : Deaf c) (halike : Alike c c') : Deaf c' where
  profile := halike.profile? ▸ h.profile
  router := by rw [halike.router, halike.profile?, h.router]
  queue := halike.queue.trans h.queue
  mouse := halike.mouse.trans h.mouse

theorem Deaf.layout (h : Deaf c) (profile : Profile) (hprofile : c.router.profile = some profile) :
    profile.layout = none := by
  cases h.profile profile (h.router ▸ hprofile)
  rfl

/-! ### Events -/

/-- An event that has nothing done for such a core: a `request` for a reset, or mouse movement. -/
inductive Passing : Event → Prop where
  | reset (request : Reset) : Passing (.reset request)
  | mouse (buttons : UInt8) (dx dy : Int8) : Passing (.mouse buttons dx dy)

/-- An event that is `Passing` has nothing done. -/
theorem Deaf.handleEvent (h : Deaf c) {event : Event} (hevent : Passing event) (now : Instant) :
    ∃ c', c.handleEvent event now = pure c' ∧ Alike c c' := by
  cases hprofile : c.profile? with
  | none =>
    cases hevent with
    | mouse buttons dx dy =>
      refine ⟨c, ?_, .refl c⟩
      simp only [Controller.handleEvent, hprofile]
    | reset request =>
      cases request with
      | firmware => exact ⟨_, rfl, rfl, rfl, rfl, rfl⟩
      | core held =>
        refine ⟨c, ?_, .refl c⟩
        simp only [Controller.handleEvent, reset, hprofile, Option.any_none, Bool.and_false]
        rfl
  | some profile =>
    cases h.profile profile hprofile
    cases hevent with
    | mouse buttons dx dy =>
      refine ⟨{ c with mouse := c.mouse.map (·.add buttons dx dy) }, ?_, rfl, rfl, rfl, ?_⟩
      · simp only [Controller.handleEvent, hprofile, moveMouse]
        rfl
      · rw [h.mouse]
        rfl
    | reset request =>
      cases request with
      | firmware => exact ⟨_, rfl, rfl, rfl, rfl, rfl⟩
      | core held =>
        refine ⟨c, ?_, .refl c⟩
        simp only [Controller.handleEvent, reset, hprofile, Option.any_some, Bool.and_false]
        rfl

/-- Of several `events` nothing comes either. -/
theorem Deaf.handleEvents (h : Deaf c) {events : List Event}
    (hevents : ∀ event ∈ events, Passing event) (now : Instant) :
    ∃ c', c.handleEvents now events = pure c' ∧ Alike c c' := by
  induction events generalizing c with
  | nil => exact ⟨c, rfl, .refl c⟩
  | cons event events ih =>
    obtain ⟨hfirst, hrest⟩ := List.forall_mem_cons.1 hevents
    obtain ⟨c₁, hrun₁, halike₁⟩ := h.handleEvent hfirst now
    obtain ⟨c₂, hrun₂, halike₂⟩ := ih (h.alike halike₁) hrest
    refine ⟨c₂, ?_, halike₁.trans halike₂⟩
    rw [Controller.handleEvents, hrun₁]
    exact hrun₂

/-- The emulated mouse may move, but there is none to move. -/
theorem Deaf.pollEmulation (h : Deaf c) (now : Instant) :
    ∃ c', c.pollEmulation now = pure c' ∧ Alike c c' := by
  have hrouter := congrArg Keyboard.Router.profile (c.router.tick_router now)
  have hticked : Alike c { c with router := (c.router.tick now).2 } := ⟨rfl, hrouter, rfl, rfl⟩
  have hpassing : ∀ event ∈ (c.router.tick now).1.toList, Passing event := by
    intro event hevent
    obtain ⟨buttons, dx, dy, rfl⟩ := c.router.tick_mouse now event (Option.mem_toList.1 hevent)
    exact .mouse buttons dx dy
  obtain ⟨c', hrun, halike⟩ := (h.alike hticked).handleEvents hpassing now
  exact ⟨c', hrun, hticked.trans halike⟩

/-- The report `input` has nothing done, unless it is that of a joystick. -/
theorem Deaf.handle (h : Deaf c) (input : UsbReport) (now : Instant) :
    (∃ c', c.handle input now = pure c' ∧ Alike c c') ∨
      ∃ profile index state, c.profile? = some profile ∧
        c.handle input now = c.sendJoystick profile (Joystick.usbSlot index) state now := by
  cases input with
  | keyboard priority report =>
    have hreceived : Alike c { c with router := (c.router.receive report priority now).2 } :=
      ⟨rfl, c.router.receive_profile report priority now, rfl, rfl⟩
    have hpassing : ∀ event ∈ (c.router.receive report priority now).1, Passing event := by
      intro event hevent
      obtain ⟨request, rfl⟩ := Keyboard.Router.receive_of_no_layout h.layout event hevent
      exact .reset request
    obtain ⟨c', hrun, halike⟩ := (h.alike hreceived).handleEvents hpassing now
    exact .inl ⟨c', hrun, hreceived.trans halike⟩
  | mouse buttons dx dy => exact .inl (h.handleEvent (.mouse buttons dx dy) now)
  | joystick index state =>
    cases hprofile : c.profile? with
    | none =>
      refine .inl ⟨c, ?_, .refl c⟩
      simp only [Controller.handle, hprofile]
    | some profile =>
      refine .inr ⟨profile, index, state, rfl, ?_⟩
      simp only [Controller.handle, hprofile]
  | joystickCount count => exact .inl ⟨_, rfl, rfl, rfl, rfl, rfl⟩

/-! ### What is still said -/

/-- Whatever is sent is none of the `inputCommands`, and the controller is as deaf after it. -/
def Reserved (c : Controller) (ws : List Word) (c' : Controller) : Prop :=
  Spares inputCommands ws ∧ Alike c c'

theorem Reserved.trans {c₁ : Controller} {ws ws' : List Word} (h : Reserved c ws c₁)
    (h' : Reserved c₁ ws' c') : Reserved c (ws ++ ws') c' :=
  ⟨h.1.append h'.1, h.2.trans h'.2⟩

/-- The commands of a joystick are none of the `inputCommands`. -/
theorem joystick_opcodes (slot : UInt8) (hslot : slot < Joystick.slotCount) :
    joystickOpcode slot ∉ inputCommands ∧
      Link.Opcode.joystickExtended + slot ∉ inputCommands :=
  (by decide +kernel : ∀ i : Fin 256, UInt8.ofFin i < Joystick.slotCount →
    joystickOpcode (.ofFin i) ∉ inputCommands ∧
      Link.Opcode.joystickExtended + .ofFin i ∉ inputCommands) slot.toFin hslot

/-- The `state` of a joystick is no input. -/
theorem says_sendJoystick_pace (c : Controller) (hpace : Core.pace.profile? = some profile)
    (slot : UInt8) (state : Joystick.State) (now : Instant) :
    Says (c.sendJoystick profile slot state now) (Reserved c) := by
  cases hpace
  unfold sendJoystick
  split
  · exact .done ⟨.nil, .refl c⟩
  · next hheld =>
    obtain ⟨hdigital, hextended⟩ := joystick_opcodes slot (UInt8.not_le.1 (not_or.1 hheld).1)
    refine .bind (.bind ((Says.command _ _).mono fun ws _ hws => .done ?_))
    refine .bind ((Says.command _ _).mono fun ws' _ hws' => ?_)
    refine .bind (.done (.done ?_))
    rw [hws, hws']
    exact ⟨((Spares.command hdigital _).append .nil).append
      ((Spares.command hextended _).append (.append .nil .nil)), .refl c⟩

/-- A `port` that is sampled and reported is no input. -/
theorem says_samplePort_pace (c : Controller) (hpace : Core.pace.profile? = some profile)
    (now : Instant) (port : Nat) : Says (c.samplePort profile now port) (Reserved c) := by
  refine .bind ((Says.sample port).mono fun ws state hws => ?_)
  rw [hws]
  generalize c.db9.sample port state = sampled
  obtain ⟨report, db9⟩ := sampled
  have hsampled : Reserved c [.sample port state] { c with db9 } :=
    ⟨.sample port state, rfl, rfl, rfl, rfl⟩
  cases report with
  | none => exact .done hsampled
  | some state =>
    exact (says_sendJoystick_pace _ hpace _ state now).mono fun _ _ hsent => hsampled.trans hsent

theorem says_pollPorts_pace (c : Controller) (hpace : Core.pace.profile? = some profile)
    (now : Instant) : Says (c.pollPorts profile now) (Reserved c) := by
  have hnoted : Reserved c [] c.noteOsd := ⟨.nil, rfl, rfl, rfl, rfl⟩
  refine .bind ((says_samplePort_pace _ hpace now 0).mono fun ws c₁ hfirst => ?_)
  refine .bind ((says_samplePort_pace _ hpace now 1).mono fun ws' c₂ hsecond => .done ?_)
  have hsampled : Reserved c₂ [] { c₂ with db9 := c₂.db9.sampled } := ⟨.nil, rfl, rfl, rfl, rfl⟩
  exact (hnoted.trans hfirst).trans (hsecond.trans hsampled)

/-- A round of the core with joysticks alone sends neither keys nor mouse packets. -/
theorem Deaf.pollInput (h : Deaf c) (hprofile : c.profile? = some profile) (now : Instant) :
    Says (c.pollInput profile now) (Reserved c) := by
  have hpace := h.profile profile hprofile
  have hdisk : c.pollDisk profile = pure c := by
    cases hpace
    rfl
  obtain ⟨hready, hqueue⟩ := Keyboard.Limiter.poll_of_empty h.queue now
  have hlimiter : c.pollLimiter profile now =
      pure { c with limiter := (c.limiter.poll now).2 } := by
    unfold pollLimiter
    generalize c.limiter.poll now = polled at hready
    obtain ⟨ready, limiter⟩ := polled
    cases hready
    rfl
  have hpolled : Alike c { c with limiter := (c.limiter.poll now).2 } :=
    ⟨rfl, rfl, hqueue.trans h.queue.symm, rfl⟩
  obtain ⟨c₁, hemulation, hticked⟩ : ∃ c₁,
      Controller.pollEmulation { c with limiter := (c.limiter.poll now).2 } now = pure c₁ ∧
        Alike c c₁ := by
    obtain ⟨c₁, hrun, halike⟩ := (h.alike hpolled).pollEmulation now
    exact ⟨c₁, hrun, hpolled.trans halike⟩
  have hmouse : c₁.pollMouse profile now = pure c₁ := by
    unfold pollMouse
    rw [(h.alike hticked).mouse]
  unfold Controller.pollInput
  rw [hdisk]
  refine .bind (.done ?_)
  rw [hlimiter]
  refine .bind (.done ?_)
  rw [hemulation]
  refine .bind (.done ?_)
  rw [hmouse]
  refine .bind (.done ?_)
  refine .bind ((says_pollPorts_pace c₁ hpace now).mono fun ws c₂ hports => ?_)
  refine .bind ((says_pollPanel c₂ profile now).mono fun ws' c₃ hpanel => ?_)
  obtain ⟨hbuttons, hrest⟩ := hpanel
  have hpanel : Reserved c₂ ws' c₃ := by
    rw [hrest]
    exact ⟨hbuttons.spares (by decide), rfl, rfl, rfl, rfl⟩
  refine (says_pollLeds c₃ now).mono fun ws'' c' hleds => ?_
  obtain ⟨hstatus, hrest⟩ := hleds
  have hleds : Reserved c₃ ws'' c' := by
    rw [hrest]
    exact ⟨hstatus.spares (by decide), rfl, rfl, rfl, rfl⟩
  have hround : Reserved c [] c₁ := ⟨.nil, hticked⟩
  exact hround.trans (hports.trans (hpanel.trans hleds))

/-! ### A call -/

/-- Nothing is done, or nothing but to check the core, once a `poll`. -/
inductive Idles : Call → Trace Device → Prop where
  | nothing (call : Call) : Idles call []
  | checks (now : Instant) (id extra : UInt8) :
      Idles (.poll now) (Device.traces (checking id extra))

/-- A poll sends no input, and without a profile it does no more than `Idles` says. -/
theorem Deaf.poll (h : Deaf c) (now : Instant) :
    Does (c.poll now) fun ds p => Reserved c (Device.words ds) p.2 ∧
      (c.profile? = none → Idles (.poll now) (Device.traces ds)) := by
  unfold Controller.poll
  by_cases hrestart : c.restart = true
  · rw [if_pos hrestart]
    exact .done ⟨⟨.nil, .refl c⟩, fun _ => .nothing _⟩
  · rw [if_neg hrestart]
    refine .bind ((Core.does_poll c.monitor).mono fun ds p hcheck => ?_)
    obtain ⟨id, extra, rfl, rfl⟩ := hcheck
    have hidentity : (0xff : UInt8) ∉ inputCommands := by decide
    have hchecked : Reserved c (Device.words (checking id extra))
        { c with monitor := (c.monitor.check id).2 } :=
      ⟨.command hidentity [], check_core _ id, rfl, rfl, rfl⟩
    have hidle : Idles (.poll now) (Device.traces (checking id extra ++ [])) := .checks now id extra
    generalize c.monitor.check id = checked at hchecked ⊢
    obtain ⟨check, monitor⟩ := checked
    cases check with
    | reloading | restart => exact .done ⟨hchecked, fun _ => hidle⟩
    | active | mismatch _ =>
      dsimp only
      cases hprofile : ({ c with monitor } : Controller).profile? with
      | none => exact .done ⟨hchecked, fun _ => hidle⟩
      | some profile =>
        have hpoll := (h.alike hchecked.2).pollInput hprofile now
        refine .bind (Program.Spells.mono hpoll fun ds c' hpolled => .done ?_)
        rw [List.append_nil, Device.words_append]
        refine ⟨hchecked.trans hpolled.2, fun hnone => ?_⟩
        rw [← hchecked.2.profile?, hprofile] at hnone
        cases hnone

/-- **What a call does.**  Whatever is called but a start, a deaf controller sends none of the
`inputCommands` and stays deaf; and if the core has no profile, no more is done than `Idles` says.
-/
theorem Deaf.performs (h : Deaf c) {call : Call} (hcall : call ≠ .start) :
    Does (c.perform call) fun ds p => Reserved c (Device.words ds) p.2 ∧
      (c.profile? = none → Idles call (Device.traces ds)) := by
  cases call with
  | start => exact absurd rfl hcall
  | poll now =>
    refine .bind ((h.poll now).mono fun ds p hpolls => .done ?_)
    rwa [List.append_nil]
  | handle input now =>
    obtain ⟨c', hrun, halike⟩ | ⟨profile, index, state, hprofile, hrun⟩ := h.handle input now
    · rw [perform, hrun]
      exact .bind (.done (.done ⟨⟨.nil, halike⟩, fun _ => .nothing _⟩))
    · rw [perform, hrun]
      have hsend := says_sendJoystick_pace c (h.profile profile hprofile)
        (Joystick.usbSlot index) state now
      refine .bind (Program.Spells.mono hsend fun ds c' hsent => .done ?_)
      rw [List.append_nil]
      refine ⟨hsent.2, fun hnone => ?_⟩
      rw [hprofile] at hnone
      cases hnone
  | setOsdVisible visible => exact .done ⟨⟨.nil, rfl, rfl, rfl, rfl⟩, fun _ => .nothing _⟩

/-! ### A life -/

/-- A start leaves a controller `Deaf`, if the core that was found takes neither keys nor a mouse.
-/
theorem deaf_adopt (c : Controller)
    (h : ∀ profile, c.profile? = some profile → Core.pace.profile? = some profile) :
    Deaf c.adopt := by
  refine ⟨h, rfl, rfl, ?_⟩
  change (c.profile?.bind fun p => p.mouse.map fun protocol => ({ protocol } : Mouse.Accumulator)) =
    none
  cases hprofile : c.profile? with
  | none => rfl
  | some profile =>
    cases h profile hprofile
    rfl

/-- A `start` finds the core whose identification byte comes back first. -/
theorem does_start (c : Controller) : Does (c.perform .start) fun ds p =>
    ∃ id ds', ds = .frame .io [(0xff, id)] :: ds' ∧ p.2.monitor.core = Core.ofId id := by
  refine .bind (.bind ((Core.does_detection c.monitor c.disk).mono fun ds p hfound => ?_))
  obtain ⟨id, ds', rfl, hcore, -⟩ := hfound
  refine .done (.done ⟨id, ds', ?_, hcore⟩)
  rw [List.append_nil, List.append_nil]

variable {turns : List Turn} {first : Turn}

/-- Every turn of a life without a start spares the `inputCommands`, and idles on a core without a
profile. -/
theorem Deaf.lives (h : Deaf c) (hlives : Lives c turns c')
    (hcalls : ∀ turn ∈ turns, turn.call ≠ .start) :
    ∀ turn ∈ turns, Spares inputCommands turn.words ∧
      (c.profile? = none → Idles turn.call turn.trace) := by
  refine (hlives.invariant (P := fun past c₁ => Alike c c₁ ∧ ∀ turn ∈ past,
      Spares inputCommands turn.words ∧ (c.profile? = none → Idles turn.call turn.trace))
    ⟨.refl c, fun _ hturn => nomatch hturn⟩ fun past turn hturn c₁ hleaves hpast => ?_).2
  obtain ⟨halike, hpast⟩ := hpast
  obtain ⟨htrace, hreserved, hidles⟩ :=
    ((h.alike halike).performs (hcalls turn hturn)).journal hleaves
  rw [← htrace, halike.profile?] at hidles
  refine ⟨halike.trans hreserved.2, fun turn' hturn' => ?_⟩
  rcases List.mem_append.1 hturn' with hturn' | hturn'
  · exact hpast turn' hturn'
  · obtain rfl := List.mem_singleton.1 hturn'
    exact ⟨hreserved.1, hidles⟩

/-- **A core without a profile is left alone.**  Let a life begin with a start, the turn `first`,
whatever the controller was before, and go on without another.  If the identification byte `id` that
came back is that of a core without a profile, then all that is done from then on, in answer to
whatever reports and calls, is to check the core, by `Idles`: one frame with the identification byte
and one more clock, once a poll.  No sector is read or written, no file is opened, and no service is
asked for anything.  If it is that of the core with joysticks alone, `pace`, no key and no mouse
packet is ever sent: all turns spare the `inputCommands`. -/
theorem silent_from_start (hlives : Lives c (first :: turns) c') (hstart : first.call = .start)
    (hothers : ∀ turn ∈ turns, turn.call ≠ .start) :
    ∃ id ds, first.trace = Device.traces (.frame .io [(0xff, id)] :: ds) ∧
      ((Core.ofId id).profile? = none → ∀ turn ∈ turns, Idles turn.call turn.trace) ∧
      (Core.ofId id = .pace → ∀ turn ∈ first :: turns, Spares inputCommands turn.words) := by
  obtain ⟨rfl, c₁, hleaves, hrest⟩ := lives_cons_iff.1 hlives
  obtain ⟨htrace, htakes⟩ := hleaves.takes
  have hrun : (first.before.perform .start).Run first.trace (first.phase?, c₁) := by
    rw [← hstart]
    exact hleaves
  obtain ⟨-, id, ds, hjournal, hcore⟩ := (does_start first.before).journal hrun
  rw [hstart] at htakes
  have hdeaf (hprofile : ∀ profile, (Core.ofId id).profile? = some profile →
      Core.pace.profile? = some profile) : Deaf c₁ := by
    rw [← hcore] at hprofile
    cases htakes with
    | start => exact deaf_adopt _ hprofile
  refine ⟨id, ds, by rw [← hjournal, ← htrace], fun hnone turn hturn => ?_,
    fun hpace turn hturn => ?_⟩
  · have hdeaf := hdeaf fun profile hprofile => absurd (hnone.symm.trans hprofile) nofun
    exact (hdeaf.lives hrest hothers turn hturn).2 ((congrArg Core.profile? hcore).trans hnone)
  · have hdeaf := hdeaf fun profile hprofile => hpace ▸ hprofile
    rcases List.mem_cons.1 hturn with rfl | hturn
    · cases htakes with
      | start framed within => exact within.spares (by decide)
    · exact (hdeaf.lives hrest hothers turn hturn).1

/-- The keys that reset a core. -/
def resetKeys : Keyboard.Report := .ofKeys (.ofList [.leftCtrl, .leftAlt, .rightAlt]) []

/-- A core that has no profile is started, asked to be reset, and polled. -/
def unserved : List Turn × Controller :=
  (ofSettings {} ⟨64, true⟩).play
    [(.start, answering 0xa0), (.handle (.keyboard 0 resetKeys) 0, answering 0xa0),
      (.setOsdVisible true, answering 0xa0), (.poll 0, answering 0xa0)]

/-- In `unserved` nothing is done but to check the core. -/
theorem silent_from_start_unserved :
    ∃ first turns, unserved.1 = first :: turns ∧
      Lives (ofSettings {} ⟨64, true⟩) (first :: turns) unserved.2 ∧
      ∀ turn ∈ turns, Idles turn.call turn.trace := by
  have hlives : Lives (ofSettings {} ⟨64, true⟩) unserved.1 unserved.2 := lives_play _ _
  have hcalls : unserved.1.map (·.call) =
      [.start, .handle (.keyboard 0 resetKeys) 0, .setOsdVisible true, .poll 0] := play_calls _ _
  have hidentity : unserved.1.head?.map (fun turn => (Device.journal turn.trace).head?) =
      some (some (.frame .io [(0xff, 0xa0)])) := rfl
  obtain ⟨first, turns, hturns⟩ : ∃ first turns, unserved.1 = first :: turns := ⟨_, _, rfl⟩
  rw [hturns] at hlives hcalls hidentity
  obtain ⟨hstart, hrest⟩ := List.cons.inj hcalls
  have hothers : ∀ turn ∈ turns, turn.call ≠ .start := by
    intro turn hturn
    have hcall := List.mem_map_of_mem (f := (·.call)) hturn
    rw [hrest] at hcall
    intro hagain
    rw [hagain] at hcall
    simp at hcall
  obtain ⟨id, ds, htrace, hidle, -⟩ := silent_from_start hlives hstart hothers
  rw [List.head?_cons, Option.map_some, htrace, Device.journal_traces] at hidentity
  cases hidentity
  exact ⟨first, turns, hturns, hlives, hidle rfl⟩

end Controller

end IoController
