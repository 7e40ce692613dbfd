import IoController.Proofs.Controller.Rounds
import IoController.Proofs.Controller.Talking
import IoController.Proofs.Keyboard.Visibility

/-!
# Controller — Visibility

What the OSD is told of its being open, and what the controller takes it to be.

* `Device.announced`: what a trace tells the OSD, in order.
* `Controller.Still`: an action tells the OSD nothing and leaves the keyboard's router alone.  Most
  of what a controller does is of this kind.
* `Controller.TellsOsd`: what an action tells the OSD goes by turns, from what the controller took
  it to be before to what it takes it to be after.  Every part of a call is of this kind.
* `Controller.visibility_told`: over a whole life the two never come apart.
-/

namespace IoController

open Device (Deed Does Only)
open Keyboard (Turns visibilities)

/-! ### What the OSD is told -/

namespace Device

variable {α β : Type}

/-- What the exchange `x` tells the OSD. -/
def visible? (x : Exchange Device) : Option Bool :=
  match x.request with
  | .host (.osdVisible visible) => some visible
  | _ => none

/-- What the trace `t` tells the OSD, in order. -/
def announced (t : Trace Device) : List Bool := t.filterMap visible?

theorem announced_append (t t' : Trace Device) :
    announced (t ++ t') = announced t ++ announced t' := List.filterMap_append

/-- What every run of the action `p` tells the OSD satisfies `Q` together with its result. -/
def Announces (p : Action α) (Q : List Bool → α → Prop) : Prop :=
  ∀ t a, p.Run t a → Q (announced t) a

namespace Announces

variable {p : Action α} {f : α → Action β} {Q Q' : List Bool → α → Prop} {R : List Bool → β → Prop}

theorem done {a : α} (h : Q [] a) : Announces (.done a) Q := by
  intro t b hrun
  obtain ⟨rfl, rfl⟩ := Program.run_done_iff.1 hrun
  exact h

theorem bind (h : Announces p fun vs a => Announces (f a) fun vs' b => R (vs ++ vs') b) :
    Announces (p >>= f) R := by
  intro t b hrun
  obtain ⟨t₁, t₂, a, rfl, hfirst, hrest⟩ := Program.run_bind_iff.1 hrun
  rw [announced_append]
  exact h t₁ a hfirst t₂ b hrest

/-- What is told satisfies whatever follows from `Q`. -/
theorem mono (h : Announces p Q) (himp : ∀ vs a, Q vs a → Q' vs a) : Announces p Q' :=
  fun t a hrun => himp _ a (h t a hrun)

theorem announce (visible : Bool) :
    Announces (Host.request (.osdVisible visible)) fun vs _ => vs = [visible] := by
  intro t a hrun
  obtain rfl := Program.run_request_iff.1 hrun
  rfl

end Announces

/-- The deed `d` tells the OSD nothing. -/
def Deed.Unsaid (d : Deed) : Prop := announced d.trace = []

theorem Deed.unsaid_frame (target : Link.Target) (bytes : List (UInt8 × UInt8)) :
    (Deed.frame target bytes).Unsaid := by
  have hclocks : announced (clocks bytes) = [] := by
    refine List.filterMap_eq_nil_iff.2 fun x hx => ?_
    obtain ⟨b, -, hb⟩ := List.mem_flatMap.1 hx
    rw [List.mem_singleton.1 hb]
    rfl
  change announced ([_] ++ (clocks bytes ++ [_])) = []
  rw [announced_append, announced_append, hclocks]
  rfl

theorem announced_traces {ds : List Deed} (h : ∀ d ∈ ds, d.Unsaid) :
    announced (traces ds) = [] :=
  List.filterMap_flatMap.trans (List.flatMap_eq_nil_iff.2 h)

theorem Announces.nothing {p : Action α} (h : Only Deed.Unsaid p) :
    Announces p fun vs _ => vs = [] := by
  intro t a hrun
  obtain ⟨ds, rfl, hds⟩ := h t a hrun
  exact announced_traces hds

/-- A service that is not told about the OSD. -/
theorem unsaid_host {r : Host.Request} (h : ∀ reply, visible? ⟨.host r, reply⟩ = none) :
    Only Deed.Unsaid (Host.request r) := .host fun reply => List.filterMap_cons_none (h reply)

theorem unsaid_command (opcode : UInt8) (payload : Bytes) :
    Only Deed.Unsaid (Link.command opcode payload) :=
  .command fun _ _ => Deed.unsaid_frame _ _

/-- The detection of a core (`detect`) tells the OSD nothing. -/
theorem unsaid_detect (m : Core.Monitor) (card : Disk.VirtualCard) :
    Only Deed.Unsaid (m.detect card) :=
  Core.IsDetecting.detect ⟨fun _ _ => rfl, fun _ => Deed.unsaid_frame _ _,
    fun _ _ _ _ => Deed.unsaid_frame _ _⟩ m card

/-- Nor does a check of the core. -/
theorem unsaid_monitorPoll (m : Core.Monitor) : Only Deed.Unsaid m.poll := by
  refine (Core.does_poll m).mono fun ds p hds d hd => ?_
  obtain ⟨id, extra, rfl, -⟩ := hds
  rcases List.mem_pair.1 hd with rfl | rfl <;> rfl

end Device

open Device (Announces announced announced_traces unsaid_command unsaid_detect unsaid_host
  unsaid_monitorPoll)

namespace Controller

variable {c c' : Controller} {profile : Profile} {now : Instant}

/-! ### What tells the OSD nothing -/

/-- The action `p` tells the OSD nothing and leaves the router as the controller had it. -/
abbrev Still (c : Controller) (p : Action Controller) : Prop := Keeps Deed.Unsaid router c p

/-- What is `Still` announces nothing. -/
theorem Keeps.announces {p : Action Controller} (h : Still c p) :
    Announces p fun vs c' => vs = [] ∧ c'.router = c.router := by
  intro t c' hrun
  obtain ⟨ds, rfl, hds, hrouter⟩ := h t c' hrun
  exact ⟨announced_traces hds, hrouter⟩

theorem isTalking_unsaid (profile : Profile) : IsTalking profile Deed.Unsaid router where
  disk := ⟨fun _ hd => Disk.Cache.of_isStorage (P := Deed.Unsaid) (fun _ _ => rfl) (fun _ _ => rfl)
    hd, fun _ => rfl, fun _ => rfl, fun _ _ _ _ => Deed.unsaid_frame _ _⟩
  setLeds _ _ _ := rfl
  command _ _ _ _ := Deed.unsaid_frame _ _
  state _ _ _ _ _ _ := rfl

theorem still_sendJoystick (c : Controller) (profile : Profile) (slot : UInt8)
    (state : Joystick.State) (now : Instant) :
    Still c (c.sendJoystick profile slot state now) := by
  have hstate : Still c (c.sendJoystickState profile slot state now) := by
    unfold sendJoystickState
    split
    · exact (isTalking_unsaid profile).keeps_submitBytes c now _
    · exact .after (unsaid_command _ _) fun _ => .done rfl
  unfold sendJoystick
  split
  · exact .done rfl
  · refine hstate.bind fun c₁ => .after (unsaid_command _ _) fun _ => ?_
    split
    · exact .after (unsaid_command _ _) fun _ => .done rfl
    · exact .after (.done ()) fun _ => .done rfl

theorem still_reset (c : Controller) (request : Reset) : Still c (c.reset request) := by
  cases request with
  | firmware => exact .done rfl
  | core held =>
    unfold reset
    dsimp only
    split
    · exact .after (unsaid_host fun _ => rfl) fun _ => .done rfl
    · exact .after (.done ()) fun _ => .done rfl

theorem still_setLeds (c : Controller) (locks : Keyboard.Locks) (on : Bool) :
    Still c (c.setLeds locks on) := by
  unfold setLeds
  generalize c.leds.set locks on = set
  obtain ⟨forward, leds⟩ := set
  dsimp only
  split
  · exact .after (unsaid_host fun _ => rfl) fun _ => .done rfl
  · exact .after (.done ()) fun _ => .done rfl

/-! ### Events -/

/-- An `event` tells the OSD what it says of it, and the router has it already. -/
theorem announces_handleEvent (c : Controller) (event : Event) (now : Instant) :
    Announces (c.handleEvent event now) fun vs c' =>
      vs = event.visible?.toList ∧ c'.router = c.router := by
  unfold handleEvent
  cases event with
  | reset request => exact (still_reset c request).announces
  | osdKey code =>
    exact Keeps.announces (.after (unsaid_host fun _ => rfl) fun _ => .done rfl)
  | osdVisible visible =>
    refine .bind ((Announces.announce visible).mono fun vs _ hvs => .done ?_)
    rw [hvs]
    exact ⟨rfl, rfl⟩
  | leds locks on => exact (still_setLeds c locks on).announces
  | key code make =>
    dsimp only
    cases c.profile? with
    | none => exact .done ⟨rfl, rfl⟩
    | some profile => exact ((isTalking_unsaid profile).keeps_sendKey c code make now).announces
  | mouse buttons dx dy =>
    dsimp only
    cases c.profile? with
    | none => exact .done ⟨rfl, rfl⟩
    | some profile =>
      exact ((isTalking_unsaid profile).keeps_moveMouse c buttons dx dy now).announces
  | joystick port state =>
    dsimp only
    cases c.profile? with
    | none => exact .done ⟨rfl, rfl⟩
    | some profile => exact (still_sendJoystick c profile _ state now).announces

/-- The `events` tell it what they say of it, in their order. -/
theorem announces_handleEvents (c : Controller) (now : Instant) (events : List Event) :
    Announces (c.handleEvents now events) fun vs c' =>
      vs = visibilities events ∧ c'.router = c.router := by
  induction events generalizing c with
  | nil => exact .done ⟨rfl, rfl⟩
  | cons event events ih =>
    refine .bind ((announces_handleEvent c event now).mono fun vs c₁ hfirst => ?_)
    refine (ih c₁).mono fun vs' c₂ hrest => ⟨?_, hrest.2.trans hfirst.2⟩
    rw [hfirst.1, hrest.1]
    cases event with
    | osdVisible visible => rfl
    | _ => rfl

/-! ### What the OSD is told goes by turns -/

/-- What the action tells the OSD goes by turns, from what the controller `c` took it to be to what
the one after the action takes it to be. -/
def TellsOsd (c : Controller) (p : Action Controller) : Prop :=
  Announces p fun vs c' => Turns c.router.osdVisible vs c'.router.osdVisible

/-- What is `Still` changes nothing. -/
theorem Keeps.tellsOsd {p : Action Controller} (h : Still c p) : TellsOsd c p := by
  refine h.announces.mono fun vs c' hstill => ?_
  rw [hstill.1, hstill.2]
  exact .nil

/-- Nothing is done, and the `router` is as it was. -/
theorem tellsOsd_done (h : c'.router = c.router) : TellsOsd c (.done c') :=
  Keeps.tellsOsd (.done h)

theorem TellsOsd.bind {p : Action Controller} {f : Controller → Action Controller}
    (hp : TellsOsd c p) (hf : ∀ c₁, TellsOsd c₁ (f c₁)) : TellsOsd c (p >>= f) :=
  Announces.bind (hp.mono fun _ c₁ h => (hf c₁).mono fun _ _ h' => h.append h')

/-- Something quiet (`Deed.Unsaid`) that comes to no controller comes first. -/
theorem TellsOsd.after {α : Type} {p : Action α} {f : α → Action Controller}
    (hp : Only Deed.Unsaid p) (hf : ∀ a, TellsOsd c (f a)) : TellsOsd c (p >>= f) := by
  refine Announces.bind ((Announces.nothing hp).mono fun vs a h => (hf a).mono fun vs' c' h' => ?_)
  rwa [h]

/-- The `input` of a keyboard opens and closes the OSD by turns. -/
theorem tellsOsd_handle (c : Controller) (input : UsbReport) (now : Instant) :
    TellsOsd c (c.handle input now) := by
  unfold handle
  cases input with
  | keyboard priority report =>
    have hturns := c.router.receive_visible report priority now
    dsimp only
    generalize c.router.receive report priority now = received at hturns ⊢
    obtain ⟨events, router⟩ := received
    refine Announces.mono (announces_handleEvents { c with router } now events) fun vs c' h => ?_
    rw [h.1, h.2]
    exact hturns
  | mouse buttons dx dy =>
    refine (announces_handleEvent c (.mouse buttons dx dy) now).mono fun vs c' h => ?_
    rw [h.1, h.2]
    exact .nil
  | joystick index state =>
    dsimp only
    cases c.profile? with
    | none => exact tellsOsd_done rfl
    | some profile => exact (still_sendJoystick c profile _ state now).tellsOsd
  | joystickCount count => exact tellsOsd_done rfl

/-! ### A round -/

/-- The emulated mouse moves, which the OSD is not told. -/
theorem tellsOsd_pollEmulation (c : Controller) (now : Instant) :
    TellsOsd c (c.pollEmulation now) := by
  have hunsaid : visibilities (c.router.tick now).1.toList = [] := by
    refine Keyboard.visibilities_eq_nil fun event hevent => ?_
    obtain ⟨buttons, dx, dy, rfl⟩ := c.router.tick_mouse now event (Option.mem_toList.1 hevent)
    rfl
  have hvisible : (c.router.tick now).2.osdVisible = c.router.osdVisible := by
    rw [Keyboard.Router.tick_router]
  unfold pollEmulation
  generalize c.router.tick now = ticked at hunsaid hvisible ⊢
  obtain ⟨event, router⟩ := ticked
  refine Announces.mono (announces_handleEvents { c with router } now _) fun vs c' h => ?_
  rw [h.1, hunsaid, h.2, hvisible]
  exact .nil

/-- A `port` that is sampled tells the OSD nothing. -/
theorem still_samplePort (c : Controller) (profile : Profile) (now : Instant) (port : Nat) :
    Still c (c.samplePort profile now port) := by
  refine .after (unsaid_host fun _ => rfl) fun state => ?_
  generalize c.db9.sample port state = sampled
  obtain ⟨report, db9⟩ := sampled
  cases report with
  | none => exact .done rfl
  | some state => exact .of_eq (still_sendJoystick _ profile _ state now) rfl

theorem still_pollPorts (c : Controller) (profile : Profile) (now : Instant) :
    Still c (c.pollPorts profile now) :=
  (Keeps.of_eq (still_samplePort c.noteOsd profile now 0) rfl).bind fun c₁ =>
    (still_samplePort c₁ profile now 1).bind fun _ => .done rfl

/-- A click of the menu button opens or closes the OSD, and says so. -/
theorem tellsOsd_menuClick (c : Controller) : TellsOsd c c.menuClick := by
  refine Announces.bind ((Announces.announce _).mono fun vs _ hvs => .done ?_)
  rw [hvs]
  exact .cons .nil

/-- The front panel opens and closes the OSD by turns. -/
theorem tellsOsd_pollPanel (c : Controller) (profile : Profile) (now : Instant) :
    TellsOsd c (c.pollPanel profile now) := by
  unfold pollPanel
  split
  · refine .after (unsaid_host fun _ => rfl) fun panel => ?_
    dsimp only
    generalize c.buttons.update panel _ now = updated
    obtain ⟨update, buttons⟩ := updated
    have hclick : TellsOsd c (if update.menuClick = true then
        { c with nextPanel := some (now + panelInterval), buttons }.menuClick
        else pure { c with nextPanel := some (now + panelInterval), buttons }) := by
      split
      · exact tellsOsd_menuClick _
      · exact tellsOsd_done rfl
    cases update.send with
    | none => exact .after (.done ()) fun _ => hclick
    | some map => exact .after (unsaid_command _ _) fun _ => hclick
  · exact tellsOsd_done rfl

theorem tellsOsd_pollInput (c : Controller) (profile : Profile) (now : Instant) :
    TellsOsd c (c.pollInput profile now) :=
  have h := isTalking_unsaid profile
  (h.keeps_pollDisk c).tellsOsd.bind fun c =>
    (h.keeps_pollLimiter c now).tellsOsd.bind fun c =>
      (tellsOsd_pollEmulation c now).bind fun c =>
        (h.keeps_pollMouse c now).tellsOsd.bind fun c =>
          (still_pollPorts c profile now).tellsOsd.bind fun c =>
            (tellsOsd_pollPanel c profile now).bind fun c => (h.keeps_pollLeds c now).tellsOsd

/-- What a `poll` tells the OSD goes by turns. -/
theorem announces_poll (c : Controller) (now : Instant) :
    Announces (c.poll now) fun vs p => Turns c.router.osdVisible vs p.2.router.osdVisible := by
  unfold poll
  split
  · exact .done .nil
  · refine .bind ((Announces.nothing (unsaid_monitorPoll c.monitor)).mono fun vs p hvs => ?_)
    rw [hvs]
    obtain ⟨check, monitor⟩ := p
    cases check with
    | reloading | restart => exact .done .nil
    | active | mismatch =>
      dsimp only
      split
      · exact .done .nil
      · refine .bind ((tellsOsd_pollInput _ _ now).mono fun vs c' h => .done ?_)
        rwa [List.append_nil]

/-! ### A life -/

/-- Work: a round of the loop, or a report of a USB device. -/
def Call.isWork : Call → Prop
  | .poll _ | .handle .. => True
  | .start | .setOsdVisible _ => False

theorem announces_perform (c : Controller) {call : Call} (hcall : call.isWork) :
    Announces (c.perform call) fun vs p =>
      Turns c.router.osdVisible vs p.2.router.osdVisible := by
  cases call with
  | start => exact hcall.elim
  | setOsdVisible visible => exact hcall.elim
  | poll now =>
    refine .bind ((announces_poll c now).mono fun vs p h => .done ?_)
    rwa [List.append_nil]
  | handle input now =>
    refine .bind ((tellsOsd_handle c input now).mono fun vs c' h => .done ?_)
    rwa [List.append_nil]

/-- A controller that was started takes the OSD to be closed (`osdVisible`), and has said nothing of
it. -/
theorem announces_start (c : Controller) :
    Announces (c.perform .start) fun vs p => vs = [] ∧ p.2.router.osdVisible = false := by
  refine .bind (.bind ((Announces.nothing (unsaid_detect c.monitor c.disk)).mono fun vs p hvs =>
    .done (.done ?_)))
  rw [hvs]
  exact ⟨rfl, rfl⟩

/-- What the `turns` of a life tell the OSD, in order. -/
def osdTold (turns : List Turn) : List Bool := turns.flatMap fun turn => announced turn.trace

/-- Over a life of work the OSD is told by `turns`. -/
theorem Lives.turns {turns : List Turn} (h : Lives c turns c')
    (hcalls : ∀ turn ∈ turns, turn.call.isWork) :
    Turns c.router.osdVisible (osdTold turns) c'.router.osdVisible := by
  refine h.invariant (P := fun turns c' =>
    Turns c.router.osdVisible (osdTold turns) c'.router.osdVisible) .nil
    fun past turn hturn c₁ hleaves hpast => ?_
  have hturns := announces_perform turn.before (hcalls turn hturn) _ _ hleaves
  have hboth := hpast.append hturns
  rwa [osdTold, List.flatMap_append, List.flatMap_singleton]

/-- **The OSD is told how it is.**  Whatever core is found, and whatever keys, panel states and
times there are, let a controller be started, by the turn `first`, and from then on polled and given
reports in any order (`isWork`).  Afterwards the OSD was last told (`osdTold`) what the controller
takes it to be, closed if it was told nothing, and whatever it is told is the opposite of what it
was told before. -/
theorem visibility_told {first : Turn} {turns : List Turn} (hlives : Lives c (first :: turns) c')
    (hstart : first.call = .start) (hcalls : ∀ turn ∈ turns, turn.call.isWork) :
    (osdTold (first :: turns)).getLastD false = c'.router.osdVisible ∧
      (false :: osdTold (first :: turns)).IsChain (· ≠ ·) := by
  obtain ⟨rfl, c₁, hleaves, hrest⟩ := lives_cons_iff.1 hlives
  have hfirst := announces_start first.before first.trace (first.phase?, c₁) (hstart ▸ hleaves)
  have hturns := hrest.turns hcalls
  rw [osdTold, List.flatMap_cons, hfirst.1, List.nil_append]
  rw [hfirst.2] at hturns
  exact ⟨hturns.getLastD, hturns.isChain⟩

/-- Surroundings in which the menu button is down. -/
def menuDown (byte : UInt8) : (r : Device.Request) → Device.Reply r
  | .host .readPanel => .single .menu
  | r => answering byte r

/-- On the Atari two keys that open and close the OSD go down at once, and then the menu button is
clicked. -/
def opened : List Turn × Controller :=
  (ofSettings {} ⟨64, true⟩).play
    [(.start, answering 0xa3), (.handle (.keyboard 0 (.ofKeys ∅ [0x45, 0x65])) 0, answering 0xa3),
      (.poll 0, menuDown 0xa3), (.poll 25000, answering 0xa3)]

/-- In `opened` the OSD is opened and closed by the keys, and opened again by the click. -/
theorem visibility_told_opened :
    ∃ first turns, Lives (ofSettings {} ⟨64, true⟩) (first :: turns) opened.2 ∧
      first.call = .start ∧ (∀ turn ∈ turns, turn.call.isWork) ∧
      osdTold (first :: turns) = [true, false, true] ∧ opened.2.router.osdVisible = true := by
  have hlives : Lives (ofSettings {} ⟨64, true⟩) opened.1 opened.2 := lives_play _ _
  have hcalls : opened.1.map (·.call) = [.start,
      .handle (.keyboard 0 (.ofKeys ∅ [0x45, 0x65])) 0, .poll 0, .poll 25000] := play_calls _ _
  have htold : osdTold opened.1 = [true, false, true] := by decide +kernel
  obtain ⟨first, turns, hturns⟩ : ∃ first turns, opened.1 = first :: turns := ⟨_, _, rfl⟩
  rw [hturns] at hlives hcalls htold
  obtain ⟨hstart, hrest⟩ := List.cons.inj hcalls
  have hwork : ∀ turn ∈ turns, turn.call.isWork := by
    intro turn hturn
    have hcall := List.mem_map_of_mem (f := (·.call)) hturn
    rw [hrest] at hcall
    simp only [List.mem_cons, List.not_mem_nil, or_false] at hcall
    rcases hcall with hcall | hcall | hcall <;> rw [hcall] <;> trivial
  obtain ⟨hlast, -⟩ := visibility_told hlives hstart hwork
  rw [htold] at hlast
  exact ⟨first, turns, hlives, hstart, hwork, htold, hlast.symm⟩

end Controller

end IoController
