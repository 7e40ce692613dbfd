import IoController.Controller.Input
import IoController.Proofs.Bits
import IoController.Proofs.Keyboard.Queueing
import IoController.Proofs.Link.Traffic

/-!
# Controller — Speech

Which reports of USB devices have the controller say something to the core, and which do not.

* `Controller.speaks`: in a closed form, whether a report is followed by a frame on the link.
* `Controller.sends_handle`: it is right, whatever the surroundings answer.
-/

namespace IoController

open Link (Sends)

namespace Controller

variable {c c' : Controller} {profile : Profile} {now : Instant}

/-! ### What is said -/

/-- Whether the key `code` goes out at once.  A key that waits for the limited link does not. -/
def keySpeaks (c : Controller) (profile : Profile) (now : Instant) (code : Keyboard.KeyCode)
    (make : Bool) : Bool :=
  match profile.keyboard with
  | .amiga | .ikbd | .archie => c.limiter.isFree now
  | .ps2 => !(code.ps2 make).isEmpty
  | .none => false

/-- Whether the mouse `buttons` go out as keys. -/
def mouseSpeaks (c : Controller) (profile : Profile) (now : Instant) (buttons : UInt8) : Bool :=
  profile.mouse = some .archie && c.limiter.isFree now && !(c.mouseKeys.update buttons).1.isEmpty

/-- Whether the state of `slot` goes out. -/
def joystickSpeaks (c : Controller) (slot : UInt8) : Bool :=
  slot < Joystick.slotCount && !c.router.osdVisible

/-- Whether an event has something said to the core at `now`. -/
def eventSpeaks (c : Controller) (now : Instant) : Event → Bool
  | .key code make => c.profile?.any fun profile => c.keySpeaks profile now code make
  | .mouse buttons _ _ => c.profile?.any fun profile => c.mouseSpeaks profile now buttons
  | .joystick port _ => c.profile?.isSome && c.joystickSpeaks (c.portSlot port)
  | _ => false

/-- Whether a report has something said to the core at `now`. -/
def speaks (c : Controller) (now : Instant) : UsbReport → Bool
  | .keyboard priority report =>
    let (events, router) := c.router.receive report priority now
    events.any ({ c with router }.eventSpeaks now)
  | .mouse buttons dx dy => c.eventSpeaks now (.mouse buttons dx dy)
  | .joystick index _ => c.profile?.isSome && c.joystickSpeaks (Joystick.usbSlot index)
  | .joystickCount _ => false

/-- Only the limiter has changed, and if nothing was said, `u` being empty, it is as free as it was.
-/
structure Sent (now : Instant) (said : Bool) (c : Controller) (u : List Link.Request)
    (c' : Controller) : Prop where
  traffic : u = [] ↔ said = false
  rest : c' = { c with limiter := c'.limiter }
  limiter : u = [] → c'.limiter.isFree now = c.limiter.isFree now

/-- What can be said next is as before, unless something was `said`. -/
structure Heard (now : Instant) (said : Bool) (c : Controller) (u : List Link.Request)
    (c' : Controller) : Prop where
  traffic : u = [] ↔ said = false
  monitor : c'.monitor = c.monitor
  events : u = [] → ∀ event, c'.eventSpeaks now event = c.eventSpeaks now event

variable {said said' : Bool} {u v : List Link.Request} {c₁ c₂ : Controller}

theorem Sent.silent (c : Controller) : Sent now false c [] c := ⟨by simp, rfl, fun _ => rfl⟩

theorem Sent.spoken (c : Controller) (hu : u ≠ []) : Sent now true c u c :=
  ⟨by simp [hu], rfl, fun hnone => absurd hnone hu⟩

theorem Sent.trans (h : Sent now said c u c₁) (h' : Sent now said' c₁ v c₂) :
    Sent now (said || said') c (u ++ v) c₂ where
  traffic := by rw [List.append_eq_nil_iff, Bool.or_eq_false_iff, h.traffic, h'.traffic]
  rest := by rw [h'.rest, h.rest]
  limiter hnone := by
    obtain ⟨hu, hv⟩ := List.append_eq_nil_iff.1 hnone
    exact (h'.limiter hv).trans (h.limiter hu)

/-- A frame `v` that is sent in any case. -/
theorem Sent.command (h : ∃ said, Sent now said c u c') (hv : v ≠ []) :
    Sent now true c (u ++ v) c' := by
  obtain ⟨said, hsent⟩ := h
  have hne : u ++ v ≠ [] := List.append_ne_nil_of_right_ne_nil u hv
  exact ⟨by simp [hne], hsent.rest, fun hnone => absurd hnone hne⟩

theorem Heard.trans (h : Heard now said c u c₁) (h' : Heard now said' c₁ v c₂) :
    Heard now (said || said') c (u ++ v) c₂ where
  traffic := by rw [List.append_eq_nil_iff, Bool.or_eq_false_iff, h.traffic, h'.traffic]
  monitor := h'.monitor.trans h.monitor
  events hnone event := by
    obtain ⟨hu, hv⟩ := List.append_eq_nil_iff.1 hnone
    exact (h'.events hv event).trans (h.events hu event)

/-- Where only the limiter has changed (`Sent`), the same can be said next. -/
theorem Sent.heard (h : Sent now said c u c') : Heard now said c u c' where
  traffic := h.traffic
  monitor := by rw [h.rest]
  events hnone event := by
    have hfree := h.limiter hnone
    have hrest := h.rest
    -- of the limiter only `isFree` has a part in what is said
    generalize c'.limiter = limiter at hfree hrest
    subst hrest
    cases event with
    | key code make => simp only [eventSpeaks, profile?, keySpeaks, hfree]
    | mouse buttons dx dy => simp only [eventSpeaks, profile?, mouseSpeaks, hfree]
    | _ => rfl

theorem sends_spoken (c : Controller) (opcode : UInt8) (payload : Bytes) (now : Instant) :
    Sends (do
      Link.command opcode payload
      pure c) (Sent now true c) := by
  refine .bind ((Link.sends_command opcode payload).mono fun u _ hu => .done ?_)
  rw [hu, List.append_nil]
  exact .spoken c (Link.framing_ne_nil _ _)

/-! ### Keys -/

/-- A `value` that comes through the limiter is said. -/
theorem sends_sendLimited (profile : Profile) (value : UInt16) :
    Sends (sendLimited profile value) fun u _ => u ≠ [] :=
  (Link.sends_command _ _).mono fun _ _ hframe => hframe ▸ Link.framing_ne_nil _ _

/-- A `value` for the limiter is said if the link is free. -/
theorem sends_submit (c : Controller) (profile : Profile) (value : UInt16) (now : Instant) :
    Sends (c.submit profile value now) (Sent now (c.limiter.isFree now) c) := by
  unfold submit
  cases hfree : c.limiter.isFree now with
  | true =>
    rw [Keyboard.Limiter.submit_of_free hfree]
    refine .bind ((sends_sendLimited profile value).mono fun u _ hu => .done ?_)
    rw [List.append_nil]
    exact ⟨by simp [hu], rfl, fun hnone => absurd hnone hu⟩
  | false =>
    obtain ⟨hnone, hbusy⟩ := Keyboard.Limiter.submit_of_busy hfree value
    generalize c.limiter.submit value now = submitted at hnone hbusy ⊢
    obtain ⟨ready, limiter⟩ := submitted
    dsimp only at hnone hbusy
    subst hnone
    refine .bind (.done (.done ?_))
    exact ⟨by simp, rfl, fun _ => hbusy.trans hfree.symm⟩

/-- A key is said if it `keySpeaks`. -/
theorem sends_sendKey (c : Controller) (profile : Profile) (code : Keyboard.KeyCode) (make : Bool)
    (now : Instant) :
    Sends (c.sendKey profile code make now) (Sent now (c.keySpeaks profile now code make) c) := by
  unfold sendKey keySpeaks
  cases profile.keyboard with
  | amiga => exact sends_submit c profile _ now
  | ikbd => exact sends_submit c profile _ now
  | archie => exact sends_submit c profile _ now
  | ps2 =>
    dsimp only
    by_cases hempty : (code.ps2 make).isEmpty = true
    · rw [if_pos hempty, hempty]
      exact .done (.silent c)
    · rw [if_neg hempty, Bool.eq_false_iff.2 hempty]
      exact sends_spoken c _ _ now
  | none => exact .done (.silent c)

theorem sends_submitBytes (c : Controller) (profile : Profile) (now : Instant) (bytes : Bytes) :
    Sends (c.submitBytes profile now bytes) fun u c' => ∃ said, Sent now said c u c' := by
  induction bytes generalizing c with
  | nil => exact .done ⟨false, .silent c⟩
  | cons b bytes ih =>
    refine .bind ((sends_submit c profile _ now).mono fun u c₁ hfirst => ?_)
    refine (ih c₁).mono fun v c₂ hrest => ?_
    obtain ⟨said, hrest⟩ := hrest
    exact ⟨_, hfirst.trans hrest⟩

/-! ### Joysticks -/

/-- The digital `state` of a `slot` may be said or not, as it may have to wait. -/
theorem sends_sendJoystickState (c : Controller) (profile : Profile) (slot : UInt8)
    (state : Joystick.State) (now : Instant) :
    Sends (c.sendJoystickState profile slot state now) fun u c' =>
      ∃ said, Sent now said c u c' := by
  unfold sendJoystickState
  split
  · exact sends_submitBytes c profile now _
  · exact (sends_spoken c _ _ now).mono fun _ _ hsent => ⟨true, hsent⟩

/-- The joystick of a `slot` is never passed over: its last command goes out in any case. -/
theorem sends_sendJoystick (c : Controller) (profile : Profile) (slot : UInt8)
    (state : Joystick.State) (now : Instant) :
    Sends (c.sendJoystick profile slot state now) (Sent now (c.joystickSpeaks slot) c) := by
  unfold sendJoystick joystickSpeaks
  by_cases hheld : Joystick.slotCount ≤ slot ∨ c.router.osdVisible = true
  · rw [if_pos hheld]
    have hsilent : (decide (slot < Joystick.slotCount) && !c.router.osdVisible) = false := by
      rcases hheld with hslot | hvisible
      · rw [decide_eq_false (UInt8.not_lt.2 hslot), Bool.false_and]
      · rw [hvisible, Bool.not_true, Bool.and_false]
    rw [hsilent]
    exact .done (.silent c)
  · rw [if_neg hheld]
    obtain ⟨hslot, hvisible⟩ := not_or.1 hheld
    have hsaid : (decide (slot < Joystick.slotCount) && !c.router.osdVisible) = true := by
      rw [decide_eq_true (UInt8.not_le.1 hslot), Bool.eq_false_iff.2 hvisible]
      rfl
    rw [hsaid]
    refine .bind ((sends_sendJoystickState c profile slot state now).mono fun u c₁ hstate => ?_)
    refine .bind ((Link.sends_command _ _).mono fun v _ hextended => ?_)
    have hframe : v ≠ [] := hextended ▸ Link.framing_ne_nil _ _
    split
    · refine .bind ((Link.sends_command _ _).mono fun w _ _ => .done ?_)
      exact Sent.command hstate (List.append_ne_nil_of_left_ne_nil hframe _)
    · refine .bind (.done (.done ?_))
      rw [List.append_nil, List.append_nil]
      exact Sent.command hstate hframe

/-! ### Mouse -/

/-- Only the Archimedes takes mouse buttons as keys, and it takes them over the limited link. -/
theorem keyboard_of_mouse (hprofile : c.profile? = some profile)
    (hmouse : profile.mouse = some .archie) : profile.keyboard = .archie := by
  unfold profile? Core.Monitor.profile? at hprofile
  cases hcore : c.monitor.core with
  | archimedes =>
    rw [hcore] at hprofile
    cases hprofile
    rfl
  | _ =>
    rw [hcore] at hprofile
    cases hprofile <;> cases hmouse

/-- On the Archimedes every key is said if the link is free (`isFree`). -/
theorem keySpeaks_archie (c : Controller) (hkeyboard : profile.keyboard = .archie)
    (code : Keyboard.KeyCode) (make : Bool) :
    c.keySpeaks profile now code make = c.limiter.isFree now := by
  rw [keySpeaks, hkeyboard]

/-- On the Archimedes the buttons are said if there are any `keys` and the link is free. -/
theorem sends_sendMouseKeys (c : Controller) (hkeyboard : profile.keyboard = .archie)
    (now : Instant) (keys : List (UInt8 × Bool)) :
    Sends (c.sendMouseKeys profile now keys)
      (Sent now (c.limiter.isFree now && !keys.isEmpty) c) := by
  induction keys generalizing c with
  | nil =>
    rw [List.isEmpty_nil, Bool.not_true, Bool.and_false]
    exact .done (.silent c)
  | cons key keys ih =>
    obtain ⟨number, make⟩ := key
    rw [List.isEmpty_cons, Bool.not_false, Bool.and_true]
    refine .bind ((sends_sendKey c profile _ make now).mono fun u c₁ hfirst => ?_)
    refine (ih c₁).mono fun v c₂ hrest => ?_
    rw [keySpeaks_archie c hkeyboard] at hfirst
    have hboth := hfirst.trans hrest
    cases hfree : c.limiter.isFree now with
    | true =>
      rw [hfree, Bool.true_or] at hboth
      exact hboth
    | false =>
      -- a key that waits leaves the link busy, so those after it wait too
      have hbusy := hfirst.limiter (hfirst.traffic.2 hfree)
      rw [hfree] at hbusy
      rw [hfree, hbusy, Bool.false_and, Bool.or_false] at hboth
      exact hboth

end Controller

namespace Mouse.ButtonKeys

/-- The `buttons` that change no key leave the next report the same changes. -/
theorem update_of_nil {b : ButtonKeys} {buttons : UInt8} (h : (b.update buttons).1 = [])
    (later : UInt8) : ((b.update buttons).2.update later).1 = (b.update later).1 := by
  have hsame : ∀ key ∈ keys, b.last &&& key.1 = buttons &&& key.1 := by
    intro key hkey
    have hnone := List.filter_eq_nil_iff.1 (List.map_eq_nil_iff.1 h) key hkey
    have hzero : (b.last ^^^ buttons) &&& key.1 = 0 := by simpa using hnone
    rw [xor_and] at hzero
    exact UInt8.xor_eq_zero_iff.1 hzero
  have hchanges : ∀ key ∈ keys,
      ((buttons ^^^ later) &&& key.1 != 0) = ((b.last ^^^ later) &&& key.1 != 0) := by
    intro key hkey
    rw [xor_and, xor_and, hsame key hkey]
  exact congrArg (List.map _) (List.filter_congr hchanges)

end Mouse.ButtonKeys

namespace Controller

variable {c c' : Controller} {profile : Profile} {now : Instant}

/-- The `buttons` that change no key, or keys that would have to wait, leave what can be said next
as it was. -/
theorem eventSpeaks_of_buttons {buttons : UInt8}
    (h : c.limiter.isFree now = false ∨ (c.mouseKeys.update buttons).1 = []) (event : Event) :
    ({ c with mouseKeys := (c.mouseKeys.update buttons).2 } : Controller).eventSpeaks now event =
      c.eventSpeaks now event := by
  cases event with
  | mouse later dx dy =>
    simp only [eventSpeaks, profile?, mouseSpeaks]
    rcases h with hbusy | hnone
    · simp only [hbusy, Bool.and_false, Bool.false_and]
    · rw [Mouse.ButtonKeys.update_of_nil hnone]
  | _ => rfl

/-- Mouse movement waits for a packet; `buttons` may go out as keys. -/
theorem sends_moveMouse (hprofile : c.profile? = some profile) (buttons : UInt8) (dx dy : Int8)
    (now : Instant) :
    Sends (c.moveMouse profile buttons dx dy now)
      (Heard now (c.mouseSpeaks profile now buttons) c) := by
  unfold moveMouse mouseSpeaks
  by_cases hmouse : profile.mouse = some .archie
  · rw [if_pos hmouse, decide_eq_true hmouse, Bool.true_and]
    have hkeyboard := keyboard_of_mouse hprofile hmouse
    refine .bind ((sends_sendMouseKeys _ hkeyboard now _).mono fun u c₁ hkeys => .done ?_)
    rw [List.append_nil]
    refine ⟨hkeys.traffic, by rw [hkeys.rest], fun hnone event => ?_⟩
    have hquiet := Bool.and_eq_false_iff.1 (hkeys.traffic.1 hnone)
    have hbuttons : c.limiter.isFree now = false ∨ (c.mouseKeys.update buttons).1 = [] := by
      rcases hquiet with hbusy | hempty
      · exact .inl hbusy
      · exact .inr (List.isEmpty_iff.1 ((Bool.not_eq_false' _).mp hempty))
    calc _ = c₁.eventSpeaks now event := by cases event <;> rfl
      _ = _ := hkeys.heard.events hnone event
      _ = c.eventSpeaks now event := eventSpeaks_of_buttons hbuttons event
  · rw [if_neg hmouse, decide_eq_false hmouse, Bool.false_and, Bool.false_and]
    refine .bind (.done (.done ⟨by simp, rfl, fun _ event => ?_⟩))
    cases event <;> rfl

/-! ### Events -/

/-- Nothing is said, and nothing changes that has a part in what can be said next. -/
theorem Heard.silent (hmonitor : c'.monitor = c.monitor)
    (hevents : ∀ event, c'.eventSpeaks now event = c.eventSpeaks now event) :
    Heard now false c [] c' := ⟨by simp, hmonitor, fun _ => hevents⟩

/-- A service around the controller is asked a `request`, which the core does not hear. -/
theorem sends_told (request : Host.Request) (h : Heard now false c [] c') :
    Sends (Host.request request >>= fun _ => pure c') (Heard now false c) := by
  refine .bind ((Link.sends_host request).mono fun u _ hu => .done ?_)
  rw [hu]
  exact h

/-- A `request` for a reset that is granted is not said to the core. -/
theorem sends_reset (c : Controller) (request : Reset) (now : Instant) :
    Sends (c.reset request) (Heard now false c) := by
  cases request with
  | firmware =>
    refine .done (.silent rfl fun event => ?_)
    cases event <;> rfl
  | core held =>
    unfold reset
    dsimp only
    split
    · exact sends_told _ (.silent rfl fun _ => rfl)
    · exact .bind (.done (.done (.silent rfl fun _ => rfl)))

theorem sends_setLeds (c : Controller) (locks : Keyboard.Locks) (on : Bool) (now : Instant) :
    Sends (c.setLeds locks on) (Heard now false c) := by
  unfold setLeds
  generalize c.leds.set locks on = set
  obtain ⟨forward, leds⟩ := set
  have hheard : Heard now false c [] { c with leds } := by
    refine .silent rfl fun event => ?_
    cases event <;> rfl
  dsimp only
  split
  · exact sends_told _ hheard
  · exact .bind (.done (.done hheard))

/-- An event is said if it `eventSpeaks`. -/
theorem sends_handleEvent (c : Controller) (event : Event) (now : Instant) :
    Sends (c.handleEvent event now) (Heard now (c.eventSpeaks now event) c) := by
  unfold handleEvent
  cases event with
  | reset request => exact sends_reset c request now
  | osdKey code => exact sends_told _ (.silent rfl fun _ => rfl)
  | osdVisible visible => exact sends_told _ (.silent rfl fun _ => rfl)
  | leds locks on => exact sends_setLeds c locks on now
  | key code make =>
    dsimp only [eventSpeaks]
    cases hprofile : c.profile? with
    | none => exact .done (.silent rfl fun _ => rfl)
    | some profile =>
      exact (sends_sendKey c profile code make now).mono fun _ _ hsent => hsent.heard
  | mouse buttons dx dy =>
    dsimp only [eventSpeaks]
    cases hprofile : c.profile? with
    | none => exact .done (.silent rfl fun _ => rfl)
    | some profile => exact sends_moveMouse hprofile buttons dx dy now
  | joystick port state =>
    dsimp only [eventSpeaks]
    cases hprofile : c.profile? with
    | none => exact .done (.silent rfl fun _ => rfl)
    | some profile =>
      exact (sends_sendJoystick c profile _ state now).mono fun _ _ hsent => hsent.heard

/-- Of several `events`, those before the first that has something said change nothing for it. -/
theorem sends_handleEvents (c : Controller) (now : Instant) (events : List Event) :
    Sends (c.handleEvents now events) (Heard now (events.any (c.eventSpeaks now)) c) := by
  induction events generalizing c with
  | nil => exact .done (.silent rfl fun _ => rfl)
  | cons event events ih =>
    refine .bind ((sends_handleEvent c event now).mono fun u c₁ hfirst => ?_)
    refine (ih c₁).mono fun v c₂ hrest => ?_
    have hboth := hfirst.trans hrest
    rw [List.any_cons]
    cases hsaid : c.eventSpeaks now event with
    | true =>
      rw [hsaid, Bool.true_or] at hboth
      exact hboth
    | false =>
      -- the events that follow are looked at as if this one had not been there
      have hsame : c₁.eventSpeaks now = c.eventSpeaks now :=
        funext (hfirst.events (hfirst.traffic.2 hsaid))
      rw [hsaid, hsame] at hboth
      exact hboth

/-- **What a report says.**  A report of a USB device is followed by traffic on the link just when
it `speaks`, and leaves alone what is known of the core. -/
theorem sends_handle (c : Controller) (input : UsbReport) (now : Instant) :
    Sends (c.handle input now) fun u c' =>
      (u = [] ↔ c.speaks now input = false) ∧ c'.monitor = c.monitor := by
  unfold handle speaks
  cases input with
  | keyboard priority report =>
    dsimp only
    generalize c.router.receive report priority now = received
    obtain ⟨events, router⟩ := received
    have hevents := sends_handleEvents { c with router } now events
    exact hevents.mono fun _ _ h => ⟨h.traffic, h.monitor⟩
  | mouse buttons dx dy =>
    exact (sends_handleEvent c _ now).mono fun _ _ h => ⟨h.traffic, h.monitor⟩
  | joystick index state =>
    dsimp only
    cases hprofile : c.profile? with
    | none => exact .done ⟨by simp, rfl⟩
    | some profile =>
      refine (sends_sendJoystick c profile _ state now).mono fun _ _ h => ⟨h.traffic, ?_⟩
      rw [h.rest]
  | joystickCount count => exact .done ⟨by simp, rfl⟩

end Controller

end IoController
