import IoController.Controller.Poll
import IoController.Proofs.Disk.Protocol

/-!
# Controller — Talking

What a controller does to talk to a core, joysticks and the front panel apart, and what it leaves
alone meanwhile.

* `Controller.Keeps`: every deed of an action satisfies a condition, and something that is read off
  the controller is after it what it was before.
* `Controller.IsTalking`: the condition admits what talking is made of, and nothing is read that
  talking changes.  Then each way to talk keeps it, which is said once for all such conditions.
-/

namespace IoController.Controller

open Device (Deed Does Only)

variable {β : Type} {P : Deed → Prop} {f : Controller → β} {c c' : Controller} {profile : Profile}

/-! ### Actions that leave something alone -/

/-- Every deed of the action `p` satisfies `P`, and `f` reads the same off the controller after it
as off `c`. -/
def Keeps (P : Deed → Prop) (f : Controller → β) (c : Controller) (p : Action Controller) : Prop :=
  Does p fun ds c' => (∀ d ∈ ds, P d) ∧ f c' = f c

namespace Keeps

variable {p : Action Controller} {next : Controller → Action Controller}

theorem done (h : f c' = f c) : Keeps P f c (.done c') :=
  Program.Spells.done ⟨fun _ hd => (nomatch hd), h⟩

theorem bind (hp : Keeps P f c p) (hnext : ∀ c₁, Keeps P f c₁ (next c₁)) :
    Keeps P f c (p >>= next) := by
  refine Program.Spells.bind (hp.mono fun ds c₁ h => (hnext c₁).mono fun ds' c₂ h' => ?_)
  exact ⟨List.forall_mem_append.2 ⟨h.1, h'.1⟩, h'.2.trans h.2⟩

/-- Something that comes to no controller comes first. -/
theorem after {α : Type} {p : Action α} {next : α → Action Controller} (hp : Only P p)
    (hnext : ∀ a, Keeps P f c (next a)) : Keeps P f c (p >>= next) := by
  refine Program.Spells.bind (hp.mono fun ds a h => (hnext a).mono fun ds' c' h' => ?_)
  exact ⟨List.forall_mem_append.2 ⟨h, h'.1⟩, h'.2⟩

/-- Of the controller before it only what `f` reads counts. -/
theorem of_eq (h : Keeps P f c' p) (heq : f c' = f c) : Keeps P f c p :=
  h.mono fun _ _ hkeeps => ⟨hkeeps.1, hkeeps.2.trans heq⟩

end Keeps

/-! ### Talking -/

/-- The commands that keys and mouse packets are sent by, and the question for the LEDs. -/
def talkVocabulary (profile : Profile) : List UInt8 :=
  [0x04, 0x05, 0x06, 0x1f] ++ if profile.keyboard = .ikbd then [0x02] else []

/-- The condition `P` admits what talking is made of, and `f` reads nothing that talking changes. -/
structure IsTalking (profile : Profile) (P : Deed → Prop) (f : Controller → β) : Prop where
  disk : Disk.VirtualCard.IsPolling P
  setLeds (locks : Keyboard.Locks) (on : Bool) (reply : Host.Reply (.setLeds locks on)) :
    P (.host (.setLeds locks on) reply)
  command {opcode : UInt8} (known : opcode ∈ talkVocabulary profile) {payload : Bytes}
    {bytes : List (UInt8 × UInt8)} (sent : bytes.map (·.1) = opcode :: payload) :
    P (.frame .io bytes)
  state (c : Controller) (disk : Disk.VirtualCard) (limiter : Keyboard.Limiter)
    (mouse : Option Mouse.Accumulator) (mouseKeys : Mouse.ButtonKeys) (leds : Keyboard.Leds) :
    f { c with disk, limiter, mouse, mouseKeys, leds } = f c

namespace IsTalking

variable (h : IsTalking profile P f)
include h

/-- A command of the `talkVocabulary`. -/
theorem keeps_command (c : Controller) {opcode : UInt8} (known : opcode ∈ talkVocabulary profile)
    (payload : Bytes) : Keeps P f c (do
      Link.command opcode payload
      pure c) := .after (Only.command fun _ => h.command known) fun _ => .done rfl

/-- A `value` that comes through the limiter is talking. -/
theorem only_sendLimited (value : UInt16) : Only P (sendLimited profile value) := by
  refine Only.command fun _ => h.command ?_
  cases hkeyboard : profile.keyboard with
  | amiga =>
    dsimp only
    split <;> simp [talkVocabulary, Link.Opcode.osdKeyboard, Link.Opcode.keyboard]
  | ikbd => simp [talkVocabulary, hkeyboard, Link.Opcode.ikbd, Link.Opcode.joystick0]
  | _ => simp [talkVocabulary, Link.Opcode.keyboard]

theorem keeps_submit (c : Controller) (value : UInt16) (now : Instant) :
    Keeps P f c (c.submit profile value now) := by
  unfold submit
  generalize c.limiter.submit value now = submitted
  obtain ⟨ready, limiter⟩ := submitted
  have hlimiter : f { c with limiter } = f c := h.state c _ _ _ _ _
  cases ready with
  | none => exact .after (.done ()) fun _ => .done hlimiter
  | some value => exact .after (h.only_sendLimited value) fun _ => .done hlimiter

theorem keeps_submitBytes (c : Controller) (now : Instant) (bytes : Bytes) :
    Keeps P f c (c.submitBytes profile now bytes) := by
  induction bytes generalizing c with
  | nil => exact .done rfl
  | cons b bytes ih => exact (h.keeps_submit c _ now).bind ih

theorem keeps_sendKey (c : Controller) (code : Keyboard.KeyCode) (make : Bool) (now : Instant) :
    Keeps P f c (c.sendKey profile code make now) := by
  unfold sendKey
  cases profile.keyboard with
  | amiga => exact h.keeps_submit c _ now
  | ikbd => exact h.keeps_submit c _ now
  | archie => exact h.keeps_submit c _ now
  | ps2 =>
    dsimp only
    split
    · exact .done rfl
    · exact h.keeps_command c (by simp [talkVocabulary, Link.Opcode.keyboard]) _
  | none => exact .done rfl

/-- A mouse `packet` is talking. -/
theorem keeps_sendMouse (c : Controller) (packet : Bytes) (now : Instant) :
    Keeps P f c (c.sendMouse profile packet now) := by
  unfold sendMouse
  split
  · exact h.keeps_submitBytes c now packet
  · exact h.keeps_command c (by simp [talkVocabulary, Link.Opcode.mouse]) packet

/-- Buttons that go as `keys` are talking. -/
theorem keeps_sendMouseKeys (c : Controller) (now : Instant) (keys : List (UInt8 × Bool)) :
    Keeps P f c (c.sendMouseKeys profile now keys) := by
  induction keys generalizing c with
  | nil => exact .done rfl
  | cons key keys ih => exact (h.keeps_sendKey c _ key.2 now).bind ih

theorem keeps_moveMouse (c : Controller) (buttons : UInt8) (dx dy : Int8) (now : Instant) :
    Keeps P f c (c.moveMouse profile buttons dx dy now) := by
  have hmoved (c₁ : Controller) :
      Keeps P f c₁ (.done { c₁ with mouse := c₁.mouse.map (·.add buttons dx dy) }) :=
    .done (h.state c₁ _ _ _ _ _)
  unfold moveMouse
  split
  · exact Keeps.bind (.of_eq (h.keeps_sendMouseKeys _ now _) (h.state c _ _ _ _ _)) hmoved
  · exact Keeps.bind (.done rfl) hmoved

/-! ### Parts of a round -/

theorem keeps_pollDisk (c : Controller) : Keeps P f c (c.pollDisk profile) := by
  unfold pollDisk
  split
  · exact .after (h.disk.poll c.disk) fun polled => .done (h.state c polled.2 _ _ _ _)
  · exact .done rfl

theorem keeps_pollLimiter (c : Controller) (now : Instant) :
    Keeps P f c (c.pollLimiter profile now) := by
  unfold pollLimiter
  generalize c.limiter.poll now = polled
  obtain ⟨ready, limiter⟩ := polled
  have hlimiter : f { c with limiter } = f c := h.state c _ _ _ _ _
  cases ready with
  | none => exact .after (.done ()) fun _ => .done hlimiter
  | some value => exact .after (h.only_sendLimited value) fun _ => .done hlimiter

theorem keeps_pollMouse (c : Controller) (now : Instant) :
    Keeps P f c (c.pollMouse profile now) := by
  unfold pollMouse
  cases c.mouse with
  | none => exact .done rfl
  | some mouse =>
    dsimp only
    generalize mouse.poll now = polled
    obtain ⟨packet, mouse⟩ := polled
    have hmouse : f { c with mouse := some mouse } = f c := h.state c _ _ _ _ _
    cases packet with
    | none => exact .done hmouse
    | some packet => exact .of_eq (h.keeps_sendMouse _ packet now) hmouse

theorem only_showLeds (changes : List (Keyboard.Lock × Bool)) : Only P (showLeds changes) := by
  induction changes with
  | nil => exact .done ()
  | cons change changes ih => exact .bind (.host (h.setLeds _ _)) fun _ => ih

theorem keeps_pollLeds (c : Controller) (now : Instant) : Keeps P f c (c.pollLeds now) := by
  unfold pollLeds
  generalize c.leds.due now = asked
  obtain ⟨due, leds⟩ := asked
  dsimp only
  split
  · refine .after (Only.query ((Device.clocks_transfer _).mono fun _ _ _ => trivial) fun back _ =>
      h.command (by simp [talkVocabulary, Link.Opcode.ledStatus]) rfl) fun byte => ?_
    exact .after (h.only_showLeds _) fun _ => .done (h.state c _ _ _ _ _)
  · exact .done (h.state c _ _ _ _ _)

end IsTalking

end IoController.Controller
