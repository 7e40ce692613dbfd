import IoController.Proofs.Controller.Atari
import IoController.Proofs.Controller.Talking
import IoController.Proofs.Controller.UsbJoysticks
import IoController.Proofs.Controller.Vacancies

/-!
# Controller — Slots

Which controllers' frames go to which slot of the core.

* `Device.Word.slot?`: the slot that a command is about.
* `Device.Parted`: what is said after the sample of a joystick port is about the slot of that port.
  `Controller.does_parted_poll`: so it is in every poll.
* `Controller.Source`: a joystick port, or a USB joystick; `Controller.Turn.addressed`: the frames
  of a turn, each with the source that it comes from.
* `Controller.slotOf_eq_iff`: two sources have one slot just if port 0 keeps slot 0 by preference
  and the other has it too.
* `Controller.slots_shared_iff`: over a whole life the frames of two sources go to one slot just in
  that case.
-/

namespace IoController

open Device (Deed Does Says Word)

/-! ### Slots in common -/

namespace Joystick

variable {count index : UInt8} {preferDb9 : Bool}

/-- The joystick ports have one of the core's slots in common just if port 0 keeps slot 0
(`preferDb9`) beside a single USB joystick. -/
theorem portSlot_zero_eq_one_iff
    (h : portSlot 0 count preferDb9 < slotCount ∨ portSlot 1 count preferDb9 < slotCount) :
    portSlot 0 count preferDb9 = portSlot 1 count preferDb9 ↔ preferDb9 = true ∧ count = 1 := by
  unfold portSlot slotCount at *
  grind

/-- Port 0 has the slot of a USB joystick `index` that was counted just if it keeps slot 0 and that
is the second one. -/
theorem portSlot_zero_eq_usbSlot_iff (hindex : index < count) :
    portSlot 0 count preferDb9 = usbSlot index ↔ preferDb9 = true ∧ index = 1 := by
  cases preferDb9 with
  | false => simp [portSlot_ne_usbSlot hindex]
  | true =>
    have hfirst : usbSlot index = usbSlot 1 ↔ index = 1 :=
      usbSlot_involutive.injective.eq_iff
    unfold portSlot
    grind [usbSlot]

/-- Port 1 goes by no preference, `preferDb9` or not. -/
theorem portSlot_one_ne_usbSlot (hindex : index < count) (preferDb9 : Bool) :
    portSlot 1 count preferDb9 ≠ usbSlot index := portSlot_ne_usbSlot hindex 1

end Joystick

/-! ### What a command is about -/

namespace Device

/-- The slots that cores have. -/
def slots : List UInt8 := [0, 1, 2, 3, 4, 5]

/-- The slot whose command `opcode` is.  A core that takes the first two joysticks over its keyboard
link takes that link's bytes where others take joystick 0. -/
def slotOf? (ikbdJoysticks : Bool) (opcode : UInt8) : Option UInt8 :=
  slots.find? fun slot => opcode == Link.Opcode.joystickExtended + slot ||
    (opcode == Controller.joystickOpcode slot && !(ikbdJoysticks && slot < 2))

/-- The slot that a command is about, on a core that has `ikbdJoysticks` or not. -/
def Word.slot? (ikbdJoysticks : Bool) : Word → Option UInt8
  | .command (opcode :: payload) =>
    if opcode = Link.Opcode.analogJoystick then payload.head? else slotOf? ikbdJoysticks opcode
  | _ => none

variable {ikbdJoysticks : Bool} {slot : UInt8} {ws ws' : List Word}

theorem slotOf?_extended (ikbdJoysticks : Bool) (h : slot < Joystick.slotCount) :
    slotOf? ikbdJoysticks (Link.Opcode.joystickExtended + slot) = some slot ∧
      Link.Opcode.joystickExtended + slot ≠ Link.Opcode.analogJoystick :=
  (by decide +kernel : ∀ (b : Bool) (i : Fin 256), UInt8.ofFin i < Joystick.slotCount →
    slotOf? b (Link.Opcode.joystickExtended + .ofFin i) = some (.ofFin i) ∧
      Link.Opcode.joystickExtended + .ofFin i ≠ Link.Opcode.analogJoystick)
    ikbdJoysticks slot.toFin h

theorem slotOf?_digital (h : slot < Joystick.slotCount)
    (hlink : (ikbdJoysticks && slot < 2) = false) :
    slotOf? ikbdJoysticks (Controller.joystickOpcode slot) = some slot ∧
      Controller.joystickOpcode slot ≠ Link.Opcode.analogJoystick :=
  (by decide +kernel : ∀ (b : Bool) (i : Fin 256), UInt8.ofFin i < Joystick.slotCount →
    (b && decide (UInt8.ofFin i < 2)) = false →
    slotOf? b (Controller.joystickOpcode (.ofFin i)) = some (.ofFin i) ∧
      Controller.joystickOpcode (.ofFin i) ≠ Link.Opcode.analogJoystick)
    ikbdJoysticks slot.toFin h hlink

/-- No joystick port is sampled, and what is said in `ws` is about the one `slot`. -/
structure About (ikbdJoysticks : Bool) (slot : UInt8) (ws : List Word) : Prop where
  samples : samples ws = []
  frames : ∀ s ∈ ws.filterMap (Word.slot? ikbdJoysticks), s = slot ∧ s < Joystick.slotCount

theorem About.nil : About ikbdJoysticks slot [] := ⟨rfl, fun _ hs => nomatch hs⟩

theorem About.append (h : About ikbdJoysticks slot ws) (h' : About ikbdJoysticks slot ws') :
    About ikbdJoysticks slot (ws ++ ws') where
  samples := by rw [samples_append, h.samples, h'.samples]; rfl
  frames := by
    rw [List.filterMap_append]
    exact List.forall_mem_append.2 ⟨h.frames, h'.frames⟩

theorem About.command {opcode : UInt8} {payload : Bytes} (hslot : slot < Joystick.slotCount)
    (h : (Word.command (opcode :: payload)).slot? ikbdJoysticks = some slot) :
    About ikbdJoysticks slot [.command (opcode :: payload)] where
  samples := rfl
  frames s hs := by
    rw [List.filterMap_cons_some h, List.filterMap_nil, List.mem_singleton] at hs
    exact ⟨hs, hs ▸ hslot⟩

/-- No joystick port is sampled, and what is said in `ws` is about no slot. -/
structure Apart (ikbdJoysticks : Bool) (ws : List Word) : Prop where
  samples : samples ws = []
  frames : ws.filterMap (Word.slot? ikbdJoysticks) = []

theorem Apart.nil : Apart ikbdJoysticks [] := ⟨rfl, rfl⟩

theorem Apart.append (h : Apart ikbdJoysticks ws) (h' : Apart ikbdJoysticks ws') :
    Apart ikbdJoysticks (ws ++ ws') where
  samples := by rw [samples_append, h.samples, h'.samples]; rfl
  frames := by rw [List.filterMap_append, h.frames, h'.frames]; rfl

theorem Apart.about (h : Apart ikbdJoysticks ws) : About ikbdJoysticks slot ws where
  samples := h.samples
  frames s hs := by
    rw [h.frames] at hs
    exact absurd hs List.not_mem_nil

/-- The deed `d` is no byte clocked outside a frame, no sample of a joystick port, and about no
slot. -/
structure Deed.Unaddressed (ikbdJoysticks : Bool) (d : Deed) : Prop where
  framed : d.isFramed = true
  word : ∀ w ∈ d.word?, ∃ sent, w = .command sent ∧ w.slot? ikbdJoysticks = none

theorem Deed.unaddressed_of_silent {d : Deed} (hframed : d.isFramed = true)
    (hword : d.word? = none) : d.Unaddressed ikbdJoysticks :=
  ⟨hframed, fun w hw => by rw [hword] at hw; cases hw⟩

theorem Deed.unaddressed_frame {opcode : UInt8} {payload : Bytes} {bytes : List (UInt8 × UInt8)}
    (hslot : slotOf? ikbdJoysticks opcode = none) (hanalog : opcode ≠ Link.Opcode.analogJoystick)
    (sent : bytes.map (·.1) = opcode :: payload) :
    (Deed.frame .io bytes).Unaddressed ikbdJoysticks where
  framed := rfl
  word w hw := by
    obtain rfl : Word.command (bytes.map (·.1)) = w := Option.some.inj hw
    rw [sent]
    exact ⟨_, rfl, (if_neg hanalog).trans hslot⟩

theorem apart_words {ds : List Deed} (h : ∀ d ∈ ds, d.Unaddressed ikbdJoysticks) :
    Apart ikbdJoysticks (words ds) := by
  have hword : ∀ w ∈ words ds, ∃ sent, w = .command sent ∧ w.slot? ikbdJoysticks = none := by
    intro w hw
    obtain ⟨d, hd, hword⟩ := List.mem_filterMap.1 hw
    exact (h d hd).word w hword
  refine ⟨List.filterMap_eq_nil_iff.2 fun w hw => ?_, List.filterMap_eq_nil_iff.2 fun w hw => ?_⟩
  · obtain ⟨sent, rfl, -⟩ := hword w hw
    rfl
  · obtain ⟨-, -, hslot⟩ := hword w hw
    exact hslot

/-! ### What follows a sample -/

/-- The commands, each with the joystick port that was sampled last before it. -/
def bySample : Option Nat → List Word → List (Nat × Word)
  | _, [] => []
  | _, .sample port _ :: ws => bySample (some port) ws
  | some port, w :: ws => (port, w) :: bySample (some port) ws
  | none, _ :: ws => bySample none ws

/-- Where no port is sampled, in `ws`, the commands are of the port that was sampled before, if any
was. -/
theorem bySample_append (h : samples ws = []) (port? : Option Nat) (ws' : List Word) :
    bySample port? (ws ++ ws') =
      ws.filterMap (fun w => port?.map (·, w)) ++ bySample port? ws' := by
  induction ws with
  | nil => rfl
  | cons w ws ih =>
    cases w with
    | sample port state => cases h
    | command sent =>
      have hrest := ih h
      cases port? with
      | none => exact hrest
      | some port => exact congrArg ((port, Word.command sent) :: ·) hrest

theorem bySample_none (h : samples ws = []) (ws' : List Word) :
    bySample none (ws ++ ws') = bySample none ws' := by
  rw [bySample_append h]
  simp

/-- If one was, they are of that `port`. -/
theorem bySample_some (h : samples ws = []) (port : Nat) (ws' : List Word) :
    bySample (some port) (ws ++ ws') = ws.map (port, ·) ++ bySample (some port) ws' := by
  rw [bySample_append h]
  simp

/-- The joystick ports were not sampled, and what is said is about no slot (`unsampled`); or they
were sampled one after the other, and what is said after each sample is about the slot of that port
(`sampled`). -/
inductive Parted (ikbdJoysticks : Bool) (portSlot : UInt8 → UInt8) : List Word → Prop where
  | unsampled {ws : List Word} (apart : Apart ikbdJoysticks ws) : Parted ikbdJoysticks portSlot ws
  | sampled {ws ws₀ ws₁ : List Word} (s₀ s₁ : Joystick.State) (apart : Apart ikbdJoysticks ws)
      (first : About ikbdJoysticks (portSlot 0) ws₀)
      (second : About ikbdJoysticks (portSlot 1) ws₁) :
      Parted ikbdJoysticks portSlot (ws ++ .sample 0 s₀ :: (ws₀ ++ .sample 1 s₁ :: ws₁))

namespace Parted

variable {portSlot : UInt8 → UInt8}

theorem after (h : Parted ikbdJoysticks portSlot ws') (hws : Apart ikbdJoysticks ws) :
    Parted ikbdJoysticks portSlot (ws ++ ws') := by
  cases h with
  | unsampled apart => exact .unsampled (hws.append apart)
  | sampled s₀ s₁ apart first second =>
    rw [← List.append_assoc]
    exact .sampled s₀ s₁ (hws.append apart) first second

theorem before (h : Parted ikbdJoysticks portSlot ws) (hws' : Apart ikbdJoysticks ws') :
    Parted ikbdJoysticks portSlot (ws ++ ws') := by
  cases h with
  | unsampled apart => exact .unsampled (apart.append hws')
  | @sampled ws ws₀ ws₁ s₀ s₁ apart first second =>
    have hsplit : (ws ++ Word.sample 0 s₀ :: (ws₀ ++ .sample 1 s₁ :: ws₁)) ++ ws' =
        ws ++ Word.sample 0 s₀ :: (ws₀ ++ .sample 1 s₁ :: (ws₁ ++ ws')) := by simp
    rw [hsplit]
    exact .sampled s₀ s₁ apart first (second.append hws'.about)

/-- Every frame about a slot follows the sample of a port that has that slot, by `bySample`. -/
theorem follows (h : Parted ikbdJoysticks portSlot ws) :
    ws.filterMap (Word.slot? ikbdJoysticks) =
        (bySample none ws).filterMap (·.2.slot? ikbdJoysticks) ∧
      ∀ follows ∈ bySample none ws, ∀ slot ∈ follows.2.slot? ikbdJoysticks,
        follows.1 < Joystick.portCount ∧ slot = portSlot (.ofNat follows.1) ∧
          slot < Joystick.slotCount := by
  cases h with
  | unsampled apart =>
    have hfollows : bySample none (ws ++ []) = [] := bySample_none apart.samples []
    rw [List.append_nil] at hfollows
    rw [hfollows, apart.frames]
    exact ⟨rfl, fun _ hmem => nomatch hmem⟩
  | @sampled ws ws₀ ws₁ s₀ s₁ apart first second =>
    have hfollows : bySample none (ws ++ .sample 0 s₀ :: (ws₀ ++ .sample 1 s₁ :: ws₁)) =
        ws₀.map (0, ·) ++ ws₁.map (1, ·) := by
      have hlast : bySample (some 1) (ws₁ ++ []) = ws₁.map (1, ·) ++ [] :=
        bySample_some second.samples 1 []
      rw [List.append_nil, List.append_nil] at hlast
      rw [bySample_none apart.samples]
      change bySample (some 0) (ws₀ ++ .sample 1 s₁ :: ws₁) = _
      rw [bySample_some first.samples]
      exact congrArg (ws₀.map (0, ·) ++ ·) hlast
    have hsample (port : Nat) (state : Joystick.State) :
        (Word.sample port state).slot? ikbdJoysticks = none := rfl
    have habout (port : Nat) (hport : port < Joystick.portCount) {ws : List Word}
        (about : About ikbdJoysticks (portSlot (.ofNat port)) ws) :
        ∀ follows ∈ ws.map (port, ·), ∀ slot ∈ follows.2.slot? ikbdJoysticks,
          follows.1 < Joystick.portCount ∧ slot = portSlot (.ofNat follows.1) ∧
            slot < Joystick.slotCount :=
      List.forall_mem_map.2 fun word hword slot hslot =>
        ⟨hport, about.frames slot (List.mem_filterMap.2 ⟨word, hword, hslot⟩)⟩
    rw [hfollows]
    refine ⟨?_, List.forall_mem_append.2
      ⟨habout 0 (by decide) first, habout 1 (by decide) second⟩⟩
    rw [List.filterMap_append, apart.frames, List.filterMap_cons_none (hsample 0 s₀),
      List.filterMap_append, List.filterMap_cons_none (hsample 1 s₁), List.filterMap_append,
      List.filterMap_map, List.filterMap_map]
    rfl

end Parted

end Device

open Device (About Apart Parted bySample slotOf?)

namespace Controller

variable {c c' c₀ : Controller} {profile : Profile} {now : Instant} {turns : List Turn}
  {turn : Turn}

/-! ### What is about no slot -/

/-- Whether the first two joysticks go over the keyboard link of the core of `c`. -/
def ikbdJoysticks (c : Controller) : Bool := c.profile?.any (·.ikbdJoysticks)

theorem ikbdJoysticks_eq (hprofile : c.profile? = some profile) :
    c.ikbdJoysticks = profile.ikbdJoysticks := by
  rw [ikbdJoysticks, hprofile]
  rfl

/-- A core with the Atari's keyboard link takes joysticks over it too (`ikbdJoysticks`). -/
theorem ikbdJoysticks_of_ikbd (hprofile : c.profile? = some profile)
    (hkeyboard : profile.keyboard = .ikbd) : profile.ikbdJoysticks = true := by
  rw [profile?, Core.Monitor.profile?] at hprofile
  cases hcore : c.monitor.core with
  | unknown | dumb =>
    rw [hcore] at hprofile
    cases hprofile
  | atariSt =>
    rw [hcore] at hprofile
    cases hprofile
    rfl
  | _ =>
    rw [hcore] at hprofile
    cases hprofile
    cases hkeyboard

/-- Keys, mouse packets and the question for the LEDs (`talkVocabulary`) are about no slot. -/
theorem slotOf?_talk (hprofile : c.profile? = some profile) {opcode : UInt8}
    (h : opcode ∈ talkVocabulary profile) :
    slotOf? profile.ikbdJoysticks opcode = none ∧ opcode ≠ Link.Opcode.analogJoystick := by
  have hothers (ikbdJoysticks : Bool) : ∀ opcode ∈ [0x04, 0x05, 0x06, 0x1f],
      slotOf? ikbdJoysticks opcode = none ∧ opcode ≠ Link.Opcode.analogJoystick := by
    cases ikbdJoysticks <;> decide +kernel
  rcases List.mem_append.1 h with hother | hlink
  · exact hothers _ opcode hother
  · by_cases hkeyboard : profile.keyboard = .ikbd
    · rw [if_pos hkeyboard] at hlink
      rw [ikbdJoysticks_of_ikbd hprofile hkeyboard, List.mem_singleton.1 hlink]
      decide +kernel
    · rw [if_neg hkeyboard] at hlink
      exact absurd hlink List.not_mem_nil

/-- What the slots of `c` go by: the core's profile, and the slots of the joystick ports. -/
def slotting (c : Controller) : Option Profile × (UInt8 → UInt8) := (c.profile?, c.portSlot)

/-- Talking is `Unaddressed`, about no slot, and leaves alone what the slots go by (`slotting`). -/
theorem isTalking_unaddressed (hprofile : c.profile? = some profile) :
    IsTalking profile (Deed.Unaddressed profile.ikbdJoysticks) slotting where
  disk := by
    have hdisk : ∀ opcode ∈ Disk.VirtualCard.pollVocabulary, ∀ ikbdJoysticks,
        slotOf? ikbdJoysticks opcode = none ∧ opcode ≠ Link.Opcode.analogJoystick := by
      decide +kernel
    refine ⟨fun d hd => ?_, fun _ => Deed.unaddressed_of_silent rfl rfl,
      fun _ => Deed.unaddressed_of_silent rfl rfl, fun {opcode} known _ _ sent => ?_⟩
    · exact Disk.Cache.of_isStorage (P := Deed.Unaddressed profile.ikbdJoysticks)
        (fun _ _ => Deed.unaddressed_of_silent rfl rfl)
        (fun _ _ => Deed.unaddressed_of_silent rfl rfl) hd
    · obtain ⟨hslot, hanalog⟩ := hdisk opcode known profile.ikbdJoysticks
      exact Deed.unaddressed_frame hslot hanalog sent
  setLeds _ _ _ := Deed.unaddressed_of_silent rfl rfl
  command known _ _ sent := by
    obtain ⟨hslot, hanalog⟩ := slotOf?_talk hprofile known
    exact Deed.unaddressed_frame hslot hanalog sent
  state _ _ _ _ _ _ := rfl

/-- The action `p` says nothing about any slot, and leaves alone what the slots go by. -/
abbrev Unslotted (c : Controller) (profile : Profile) (p : Action Controller) : Prop :=
  Keeps (Deed.Unaddressed profile.ikbdJoysticks) slotting c p

/-- Such an action says what is `Apart`. -/
theorem Keeps.says_apart {p : Action Controller} (h : Unslotted c profile p) :
    Says p fun ws c' => Apart profile.ikbdJoysticks ws ∧ c'.slotting = c.slotting :=
  h.mono fun _ _ hds => ⟨fun d hd => (hds.1 d hd).framed, Device.apart_words hds.1, hds.2⟩

theorem unslotted_pollEmulation (hprofile : c.profile? = some profile) (now : Instant) :
    Unslotted c profile (c.pollEmulation now) := by
  unfold pollEmulation
  have hmouse := c.router.tick_mouse now
  generalize c.router.tick now = ticked at hmouse ⊢
  obtain ⟨event, router⟩ := ticked
  cases event with
  | none => exact .done rfl
  | some event =>
    obtain ⟨buttons, dx, dy, rfl⟩ := hmouse event rfl
    have hprofile' : ({ c with router } : Controller).profile? = some profile := hprofile
    have hmoved : Unslotted { c with router } profile
        (({ c with router } : Controller).handleEvent (.mouse buttons dx dy) now) := by
      unfold handleEvent
      dsimp only
      rw [hprofile']
      exact (isTalking_unaddressed hprofile).keeps_moveMouse _ buttons dx dy now
    exact Keeps.bind (.of_eq hmoved rfl) fun _ => .done rfl

theorem unslotted_pollPanel (c : Controller) (profile : Profile) (now : Instant) :
    Unslotted c profile (c.pollPanel profile now) := by
  unfold pollPanel
  split
  · refine .after (.host fun _ => Deed.unaddressed_of_silent rfl rfl) fun panel => ?_
    dsimp only
    generalize c.buttons.update panel _ now = updated
    obtain ⟨update, buttons⟩ := updated
    have hclick : Unslotted c profile (if update.menuClick = true then
        { c with nextPanel := some (now + panelInterval), buttons }.menuClick
        else pure { c with nextPanel := some (now + panelInterval), buttons }) := by
      split
      · exact .after (.host fun _ => Deed.unaddressed_of_silent rfl rfl) fun _ => .done rfl
      · exact .done rfl
    cases update.send with
    | none => exact .after (.done ()) fun _ => hclick
    | some map =>
      refine .after (.command fun bytes sent => ?_) fun _ => hclick
      refine Deed.unaddressed_frame ?_ (by decide) sent
      cases profile.ikbdJoysticks <;> decide +kernel
  · exact .done rfl

/-! ### What is about a slot -/

/-- The state of `slot` is about that slot. -/
theorem says_about_sendJoystick (hprofile : c.profile? = some profile) (c₁ : Controller)
    (slot : UInt8) (state : Joystick.State) (now : Instant) :
    Says (c₁.sendJoystick profile slot state now) fun ws c' =>
      About profile.ikbdJoysticks slot ws ∧ c'.slotting = c₁.slotting := by
  unfold sendJoystick
  split
  · exact .done ⟨.nil, rfl⟩
  · next hheld =>
    have hslot : slot < Joystick.slotCount := UInt8.not_le.1 (not_or.1 hheld).1
    have hstate : Says (c₁.sendJoystickState profile slot state now) fun ws c' =>
        About profile.ikbdJoysticks slot ws ∧ c'.slotting = c₁.slotting := by
      unfold sendJoystickState
      split
      · refine ((isTalking_unaddressed hprofile).keeps_submitBytes c₁ now _).says_apart.mono ?_
        exact fun ws c' hws => ⟨hws.1.about, hws.2⟩
      · next hlink =>
        obtain ⟨hdigital, hanalog⟩ := Device.slotOf?_digital hslot (Bool.eq_false_iff.2 hlink)
        refine .bind ((Says.command _ _).mono fun ws _ hws => .done ⟨?_, rfl⟩)
        rw [hws, List.append_nil]
        exact .command hslot ((if_neg hanalog).trans hdigital)
    refine .bind (hstate.mono fun ws c₂ hfirst => ?_)
    refine .bind ((Says.command _ _).mono fun ws' _ hcommand => ?_)
    have hextended : About profile.ikbdJoysticks slot ws' := by
      obtain ⟨hextended, hanalog⟩ := Device.slotOf?_extended profile.ikbdJoysticks hslot
      rw [hcommand]
      exact .command hslot ((if_neg hanalog).trans hextended)
    split
    · refine .bind ((Says.command _ _).mono fun ws'' _ hanalog => .done ⟨?_, hfirst.2⟩)
      rw [hanalog, List.append_nil]
      exact hfirst.1.append (hextended.append (.command hslot rfl))
    · refine .bind (.done (.done ⟨?_, hfirst.2⟩))
      exact hfirst.1.append (hextended.append (.append .nil .nil))

/-- After the sample of `port` what is said is about its slot. -/
theorem says_about_samplePort (hprofile : c.profile? = some profile) (c₁ : Controller)
    (now : Instant) (port : Nat) :
    Says (c₁.samplePort profile now port) fun ws c' =>
      (∃ state ws', ws = .sample port state :: ws' ∧
        About profile.ikbdJoysticks (c₁.portSlot (.ofNat port)) ws') ∧
        c'.slotting = c₁.slotting := by
  refine .bind ((Says.sample port).mono fun ws state hws => ?_)
  rw [hws]
  generalize c₁.db9.sample port state = sampled
  obtain ⟨report, db9⟩ := sampled
  cases report with
  | none => exact .done ⟨⟨state, [], rfl, .nil⟩, rfl⟩
  | some reported =>
    refine (says_about_sendJoystick hprofile { c₁ with db9 } _ reported now).mono ?_
    exact fun ws' c' hws' => ⟨⟨state, ws', rfl, hws'.1⟩, hws'.2⟩

theorem says_parted_pollPorts (hprofile : c.profile? = some profile) (c₁ : Controller)
    (now : Instant) :
    Says (c₁.pollPorts profile now) fun ws _ =>
      Parted profile.ikbdJoysticks c₁.portSlot ws := by
  refine .bind ((says_about_samplePort hprofile c₁.noteOsd now 0).mono fun ws c₂ hfirst => ?_)
  refine .bind ((says_about_samplePort hprofile c₂ now 1).mono fun ws' c₃ hsecond => .done ?_)
  obtain ⟨⟨s₀, ws₀, rfl, hfirst⟩, hkept⟩ := hfirst
  obtain ⟨⟨s₁, ws₁, rfl, hsecond⟩, -⟩ := hsecond
  have hslots : c₂.portSlot = c₁.portSlot := congrArg (·.2) hkept
  rw [hslots] at hsecond
  rw [List.append_nil]
  exact .sampled s₀ s₁ .nil hfirst hsecond

theorem says_parted_pollInput (hprofile : c.profile? = some profile) (now : Instant) :
    Says (c.pollInput profile now) fun ws _ =>
      Parted profile.ikbdJoysticks c.portSlot ws := by
  have htalking := isTalking_unaddressed hprofile
  refine .bind ((htalking.keeps_pollDisk c).says_apart.mono fun ws₁ c₁ hdisk => ?_)
  refine .bind ((htalking.keeps_pollLimiter c₁ now).says_apart.mono fun ws₂ c₂ hlimiter => ?_)
  have hkept : c₂.slotting = c.slotting := hlimiter.2.trans hdisk.2
  have hprofile₂ : c₂.profile? = some profile := (congrArg (·.1) hkept).trans hprofile
  refine .bind ((unslotted_pollEmulation hprofile₂ now).says_apart.mono fun ws₃ c₃ htick => ?_)
  refine .bind ((htalking.keeps_pollMouse c₃ now).says_apart.mono fun ws₄ c₄ hmouse => ?_)
  refine .bind ((says_parted_pollPorts hprofile c₄ now).mono fun ws₅ c₅ hports => ?_)
  refine .bind ((unslotted_pollPanel c₅ profile now).says_apart.mono fun ws₆ c₆ hpanel => ?_)
  refine (htalking.keeps_pollLeds c₆ now).says_apart.mono fun ws₇ c₇ hleds => ?_
  have hslots : c₄.portSlot = c.portSlot :=
    congrArg (·.2) (hmouse.2.trans (htick.2.trans hkept))
  rw [hslots] at hports
  have hround := hports.before (hpanel.1.append hleds.1)
  exact (((hround.after hmouse.1).after htick.1).after hlimiter.1).after hdisk.1

/-- A check of the core is about no slot. -/
theorem apart_checking (ikbdJoysticks : Bool) (id extra : UInt8) :
    Apart ikbdJoysticks (Device.words (checking id extra)) :=
  ⟨rfl, by cases ikbdJoysticks <;> rfl⟩

theorem does_parted_round {c₁ : Controller} (hkept : c₁.slotting = c.slotting) (now : Instant)
    (id extra : UInt8) :
    Does (match c₁.profile? with
      | none => pure (Phase.idle, c₁)
      | some profile => do
        let c ← c₁.pollInput profile now
        pure (if c.restart then Phase.restart else Phase.running, c))
      fun ds _ => Parted c.ikbdJoysticks c.portSlot
        (Device.words (checking id extra ++ ds)) := by
  have hprofile : c.profile? = c₁.profile? := congrArg (·.1) hkept.symm
  have hslots : c₁.portSlot = c.portSlot := congrArg (·.2) hkept
  cases hfound : c₁.profile? with
  | none =>
    refine .done (.unsampled ?_)
    rw [List.append_nil]
    exact apart_checking _ id extra
  | some profile =>
    refine .bind (Program.Spells.mono (says_parted_pollInput hfound now) fun ds c' h => .done ?_)
    rw [List.append_nil, Device.words_append, ikbdJoysticks_eq (hprofile.trans hfound), ← hslots]
    exact h.2.after (apart_checking _ id extra)

/-- **What a poll is about.**  Whatever the surroundings answer, a poll is `Parted`: the joystick
ports are not sampled and nothing is said about any slot, or what is said after the sample of a port
is about its slot. -/
theorem does_parted_poll (c : Controller) (now : Instant) :
    Does (c.poll now) fun ds _ =>
      Parted c.ikbdJoysticks c.portSlot (Device.words ds) := by
  unfold poll
  split
  · exact .done (.unsampled .nil)
  · refine .bind ((Core.does_poll c.monitor).mono fun ds p hcheck => ?_)
    obtain ⟨id, extra, rfl, rfl⟩ := hcheck
    have hkept : ({ c with monitor := (c.monitor.check id).2 } : Controller).slotting =
        c.slotting := by
      have hprofile : (c.monitor.check id).2.profile? = c.monitor.profile? :=
        congrArg Core.profile? (check_core c.monitor id)
      exact congrArg (·, c.portSlot) hprofile
    have hround := does_parted_round hkept now id extra
    have hchecked : Parted c.ikbdJoysticks c.portSlot
        (Device.words (checking id extra ++ [])) := by
      rw [List.append_nil]
      exact .unsampled (apart_checking _ id extra)
    generalize c.monitor.check id = checked at hround ⊢
    obtain ⟨check, monitor⟩ := checked
    cases check with
    | reloading => exact .done hchecked
    | restart => exact .done hchecked
    | active => exact hround
    | mismatch count => exact hround

/-- A turn that polls is `Parted`. -/
theorem Turn.Leaves.parted (h : turn.Leaves c') (hcall : turn.call = .poll now) :
    Parted turn.before.ikbdJoysticks turn.before.portSlot turn.words := by
  have hpoll : Does (turn.before.perform turn.call) fun ds _ =>
      Parted turn.before.ikbdJoysticks turn.before.portSlot (Device.words ds) := by
    rw [hcall]
    refine .bind ((does_parted_poll turn.before now).mono fun ds p hds => .done ?_)
    rwa [List.append_nil]
  exact (hpoll.journal h).2

/-- A turn that reports the USB joystick `index` is about its slot. -/
theorem Turn.Leaves.about (h : turn.Leaves c') {index : UInt8} {state : Joystick.State}
    (hcall : turn.call = .handle (.joystick index state) now) :
    About turn.before.ikbdJoysticks (Joystick.usbSlot index) turn.words := by
  have hhandle : Does (turn.before.perform turn.call) fun ds _ =>
      About turn.before.ikbdJoysticks (Joystick.usbSlot index) (Device.words ds) := by
    rw [hcall]
    unfold perform handle
    dsimp only
    cases hprofile : turn.before.profile? with
    | none => exact .bind (.done (.done .nil))
    | some profile =>
      rw [ikbdJoysticks_eq hprofile]
      have hsent := says_about_sendJoystick hprofile turn.before (Joystick.usbSlot index) state now
      refine .bind (Program.Spells.mono hsent fun ds c₁ hds => .done ?_)
      rw [List.append_nil]
      exact hds.2.1
  exact (hhandle.journal h).2

/-! ### Where a frame comes from -/

/-- Where the state of a slot comes from: a joystick `port`, or a USB joystick. -/
inductive Source where
  | port (port : Nat)
  | usb (index : UInt8)
  deriving DecidableEq

/-- The slot that a source has in `c`. -/
def slotOf (c : Controller) : Source → UInt8
  | .port port => c.portSlot (.ofNat port)
  | .usb index => Joystick.usbSlot index

/-- There is such a joystick port, or the USB joystick is one of the `usbJoysticks` that were
counted. -/
def Attached (c : Controller) : Source → Prop
  | .port port => port < Joystick.portCount
  | .usb index => index < c.usbJoysticks

/-- The frames of the `turn` that are about a slot, with the slot and the source that each comes
from: the USB joystick that reports, or the joystick port that was sampled last. -/
def Turn.addressed (turn : Turn) : List (Source × UInt8) :=
  match turn.call with
  | .handle (.joystick index _) _ =>
    (turn.words.filterMap (Word.slot? turn.before.ikbdJoysticks)).map (.usb index, ·)
  | _ => (bySample none turn.words).filterMap fun follows =>
    (follows.2.slot? turn.before.ikbdJoysticks).map (.port follows.1, ·)

/-- Whether a call is a poll, or a report of one of `count` USB joysticks. -/
def Call.isOfSticks (count : UInt8) : Call → Bool
  | .poll _ => true
  | .handle (.joystick index _) _ => index < count
  | _ => false

/-- Such a `call` is neither a start nor a `count`. -/
theorem Call.ne_of_isOfSticks {count : UInt8} {call : Call} (h : call.isOfSticks count = true) :
    call ≠ .start ∧ ∀ count now, call ≠ .handle (.joystickCount count) now := by
  constructor
  · rintro rfl
    cases h
  · rintro count now rfl
    cases h

/-- In a turn of the joysticks every frame about a slot (`addressed`) comes from a source that has
that slot. -/
theorem Turn.Leaves.addressed (h : turn.Leaves c')
    (hcall : turn.call.isOfSticks turn.before.usbJoysticks = true) :
    turn.words.filterMap (Word.slot? turn.before.ikbdJoysticks) = turn.addressed.map (·.2) ∧
      ∀ frame ∈ turn.addressed, turn.before.Attached frame.1 ∧
        frame.2 = turn.before.slotOf frame.1 ∧ frame.2 < Joystick.slotCount := by
  unfold Turn.addressed
  cases hturn : turn.call with
  | poll now =>
    obtain ⟨hframes, hfollows⟩ := (h.parted hturn).follows
    dsimp only
    rw [hframes, List.map_filterMap]
    refine ⟨?_, fun frame hframe => ?_⟩
    · refine congrArg (List.filterMap · _) (funext fun follows => ?_)
      rw [Option.map_map]
      exact Option.map_id'.symm
    · obtain ⟨follows, hmem, hframe⟩ := List.mem_filterMap.1 hframe
      obtain ⟨slot, hslot, rfl⟩ := Option.map_eq_some_iff.1 hframe
      exact hfollows follows hmem slot hslot
  | handle input now =>
    rw [hturn] at hcall
    cases input with
    | joystick index state =>
      refine ⟨?_, List.forall_mem_map.2 fun slot hslot => ?_⟩
      · rw [List.map_map]
        exact (List.map_id' _).symm
      · obtain ⟨rfl, hcount⟩ := (h.about hturn).frames slot hslot
        exact ⟨(of_decide_eq_true hcall : index < turn.before.usbJoysticks), rfl, hcount⟩
    | _ => exact absurd hcall Bool.false_ne_true
  | _ =>
    rw [hturn] at hcall
    exact absurd hcall Bool.false_ne_true

/-! ### Sources with one slot -/

/-- The source of `c` that has slot 0 too when port 0 keeps it: port 1 beside a single USB joystick,
or else the second USB joystick. -/
def rival (c : Controller) : Source := if c.usbJoysticks = 1 then .port 1 else .usb 1

/-- With USB joysticks port 0 keeps slot 0 by preference, and its `rival` has that slot; these are
the two sources. -/
structure Rivals (c : Controller) (source source' : Source) : Prop where
  prefers : c.joystick0PreferDb9 = true
  counted : 0 < c.usbJoysticks
  pair : source = .port 0 ∧ source' = c.rival ∨ source = c.rival ∧ source' = .port 0

theorem rivals_comm {source source' : Source} :
    c.Rivals source source' ↔ c.Rivals source' source := by
  have hturned {source source' : Source} (h : c.Rivals source source') :
      c.Rivals source' source :=
    ⟨h.prefers, h.counted, h.pair.symm.imp And.symm And.symm⟩
  exact ⟨hturned, hturned⟩

theorem rivals_port_zero_iff {source : Source} :
    c.Rivals (.port 0) source ↔
      c.joystick0PreferDb9 = true ∧ 0 < c.usbJoysticks ∧ source = c.rival := by
  constructor
  · rintro ⟨hprefers, hcounted, ⟨-, hrival⟩ | ⟨hrival, -⟩⟩
    · exact ⟨hprefers, hcounted, hrival⟩
    · unfold rival at hrival
      split at hrival <;> cases hrival
  · rintro ⟨hprefers, hcounted, hrival⟩
    exact ⟨hprefers, hcounted, .inl ⟨rfl, hrival⟩⟩

/-- The ports have one of the core's slots in common just if they are `Rivals`. -/
theorem slotOf_ports_eq_iff (hslot : c.slotOf (.port 0) < Joystick.slotCount ∨
      c.slotOf (.port 1) < Joystick.slotCount) :
    c.slotOf (.port 0) = c.slotOf (.port 1) ↔ c.Rivals (.port 0) (.port 1) := by
  rw [rivals_port_zero_iff]
  refine (Joystick.portSlot_zero_eq_one_iff hslot).trans (and_congr_right fun _ => ?_)
  unfold rival
  constructor
  · intro hone
    rw [hone, if_pos rfl]
    exact ⟨by decide, rfl⟩
  · rintro ⟨-, hrival⟩
    by_contra hother
    rw [if_neg hother] at hrival
    cases hrival

/-- Port 0 and the USB joystick `index` have a slot in common just if they are `Rivals`. -/
theorem slotOf_usb_eq_iff {index : UInt8} (hindex : index < c.usbJoysticks) :
    c.slotOf (.port 0) = c.slotOf (.usb index) ↔ c.Rivals (.port 0) (.usb index) := by
  rw [rivals_port_zero_iff]
  refine (Joystick.portSlot_zero_eq_usbSlot_iff hindex).trans (and_congr_right fun _ => ?_)
  unfold rival
  constructor
  · rintro rfl
    have hmany : c.usbJoysticks ≠ 1 := fun hone => absurd (hone ▸ hindex) (by decide)
    rw [if_neg hmany]
    exact ⟨UInt8.lt_trans (by decide) hindex, rfl⟩
  · rintro ⟨-, hrival⟩
    split at hrival
    · cases hrival
    · cases hrival
      rfl

/-- Port 1 and the USB joystick `index` never have a slot in common, and are no rivals. -/
theorem slotOf_port_one_ne {index : UInt8} (hindex : index < c.usbJoysticks) :
    c.slotOf (.port 1) ≠ c.slotOf (.usb index) ∧ ¬ c.Rivals (.port 1) (.usb index) := by
  refine ⟨Joystick.portSlot_one_ne_usbSlot hindex _, ?_⟩
  rintro ⟨-, -, ⟨hport, -⟩ | ⟨-, husb⟩⟩
  · cases hport
  · cases husb

/-- Two sources that are attached have one of the core's slots in common just if they are `Rivals`.
-/
theorem slotOf_eq_iff {source source' : Source} (hsource : c.Attached source)
    (hsource' : c.Attached source') (hne : source ≠ source')
    (hslot : c.slotOf source < Joystick.slotCount) :
    c.slotOf source = c.slotOf source' ↔ c.Rivals source source' := by
  have hmixed {port : Nat} {index : UInt8} (hport : port < Joystick.portCount)
      (hindex : index < c.usbJoysticks) :
      c.slotOf (.port port) = c.slotOf (.usb index) ↔ c.Rivals (.port port) (.usb index) := by
    match port, hport with
    | 0, _ => exact slotOf_usb_eq_iff hindex
    | 1, _ =>
      obtain ⟨hslots, hrivals⟩ := c.slotOf_port_one_ne hindex
      exact iff_of_false hslots hrivals
  cases source with
  | port port =>
    cases source' with
    | port port' =>
      match port, port', hsource, hsource' with
      | 0, 0, _, _ | 1, 1, _, _ => exact absurd rfl hne
      | 0, 1, _, _ => exact slotOf_ports_eq_iff (.inl hslot)
      | 1, 0, _, _ =>
        rw [eq_comm, rivals_comm]
        exact slotOf_ports_eq_iff (.inr hslot)
    | usb index => exact hmixed hsource hsource'
  | usb index =>
    cases source' with
    | port port =>
      rw [eq_comm, rivals_comm]
      exact hmixed hsource' hsource
    | usb index' =>
      refine iff_of_false (fun hsame => hne ?_) ?_
      · rw [Joystick.usbSlot_involutive.injective hsame]
      · rintro ⟨-, -, ⟨husb, -⟩ | ⟨-, husb⟩⟩ <;> cases husb

/-! ### Messages for joysticks -/

/-- A joystick `state` that is sent is about its slot. -/
theorem slot_of_states {ikbdJoysticks : Bool} {state : UInt8 × UInt32}
    (h : state ∈ turn.states) : state.1 ∈ turn.words.filterMap (Word.slot? ikbdJoysticks) := by
  have hopcodes : ∀ (ikbdJoysticks : Bool) (i : Fin 256),
      0x60 ≤ UInt8.ofFin i ∧ UInt8.ofFin i < 0x66 →
      slotOf? ikbdJoysticks (.ofFin i) = some (.ofFin i - 0x60) ∧
        UInt8.ofFin i ≠ Link.Opcode.analogJoystick := by decide +kernel
  obtain ⟨word, hword, hstate⟩ := List.mem_filterMap.1 h
  refine List.mem_filterMap.2 ⟨word, hword, ?_⟩
  cases word with
  | sample port state => cases hstate
  | command sent =>
    cases sent with
    | nil => cases hstate
    | cons opcode payload =>
      unfold Word.extended? at hstate
      dsimp only at hstate
      split at hstate
      · next hrange =>
        cases hstate
        obtain ⟨hslot, hanalog⟩ := hopcodes ikbdJoysticks opcode.toFin hrange
        exact (if_neg hanalog).trans hslot
      · cases hstate

/-- A `message` for a joystick on the Atari's keyboard link goes with a joystick `state`. -/
theorem slot_of_joystickMessages {slot slot' : UInt8} {state : Joystick.State} {message : Bytes}
    (hmessage : message ∈ c.joystickMessages slot state)
    (hheader : message.head? = some (ikbdJoystickHeader + slot')) :
    (slot', state.bits.toUInt32) ∈ c.joystickStates slot state := by
  unfold joystickMessages at hmessage
  split at hmessage
  · next hsaid =>
    rw [List.mem_singleton.1 hmessage] at hheader
    obtain rfl : slot = slot' := by simpa using Option.some.inj hheader
    rw [joystickStates, if_pos (Bool.and_eq_true_iff.1 hsaid).1]
    exact List.mem_singleton_self _
  · exact absurd hmessage List.not_mem_nil

/-- A `message` for a joystick that a round makes is for a `slot` of a port that it tells of. -/
theorem slot_of_roundMessages (h : Tuned c) {s₀ s₁ : Joystick.State} {message : Bytes}
    (hmessage : message ∈ c.roundMessages now s₀ s₁) {slot : UInt8} (hslot : slot < 2)
    (hheader : message.head? = some (ikbdJoystickHeader + slot)) :
    ∃ state, (slot, state) ∈ c.portStates (portReports c.noteOsd.db9 s₀ s₁).1 := by
  rcases List.mem_append.1 hmessage with hpacket | hport
  · -- the header of a mouse packet is another
    obtain ⟨header, dx, dy, rfl, -, hmouse⟩ :=
      ((h.mouse.foldl_moved _).duePacket now).1 message (Option.mem_toList.1 hpacket)
    obtain rfl := Option.some.inj hheader
    exact absurd hmouse ((by decide +kernel : ∀ i : Fin 256, UInt8.ofFin i < 2 →
      ¬ ikbdJoystickHeader + UInt8.ofFin i ≤ 0xfb) slot.toFin hslot)
  · obtain ⟨report, hreport, hport⟩ := List.mem_flatMap.1 hport
    exact ⟨report.2.bits.toUInt32,
      List.mem_flatMap.2 ⟨report, hreport, slot_of_joystickMessages hport hheader⟩⟩

/-- In a turn of the joysticks a message for a joystick is for a `slot` that is told of. -/
theorem Turn.Leaves.slot_of_messages (h : turn.Leaves c') (htuned : Tuned turn.before)
    {count : UInt8} (hcall : turn.call.isOfSticks count = true) {message : Bytes}
    (hmessage : message ∈ turn.messages) {slot : UInt8} (hslot : slot < 2)
    (hheader : message.head? = some (ikbdJoystickHeader + slot)) :
    ∃ state, (slot, state) ∈ turn.states := by
  unfold Turn.messages Turn.offers at hmessage
  have hports := h.ports
  cases hturn : turn.call with
  | poll now =>
    rw [hturn] at hmessage
    cases hports with
    | apart samples states kept =>
      rw [samples] at hmessage
      exact absurd hmessage List.not_mem_nil
    | sampled _ s₀ s₁ polls samples states kept =>
      rw [samples, offering, Keyboard.Limiter.offers_map_snd] at hmessage
      rw [Turn.states, states]
      exact slot_of_roundMessages htuned hmessage hslot hheader
  | handle input now =>
    rw [hturn] at hcall hmessage
    cases input with
    | joystick index state =>
      rw [offering, Keyboard.Limiter.offers_map_snd] at hmessage
      have hprofile : turn.before.profile?.isSome = true := by
        rw [profile?, Core.Monitor.profile?, htuned.core]
        rfl
      cases hports with
      | sampled _ s₀ s₁ polls samples states kept => cases hturn.symm.trans polls
      | apart samples states kept =>
        refine ⟨state.bits.toUInt32, ?_⟩
        rw [Turn.states, states, hturn, callStates, reportStates, if_pos hprofile]
        exact slot_of_joystickMessages hmessage hheader
    | _ => exact absurd hcall Bool.false_ne_true
  | _ =>
    rw [hturn] at hcall
    exact absurd hcall Bool.false_ne_true

/-! ### Whole lives -/

/-- What the sources and their slots go by, `slotOf` and `Attached`, stays as it was. -/
theorem Lives.sources (h : Lives c turns c') {count : UInt8}
    (hcalls : ∀ turn ∈ turns, turn.call.isOfSticks count = true) :
    c'.Attached = c.Attached ∧ c'.slotOf = c.slotOf ∧ c'.ikbdJoysticks = c.ikbdJoysticks ∧
      c'.usbJoysticks = c.usbJoysticks := by
  have hcore := h.core fun turn hturn => (Call.ne_of_isOfSticks (hcalls turn hturn)).1
  have hkept : c'.usbJoysticks = c.usbJoysticks ∧
      c'.joystick0PreferDb9 = c.joystick0PreferDb9 := by
    refine h.invariant (P := fun _ c' => c'.usbJoysticks = c.usbJoysticks ∧
      c'.joystick0PreferDb9 = c.joystick0PreferDb9) ⟨rfl, rfl⟩
      fun past turn hturn c₁ hleaves hpast => ?_
    obtain ⟨hcount, hprefers⟩ := hpast
    have htakes := hleaves.takes.2
    refine ⟨?_, htakes.preferDb9.trans hprefers⟩
    obtain hsame | ⟨count, now, hcounted, -⟩ := htakes.usbJoysticks
    · exact hsame.trans hcount
    · exact absurd hcounted ((Call.ne_of_isOfSticks (hcalls turn hturn)).2 count now)
  obtain ⟨hcount, hprefers⟩ := hkept
  refine ⟨funext fun source => ?_, funext fun source => ?_, ?_, hcount⟩
  · cases source with
    | port port => rfl
    | usb index => rw [Attached, Attached, hcount]
  · cases source with
    | port port => rw [slotOf, slotOf, portSlot, portSlot, hcount, hprefers]
    | usb index => rfl
  · rw [ikbdJoysticks, ikbdJoysticks, profile?, profile?, Core.Monitor.profile?,
      Core.Monitor.profile?, hcore]

/-- In a life of the joysticks every frame about a slot (`addressed`) comes from a source that has
that slot. -/
theorem Lives.addressed (h : Lives c₀ turns c)
    (hcalls : ∀ turn ∈ turns, turn.call.isOfSticks c₀.usbJoysticks = true)
    (hturn : turn ∈ turns) :
    turn.words.filterMap (Word.slot? c₀.ikbdJoysticks) = turn.addressed.map (·.2) ∧
      ∀ frame ∈ turn.addressed, c₀.Attached frame.1 ∧ frame.2 = c₀.slotOf frame.1 ∧
        frame.2 < Joystick.slotCount := by
  obtain ⟨past, future, rfl⟩ := List.append_of_mem hturn
  obtain ⟨hpast, c₁, hleaves, -⟩ := h.cut
  obtain ⟨hattached, hslots, hikbd, hcount⟩ :=
    hpast.sources fun turn hturn => hcalls turn (List.mem_append_left _ hturn)
  rw [← hattached, ← hslots, ← hikbd]
  refine hleaves.addressed ?_
  rw [hcount]
  exact hcalls turn hturn

/-- **Two controllers in one slot.**  Take a life of polls and reports of the USB joysticks that
were counted (`isOfSticks`), from any state `c₀` of the controller and whatever the surroundings
answer.  Every frame about a slot is among those `addressed` from a source that is `Attached`, a
joystick port or one of these USB joysticks, and the slot is its own, `slotOf`.  The frames of two
sources go to one slot just if these are `Rivals`: port 0 keeps slot 0 by preference, and the other
has that slot.  On the Atari (`Tuned`) the same holds of the messages for joysticks: what goes into
the `stream` is of each message the bytes that there was room for, and a message for a joystick is
for a `slot` that a frame of the same turn is about. -/
theorem slots_shared_iff (hlives : Lives c₀ turns c)
    (hcalls : ∀ turn ∈ turns, turn.call.isOfSticks c₀.usbJoysticks = true) :
    (∀ turn ∈ turns,
      turn.words.filterMap (Word.slot? c₀.ikbdJoysticks) = turn.addressed.map (·.2) ∧
        ∀ frame ∈ turn.addressed, c₀.Attached frame.1 ∧ frame.2 = c₀.slotOf frame.1 ∧
          frame.2 < Joystick.slotCount) ∧
    (∀ turn ∈ turns, ∀ turn' ∈ turns, ∀ frame ∈ turn.addressed, ∀ frame' ∈ turn'.addressed,
      frame.1 ≠ frame'.1 → (frame.2 = frame'.2 ↔ c₀.Rivals frame.1 frame'.1)) ∧
    (Tuned c₀ →
      c₀.limiter.waiting ++ (turns.flatMap (·.offers)).flatMap Keyboard.kept = stream turns c ∧
        ∀ turn ∈ turns, ∀ message ∈ turn.messages, ∀ slot < 2,
          message.head? = some (ikbdJoystickHeader + slot) → slot ∈ turn.addressed.map (·.2)) := by
  have haddressed (turn : Turn) (hturn : turn ∈ turns) := hlives.addressed hcalls hturn
  have hstarts (turn : Turn) (hturn : turn ∈ turns) : turn.call ≠ .start :=
    (Call.ne_of_isOfSticks (hcalls turn hturn)).1
  refine ⟨haddressed, ?_, fun htuned => ⟨(htuned.stream_eq hlives hstarts).2, ?_⟩⟩
  · intro turn hturn turn' hturn' frame hframe frame' hframe' hne
    obtain ⟨hattached, hslot, hcount⟩ := (haddressed turn hturn).2 frame hframe
    obtain ⟨hattached', hslot', -⟩ := (haddressed turn' hturn').2 frame' hframe'
    rw [hslot] at hcount ⊢
    rw [hslot']
    exact slotOf_eq_iff hattached hattached' hne hcount
  · intro turn hturn message hmessage slot hslot hheader
    rw [← (haddressed turn hturn).1]
    obtain ⟨past, future, rfl⟩ := List.append_of_mem hturn
    obtain ⟨hpast, c₁, hleaves, -⟩ := hlives.cut
    have hbefore : Tuned turn.before :=
      (htuned.stream_eq hpast fun turn hturn => hstarts turn (List.mem_append_left _ hturn)).1
    obtain ⟨state, hstate⟩ :=
      hleaves.slot_of_messages hbefore (hcalls turn hturn) hmessage hslot hheader
    exact slot_of_states hstate

/-- A core is started, and two USB joysticks are counted. -/
def twoCounted (byte : UInt8) (preferDb9 : Bool) : Controller :=
  ((ofSettings { joystick0PreferDb9 := preferDb9 } ⟨64, true⟩).play
    [(.start, answering byte), (.handle (.joystickCount 2) 0, answering byte)]).2

/-- The second USB joystick presses its button, and then port 0 is held to the right. -/
def bothHeld (byte : UInt8) (preferDb9 : Bool) : List Turn × Controller :=
  (twoCounted byte preferDb9).play
    [(.handle (.joystick 1 (.single .button1)) 0, answering byte),
      (.poll 1000, holding 0 (.single .right) byte)]

/-- By preference both are in slot 0, and in `bothHeld` what the one does the other undoes. -/
theorem slot_overwritten :
    (twoCounted 0xa2 true).profile?.isSome ∧ (twoCounted 0xa2 true).usbJoysticks = 2 ∧
      Lives (twoCounted 0xa2 true) (bothHeld 0xa2 true).1 (bothHeld 0xa2 true).2 ∧
      (∀ turn ∈ (bothHeld 0xa2 true).1, turn.call.isOfSticks 2 = true) ∧
      (bothHeld 0xa2 true).1.map (·.addressed) =
        [[(.usb 1, 0), (.usb 1, 0)], [(.port 0, 0), (.port 0, 0)]] ∧
      (bothHeld 0xa2 true).1.map (·.states) = [[(0, 0x10)], [(0, 0x01)]] :=
  ⟨by decide +kernel, by decide +kernel, lives_play _ _, by decide +kernel, by decide +kernel,
    by decide +kernel⟩

/-- Without the preference (`false`) port 0 has another slot, as any two controllers have; and so on
the Atari, where the message for the USB joystick is for its slot. -/
theorem slots_shared_iff_bothHeld :
    (bothHeld 0xa2 false).1.map (·.addressed) =
        [[(.usb 1, 0), (.usb 1, 0)], [(.port 0, 3), (.port 0, 3)]] ∧
      (∀ turn ∈ (bothHeld 0xa2 false).1, ∀ turn' ∈ (bothHeld 0xa2 false).1,
        ∀ frame ∈ turn.addressed, ∀ frame' ∈ turn'.addressed,
          frame.1 ≠ frame'.1 → frame.2 ≠ frame'.2) ∧
      Tuned (twoCounted 0xa3 false) ∧
      (bothHeld 0xa3 false).1.map (·.messages) = [[[0xfe, 0x80]], []] ∧
      ∀ turn ∈ (bothHeld 0xa3 false).1, [0xfe, 0x80] ∈ turn.messages →
        0 ∈ turn.addressed.map (·.2) := by
  have hlives (byte : UInt8) :
      Lives (twoCounted byte false) (bothHeld byte false).1 (bothHeld byte false).2 :=
    lives_play _ _
  have hcalls : ∀ turn ∈ (bothHeld 0xa2 false).1,
      turn.call.isOfSticks (twoCounted 0xa2 false).usbJoysticks = true := by decide +kernel
  have hcalls' : ∀ turn ∈ (bothHeld 0xa3 false).1,
      turn.call.isOfSticks (twoCounted 0xa3 false).usbJoysticks = true := by decide +kernel
  have htuned : Tuned (twoCounted 0xa3 false) := by
    obtain ⟨first, turns, -, hlife⟩ := atariLife_play (ofSettings {} ⟨64, true⟩) (answering 0xa3)
      [(.handle (.joystickCount 2) 0, answering 0xa3)] (by simp) (by decide +kernel)
    exact hlife.stream_eq.1
  obtain ⟨-, hshared, -⟩ := slots_shared_iff (hlives 0xa2) hcalls
  obtain ⟨-, -, hlinked⟩ := slots_shared_iff (hlives 0xa3) hcalls'
  refine ⟨by decide +kernel, ?_, htuned, by decide +kernel, ?_⟩
  · intro turn hturn turn' hturn' frame hframe frame' hframe' hne hsame
    have hrivals := (hshared turn hturn turn' hturn' frame hframe frame' hframe' hne).1 hsame
    exact absurd hrivals.prefers (by decide +kernel)
  · exact fun turn hturn hmessage => (hlinked htuned).2 turn hturn _ hmessage 0 (by decide) rfl

end Controller

end IoController
