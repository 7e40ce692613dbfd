import IoController.Board.Peripherals
import IoController.Proofs.Board.Volume

/-!
# Board — Peripherals

Whatever the controller asks of its surroundings, the board uses for it what it was set up with.

* `Peripherals.Uses`: what may be asked of the board for the controller.
* `Peripherals.Serving`: the setup stays, and the status light knows the level of its pin.
* `Peripherals.abides_serve`: so it is with each request of the controller;
  `Peripherals.abides_perform`: and with every program of it, whether it comes to its end or not.
* `Peripherals.run_perform`: the controller's own exchanges behind those of the board, with the
  files that are opened and the blocks of the card that are asked for.
-/

namespace IoController.Board

/-! ### The setup -/

/-- What becomes of the status light over exchanges, if there is one: `StatusLight.Drives` says what
it knows of its pin. -/
inductive Lit : Option StatusLight → Trace Board → Option StatusLight → Prop where
  | dark (w : Trace Board) : Lit none w none
  | lit {l l' : StatusLight} {w : Trace Board} (drives : l.Drives w l') : Lit (some l) w (some l')

namespace Peripherals

/-- No chip select of the link is on the `pin` of the status light. -/
def Wired (p : Peripherals) : Prop :=
  ∀ l, p.light = some l → ∀ target, p.pins.linkSelect target ≠ l.pin

/-- What may be asked of the board for the controller: it is all on the pins, the medium and the
volume that `p` was set up with. -/
inductive Uses (p : Peripherals) : Request → Prop where
  | select (target : Link.Target) (high : Bool) : Uses p (.setPin (p.pins.linkSelect target) high)
  | exchange (byte : UInt8) : Uses p (.exchange byte)
  | flush : Uses p .flush
  | sendLine (bytes : Bytes) : Uses p (.sendLine bytes)
  | light {l : StatusLight} {r : Request} (light : p.light = some l)
      (asks : StatusLight.Asks l.pin r) : Uses p r
  | line {port : Nat} {lines : Vector UInt8 db9Lines} {pin : UInt8}
      (port : p.pins.db9[port]? = some lines) (line : pin ∈ lines.toList) : Uses p (.readPin pin)
  | analog {input : PanelInput} (mem : input ∈ p.panelInputs) : Uses p (.readAnalog input.pin)
  | block (r : Disk.MediumRequest) (medium : p.medium.sectors ≠ 0) : Uses p (blockRequest r)
  | file {r : Request} (uses : UsesFiles p.mounted r) : Uses p r

/-- Exchanges `w` that leave the setup of `p` as it is, and what they make of the status light. -/
structure Serving (p : Peripherals) (w : Trace Board) (p' : Peripherals) : Prop where
  pins : p'.pins = p.pins
  panelInputs : p'.panelInputs = p.panelInputs
  medium : p'.medium = p.medium
  mounted : p'.mounted = p.mounted
  light : Lit p.light w p'.light

variable {p p' p'' : Peripherals} {w w' : Trace Board}

/-- Exchanges that do not set the pin of the light leave it alone, whatever the controller's part of
what is remembered, `panel` and `leds`, becomes. -/
theorem Serving.of_levels (panel : Panel.State) (leds : Keyboard.Locks)
    (h : ∀ l, p.light = some l → levels l.pin w = []) : Serving p w { p with panel, leds } where
  pins := rfl
  panelInputs := rfl
  medium := rfl
  mounted := rfl
  light := by
    change Lit p.light w p.light
    cases hlight : p.light with
    | none => exact .dark w
    | some l => exact .lit (.of_levels (h l hlight))

theorem Serving.append (h : Serving p w p') (h' : Serving p' w' p'') :
    Serving p (w ++ w') p'' where
  pins := h'.pins.trans h.pins
  panelInputs := h'.panelInputs.trans h.panelInputs
  medium := h'.medium.trans h.medium
  mounted := h'.mounted.trans h.mounted
  light := by
    have hfirst := h.light
    have hrest := h'.light
    revert hfirst hrest
    generalize p.light = light, p'.light = light', p''.light = light''
    rintro (_ | hfirst) (_ | hrest)
    · exact .dark _
    · exact .lit (hfirst.append hrest)

/-- A light that is changed as `StatusLight.Drives` has it, with all else as it was. -/
theorem Serving.of_drives {l l' : StatusLight} (hlight : p.light = some l) (h : l.Drives w l') :
    Serving p w { p with light := some l' } where
  pins := rfl
  panelInputs := rfl
  medium := rfl
  mounted := rfl
  light := by
    rw [hlight]
    exact .lit h

/-- The light that there is afterwards is the one that there was, on the same `pin`. -/
theorem Serving.pin_eq (h : Serving p w p') {l' : StatusLight} (light : p'.light = some l') :
    ∃ l, p.light = some l ∧ l'.pin = l.pin := by
  have hlit := h.light
  rw [light] at hlit
  generalize p.light = light at hlit
  cases hlit with
  | lit drives => exact ⟨_, rfl, drives.pin⟩

theorem Serving.wired (h : Serving p w p') (hwired : p.Wired) : p'.Wired := by
  intro l' hlight' target
  obtain ⟨l, hlight, hpin⟩ := h.pin_eq hlight'
  rw [h.pins, hpin]
  exact hwired l hlight target

/-- What may be asked afterwards (`Uses`) could be asked before. -/
theorem Serving.uses (h : Serving p w p') {r : Request} (huses : p'.Uses r) : p.Uses r := by
  cases huses with
  | select target high => exact h.pins ▸ .select target high
  | exchange byte => exact .exchange byte
  | flush => exact .flush
  | sendLine bytes => exact .sendLine bytes
  | light light' asks =>
    obtain ⟨l, hlight, hpin⟩ := h.pin_eq light'
    exact .light hlight (hpin ▸ asks)
  | line port line => exact .line (h.pins ▸ port) line
  | analog mem => exact .analog (h.panelInputs ▸ mem)
  | block r medium => exact .block r (h.medium ▸ medium)
  | file uses => exact .file (h.mounted ▸ uses)

/-! ### What is left alone -/

/-- Exchanges `w` that touch neither the light, nor the files, nor the card. -/
structure Apart (p : Peripherals) (w : Trace Board) : Prop where
  levels {l : StatusLight} (light : p.light = some l) : levels l.pin w = []
  opened : opened w = []
  blocks : blocks w = []

theorem Apart.nil : p.Apart [] := ⟨fun _ => rfl, rfl, rfl⟩

theorem Apart.append (h : p.Apart w) (h' : p.Apart w') : p.Apart (w ++ w') where
  levels light := by rw [levels_append, h.levels light, h'.levels light, List.append_nil]
  opened := by rw [opened_append, h.opened, h'.opened, List.append_nil]
  blocks := by rw [blocks_append, h.blocks, h'.blocks, List.append_nil]

theorem Apart.cons {r : Request} {x : Reply r}
    (hlevel : ∀ l, p.light = some l → level? l.pin r = none) (hopened : opened? r = none)
    (hblocks : access? r = none) (h : p.Apart w) : p.Apart (⟨r, x⟩ :: w) where
  levels {l} light := (filterMap_request_cons x (hlevel l light) w).trans (h.levels light)
  opened := (filterMap_request_cons x hopened w).trans h.opened
  blocks := (filterMap_request_cons x hblocks w).trans h.blocks

/-- Such exchanges leave the setup and the light as they are. -/
theorem Apart.serving (h : p.Apart w) (panel : Panel.State) (leds : Keyboard.Locks) :
    p.Serving w { p with panel, leds } := .of_levels panel leds fun _ => h.levels

/-- Exchanges `w` with the status light and with nothing else. -/
structure Lights (p : Peripherals) (w : Trace Board) (p' : Peripherals) : Prop where
  serving : p.Serving w p'
  asks {x : Exchange Board} (mem : x ∈ w) :
    ∃ l, p.light = some l ∧ StatusLight.Asks l.pin x.request

/-- A light that is not touched. -/
theorem Lights.nil (p : Peripherals) : p.Lights [] p where
  serving := Apart.nil.serving p.panel p.leds
  asks := nofun

/-- A light that is changed as `StatusLight.Drives` has it, by what a light `Asks`. -/
theorem Lights.of_drives {l l' : StatusLight} (hlight : p.light = some l) (h : l.Drives w l')
    (hasks : ∀ x ∈ w, StatusLight.Asks l.pin x.request) :
    p.Lights w { p with light := some l' } where
  serving := .of_drives hlight h
  asks mem := ⟨l, hlight, hasks _ mem⟩

/-- What is asked for the light may be asked for the controller. -/
theorem Lights.uses (h : p.Lights w p') : ∀ x ∈ w, p.Uses x.request := by
  intro x hx
  obtain ⟨l, hlight, hasks⟩ := h.asks hx
  exact .light hlight hasks

/-- What has nothing to do with the light is not found among its exchanges. -/
theorem Lights.filterMap_eq_nil {γ : Type} {look : Request → Option γ} (h : p.Lights w p')
    (hlook : ∀ pin r, StatusLight.Asks pin r → look r = none) :
    w.filterMap (fun x => look x.request) = [] := by
  refine List.filterMap_eq_nil_iff.2 fun x hx => ?_
  obtain ⟨l, -, hasks⟩ := h.asks hx
  exact hlook _ _ hasks

theorem Lights.opened (h : p.Lights w p') : opened w = [] :=
  h.filterMap_eq_nil fun _ _ hasks => by cases hasks <;> rfl

/-- No block of the card is read or written for the light. -/
theorem Lights.blocks (h : p.Lights w p') : blocks w = [] :=
  h.filterMap_eq_nil fun _ _ hasks => by cases hasks <;> rfl

/-! ### Single requests -/

/-- To set a status is to deal with the light, which then has the `status`. -/
theorem abides_setStatus (p : Peripherals) (status : Status) :
    Program.Abides (fun _ => p.Uses)
      (fun w p' => p.Lights w p' ∧ ∀ l', p'.light = some l' → l'.status = status)
      (p.setStatus status) := by
  unfold setStatus
  cases hlight : p.light with
  | none =>
    refine .done ⟨.nil p, fun l' hl' => ?_⟩
    cases hlight.symm.trans hl'
  | some l =>
    refine .map ((l.abides_display status).requests.mono (fun _ _ hasks => .light hlight hasks)
      fun w l' ⟨hasks, hdrives, hstatus⟩ => ?_)
    refine ⟨.of_drives hlight hdrives hasks, fun l'' hl'' => ?_⟩
    obtain rfl := Option.some.inj hl''
    exact hstatus

/-- The link uses its bus and its chip selects, which are `Apart` from the light if the board is
`Wired`. -/
theorem abides_serveBus (hwired : p.Wired) (r : SpiBus.Request) :
    Program.Abides (fun _ => p.Uses) (fun w _ => p.Apart w) (serveBus p.pins r) := by
  cases r with
  | setSelect target high =>
    refine .ask (.select target high) fun _ => .done (.cons (fun l hlight => ?_) rfl rfl .nil)
    exact if_neg (hwired l hlight target)
  | exchange byte =>
    exact .ask (.exchange byte) fun _ => .done (.cons (fun _ _ => rfl) rfl rfl .nil)
  | flush => exact .ask .flush fun _ => .done (.cons (fun _ _ => rfl) rfl rfl .nil)

/-- The `lines` of a `port` are sampled by its own pins. -/
theorem abides_readLines {port : Nat} {all : Vector UInt8 db9Lines}
    (hport : p.pins.db9[port]? = some all) {lines : List (UInt8 × Joystick.Switch)}
    (hlines : ∀ line ∈ lines, line.1 ∈ all.toList) :
    Program.Abides (fun _ => p.Uses) (fun w _ => p.Apart w) (readLines lines) := by
  induction lines with
  | nil => exact .done .nil
  | cons line lines ih =>
    obtain ⟨hline, hrest⟩ := List.forall_mem_cons.1 hlines
    refine .bind (abides_ask (Uses.line hport hline) fun high => ?_)
    exact .map ((ih hrest).imp fun w rest hapart => hapart.cons (fun _ _ => rfl) rfl rfl)

/-- The panel's `inputs` are sampled by its own pins. -/
theorem abides_readInputs (panel : Panel.State) {inputs : List PanelInput}
    (hinputs : inputs ⊆ p.panelInputs) :
    Program.Abides (fun _ => p.Uses) (fun w _ => p.Apart w) (readInputs panel inputs) := by
  induction inputs generalizing panel with
  | nil => exact .done .nil
  | cons input inputs ih =>
    obtain ⟨hinput, hrest⟩ := List.cons_subset.1 hinputs
    refine .bind (abides_ask (Uses.analog hinput) fun sample => ?_)
    cases sample with
    | none =>
      exact (ih panel hrest).imp fun w _ h => h.cons (fun _ _ => rfl) rfl rfl
    | some n =>
      exact (ih _ hrest).imp fun w _ h => h.cons (fun _ _ => rfl) rfl rfl

/-- A `port` that the board has is sampled by its own pins, and any other not at all. -/
theorem abides_readDb9 (p : Peripherals) (port : Nat) :
    Program.Abides (fun _ => p.Uses) (fun w _ => p.Apart w) (readDb9 p.pins port) := by
  unfold readDb9
  split
  · next lines hport =>
    exact abides_readLines hport fun line hline => (List.of_mem_zip hline).1
  · exact .done .nil

/-! ### What the controller asks -/

/-- The names on the volume of `p` of the files that are opened for a request. -/
def names (p : Peripherals) : Device.Request → List String
  | .file r => volumeNames p.mounted r
  | _ => []

/-- The accesses to the card of `p` that a request comes to. -/
def accesses (p : Peripherals) : Device.Request → List Disk.MediumRequest
  | .medium r => if p.medium.sectors = 0 then [] else [r]
  | _ => []

/-- What is opened for a request does not depend on what was done before. -/
theorem Serving.names (h : p.Serving w p') : p'.names = p.names := by
  funext r
  cases r <;> simp only [Peripherals.names, h.mounted]

/-- What is accessed for a request does not depend on what was done before. -/
theorem Serving.accesses (h : p.Serving w p') : p'.accesses = p.accesses := by
  funext r
  cases r <;> simp only [Peripherals.accesses, h.medium]

/-- What the request `r` of the controller comes to on the board: the setup stays, and the files
that are `opened` and the `blocks` of the card are those that it asks for. -/
structure Served (p : Peripherals) (r : Device.Request) (w : Trace Board) (p' : Peripherals) :
    Prop where
  serving : p.Serving w p'
  opened : opened w = p.names r
  blocks : blocks w = p.accesses r

/-- A service that neither files nor the card are needed for. -/
theorem Apart.served (h : p.Apart w) (panel : Panel.State) (leds : Keyboard.Locks)
    {r : Device.Request} (hnames : p.names r = []) (haccesses : p.accesses r = []) :
    p.Served r w { p with panel, leds } where
  serving := h.serving panel leds
  opened := h.opened.trans hnames.symm
  blocks := h.blocks.trans haccesses.symm

/-- To serve the request `r` needs the light, the line, the ports and the panel. -/
theorem abides_serveHost (p : Peripherals) (r : Host.Request) :
    Program.Abides (fun _ => p.Uses) (fun w x => p.Served (.host r) w x.2) (p.serveHost r) := by
  cases r with
  | setLeds locks on =>
    refine .map (abides_ask (r := .sendLine _) (.sendLine _) fun sent => ?_)
    exact (Apart.nil.cons (fun _ _ => rfl) rfl rfl).served p.panel (p.leds.put locks on) rfl rfl
  | osdKey | osdVisible | osdReset | showError =>
    exact .done (Apart.nil.served p.panel p.leds rfl rfl)
  | diskActivity active =>
    exact .map ((p.abides_setStatus _).imp fun w p' ⟨h, _⟩ => ⟨h.serving, h.opened, h.blocks⟩)
  | readDb9 port =>
    exact .map ((p.abides_readDb9 port).imp fun w _ h => h.served p.panel p.leds rfl rfl)
  | readPanel =>
    exact .map ((abides_readInputs p.panel fun _ h => h).imp
      fun w panel h => h.served panel p.leds rfl rfl)

/-- Whatever `r` the controller asks, the board `Uses` what it was set up with; a file is opened by
its name on the volume, and an access to the medium is one to the same block of the card. -/
theorem abides_serve (hwired : p.Wired) (r : Device.Request) :
    Program.Abides (fun _ => p.Uses) (fun w x => p.Served r w x.2) (p.serve r) := by
  cases r with
  | link r =>
    have hlink : Program.Abides (fun _ => p.Uses) (fun w _ => p.Apart w)
        ((SpiBus.serveLink r).simulate (fun (_ : Unit) r => (·, ()) <$> serveBus p.pins r) ()) := by
      refine (Program.Abides.simulate (P := fun _ => p.Uses) (K := fun w (_ : Unit) => p.Apart w)
        (fun w _ r hw => ?_) (w := []) .nil _)
      exact .map ((abides_serveBus hwired r).imp fun w' _ hw' => hw.append hw')
    exact Program.Abides.map (g := fun x : Link.Reply r × Unit => (x.1, p))
      (hlink.imp fun w _ h => h.served p.panel p.leds rfl rfl)
  | medium r =>
    refine .map ((abides_serveMedium p.medium r).requests.mono
      (fun _ _ ⟨hsome, heq⟩ => heq ▸ .block r hsome) fun w reply ⟨hasked, hblocks⟩ => ?_)
    have hblock : ∀ x ∈ w, x.request = blockRequest r := fun x hx => (hasked x hx).2
    refine ⟨.of_levels p.panel p.leds fun l _ => ?_, ?_, hblocks⟩
    · refine filterMap_request_eq_nil (P := (· = blockRequest r)) hblock ?_
      rintro _ rfl
      cases r <;> rfl
    · refine filterMap_request_eq_nil (P := (· = blockRequest r)) hblock ?_
      rintro _ rfl
      cases r <;> rfl
  | file r =>
    refine .map ((abides_serveFile p.mounted r).requests.mono (fun _ _ h => .file h)
      fun w reply ⟨hasked, hopened⟩ => ?_)
    refine ⟨.of_levels p.panel p.leds fun l _ => ?_, hopened, ?_⟩
    · exact filterMap_request_eq_nil hasked fun r' h => by cases h <;> rfl
    · exact filterMap_request_eq_nil hasked fun r' h => by cases h <;> rfl
  | host r => exact p.abides_serveHost r

/-! ### Programs of the controller -/

/-- **The controller keeps to the board's setup.**  Whatever program of the controller runs, and
whether it comes to its end or not, all that is asked of the board is what it `Uses`; when it is
over the setup is as before and the light knows its level, by `Serving`. -/
theorem abides_perform {α : Type} (hwired : p.Wired) (action : Action α) :
    Program.Abides (fun _ => p.Uses) (fun w x => p.Serving w x.2) (p.perform action) := by
  refine Program.Abides.simulate (P := fun _ => p.Uses) (K := p.Serving) (fun w p' r h => ?_)
    (w := []) (Apart.nil.serving p.panel p.leds) action
  exact (abides_serve (h.wired hwired) r).mono (fun _ _ huses => h.uses huses)
    fun w' x hserved => h.append hserved.serving

/-- **What the board does for the controller.**  A program that the board performs has run, with a
trace `t` of what the controller asked and was answered.  Meanwhile the setup stays, by `Serving`,
and the files that are `opened` and the `blocks` of the card that are read and written are those
that the requests of `t` come to, in their order. -/
theorem run_perform {α : Type} (hwired : p.Wired) {action : Action α} {a : α}
    (h : (p.perform action).Run w (a, p')) :
    ∃ t, action.Run t a ∧ p.Serving w p' ∧ opened w = t.flatMap (p.names ·.request) ∧
      blocks w = t.flatMap (p.accesses ·.request) := by
  obtain ⟨t, hrun, hserves⟩ := Program.run_simulate_iff.1 h
  refine ⟨t, hrun, ?_⟩
  clear hrun h
  induction hserves with
  | nil p => exact ⟨Apart.nil.serving p.panel p.leds, rfl, rfl⟩
  | @cons r x t w w' p p' p'' first rest ih =>
    have hserved : p.Served r w p' := (abides_serve hwired r).ends first
    obtain ⟨hserving, hopened, hblocks⟩ := ih (hserved.serving.wired hwired)
    refine ⟨hserved.serving.append hserving, ?_, ?_⟩
    · rw [opened_append, hserved.opened, hopened, List.flatMap_cons, hserved.serving.names]
    · rw [blocks_append, hserved.blocks, hblocks, List.flatMap_cons, hserved.serving.accesses]

end Peripherals

end IoController.Board
