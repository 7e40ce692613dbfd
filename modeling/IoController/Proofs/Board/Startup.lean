import IoController.Board.Startup
import IoController.Proofs.Board.Runs

/-!
# Board — Startup

The firmware comes up with everything in place, or starts over because a task was refused.

* `PinStock.takeAll?_isSome_iff`: a stock hands out each of its pins once.
* `Startup.Stage`: a part of the startup, with the pins that it sets up; `Startup.Stage.bind` goes
  through the startup stage by stage.
* `Startup.boot_asks`: what the startup asks, whether it comes to its end or not.
* `Startup.boot_ends`: what it comes to.
* `Startup.ready_after_boot`: whatever is asked of the board afterwards has been set up.
-/

namespace IoController.Board

/-! ### The stock of pins -/

namespace PinStock

variable {s s' : PinStock} {pin : UInt8} {pins : List UInt8}

/-- Hands out `pins` one after another. -/
def takeAll? (s : PinStock) : List UInt8 → Option PinStock
  | [] => some s
  | pin :: pins => (s.take? pin).bind (·.takeAll? pins)

/-- A pin that is handed out is not in the stock any more. -/
theorem take?_eq_some_iff :
    s.take? pin = some s' ↔ pin ∈ s.free ∧ s' = ⟨s.free.filter (· != pin)⟩ := by
  unfold take?
  split
  · next hmem => exact ⟨fun h => ⟨hmem, (Option.some.inj h).symm⟩, fun h => congrArg some h.2.symm⟩
  · next hmem => exact ⟨nofun, fun h => absurd h.1 hmem⟩

/-- All `pins` can be had if the first `pin` can, and then the others. -/
theorem takeAll?_cons_isSome_iff :
    (s.takeAll? (pin :: pins)).isSome ↔
      ∃ s', s.take? pin = some s' ∧ (s'.takeAll? pins).isSome := by
  rw [takeAll?]
  cases s.take? pin with
  | none => exact ⟨nofun, nofun⟩
  | some s₁ => exact ⟨fun h => ⟨s₁, rfl, h⟩, fun ⟨_, heq, h⟩ => Option.some.inj heq ▸ h⟩

/-- **Each pin is handed out once.**  The `pins` can be had one after another just when they are in
the stock and no two of them are the same. -/
theorem takeAll?_isSome_iff :
    (s.takeAll? pins).isSome ↔ pins.Nodup ∧ pins ⊆ s.free := by
  induction pins generalizing s with
  | nil => exact ⟨fun _ => ⟨.nil, List.nil_subset _⟩, fun _ => rfl⟩
  | cons pin pins ih =>
    rw [takeAll?_cons_isSome_iff, List.nodup_cons, List.cons_subset]
    constructor
    · rintro ⟨s', htake, hrest⟩
      obtain ⟨hmem, rfl⟩ := take?_eq_some_iff.1 htake
      obtain ⟨hnodup, hfree⟩ := ih.1 hrest
      have hothers (q : UInt8) (hq : q ∈ pins) : q ∈ s.free ∧ q ≠ pin := by
        simpa only [List.mem_filter, bne_iff_ne] using hfree hq
      exact ⟨⟨fun hpin => (hothers pin hpin).2 rfl, hnodup⟩, hmem, fun q hq => (hothers q hq).1⟩
    · rintro ⟨⟨hpin, hnodup⟩, hmem, hfree⟩
      refine ⟨_, take?_eq_some_iff.2 ⟨hmem, rfl⟩, ih.2 ⟨hnodup, fun q hq => ?_⟩⟩
      simp only [List.mem_filter, bne_iff_ne]
      exact ⟨hfree hq, ne_of_mem_of_not_mem hq hpin⟩

end PinStock

/-! ### What is set up -/

/-- The pins that a request sets up, a bus or a line having several. -/
def pinsOf : Request → List UInt8
  | .createOutput pin _ | .createInput pin _ | .createAnalog pin => [pin]
  | .createBus _ clock output input _ => [clock, output, input]
  | .createLine output input _ => [output, input]
  | _ => []

/-- The pins that are set up in `w`, in order. -/
def created (w : Trace Board) : List UInt8 := w.flatMap (pinsOf ·.request)

theorem created_append (w w' : Trace Board) : created (w ++ w') = created w ++ created w' :=
  List.flatMap_append

/-- The task that a request starts. -/
def spawned? : Request → Option Task
  | .spawn task => some task
  | _ => none

/-- The tasks that are started in `w`, in order. -/
def spawned (w : Trace Board) : List Task := w.filterMap (spawned? ·.request)

theorem spawned_append (w w' : Trace Board) : spawned (w ++ w') = spawned w ++ spawned w' :=
  List.filterMap_append

/-- The exchange that a request needs to come before it, if it needs one. -/
def needs : Request → Option (Exchange Board → Prop)
  | .setPin pin _ => some fun x => ∃ high, x.request = .createOutput pin high
  | .readPin pin => some fun x => ∃ pullUp, x.request = .createInput pin pullUp
  | .readAnalog pin => some fun x => x.request = .createAnalog pin
  | .exchange _ | .flush =>
    some fun x => ∃ clock output input frequency,
      x.request = .createBus .link clock output input frequency
  | .sendLine _ => some fun x => ∃ output input baud, x.request = .createLine output input baud
  | .police _ _ | .feed _ | .watch =>
    some fun x => ∃ tasks timeout check, x.request = .createWatchdog tasks timeout check
  | .setFrequency bus _ =>
    some fun x => ∃ clock output input frequency,
      x.request = .createBus bus clock output input frequency
  | .cardBytes | .cardKind | .openVolume =>
    some fun x => ∃ clock output input frequency,
      x.request = .createBus .card clock output input frequency
  | .readBlock _ | .writeBlock _ _ => some fun x => ∃ bytes, x = ⟨.cardBytes, some bytes⟩
  | .openRoot => some (· = ⟨.openVolume, true⟩)
  | .openFile _ => some (· = ⟨.openRoot, true⟩)
  | _ => none

/-- What the request `r` `needs` has come before it, in `w`. -/
def Ready (w : Trace Board) (r : Request) : Prop := ∀ need ∈ needs r, ∃ x ∈ w, need x

theorem Ready.of_needs {w : Trace Board} {r : Request} {need : Exchange Board → Prop}
    {x : Exchange Board} (hneeds : needs r = some need) (hx : x ∈ w) (h : need x) : Ready w r := by
  intro need' hneed'
  obtain rfl := Option.some.inj (hneeds.symm.trans hneed')
  exact ⟨x, hx, h⟩

theorem Ready.of_free {r : Request} (h : needs r = none) (w : Trace Board) : Ready w r :=
  fun _ hneed => nomatch h.symm.trans hneed

/-- What has come before a request `r` has come before a later one as well. -/
theorem Ready.mono {w w' : Trace Board} {r : Request} (h : Ready w r) (hsub : w ⊆ w') :
    Ready w' r := by
  intro need hneed
  obtain ⟨x, hx, hmet⟩ := h need hneed
  exact ⟨x, hsub hx, hmet⟩

namespace Startup

variable {α β : Type} {pins pins' : List UInt8} {t t' : Trace Board} {r : Request}

/-- What may be asked, after `t`, by a part of the startup that sets up `pins`: they are set up in
this order, nothing is used before, and the firmware starts over only because a task was refused. -/
structure Sets (pins : List UInt8) (t : Trace Board) (r : Request) : Prop where
  pins : created t ++ pinsOf r <+: pins
  ready : Ready t r
  reset : r = .reset → ∃ task, t.getLast? = some ⟨.spawn task, false⟩

/-- A part `p` of the startup that sets up `pins`, and ends as `Q` says. -/
def Stage (pins : List UInt8) (Q : Trace Board → α → Prop) (p : Procedure α) : Prop :=
  Program.Abides (Sets pins) (fun t a => created t = pins ∧ Q t a) p

/-- One stage comes after another, with its own `pins'`. -/
theorem Stage.bind {p : Procedure α} {f : α → Procedure β} {Q : Trace Board → α → Prop}
    {R : Trace Board → β → Prop} (h : Stage pins Q p)
    (hf : ∀ t a, Q t a → Stage pins' (fun t' => R (t ++ t')) (f a)) :
    Stage (pins ++ pins') R (p >>= f) := by
  refine Program.Abides.bind (h.mono (fun t r hsets => ?_) fun t a ⟨hcreated, hQ⟩ => ?_)
  · exact ⟨hsets.pins.trans (List.prefix_append _ _), hsets.ready, hsets.reset⟩
  · refine (hf t a hQ).mono (fun t' r hsets => ?_) fun t' b ⟨hcreated', hR⟩ => ?_
    · refine ⟨?_, hsets.ready.mono (List.subset_append_right t t'), fun hr => ?_⟩
      · rw [created_append, hcreated, List.append_assoc]
        exact (List.prefix_append_right_inj _).2 hsets.pins
      · obtain ⟨task, hlast⟩ := hsets.reset hr
        exact ⟨task, by rw [List.getLast?_append, hlast]; rfl⟩
    · exact ⟨by rw [created_append, hcreated, hcreated'], hR⟩

theorem Stage.done {a : α} {Q : Trace Board → α → Prop} (h : Q [] a) : Stage [] Q (.done a) :=
  Program.Abides.done ⟨rfl, h⟩

/-- Something that is set up by one request `r`, and that `needs` nothing before it. -/
theorem stage_ask {r : Request} (hfree : needs r = none) (hreset : r ≠ .reset) :
    Stage (pinsOf r) (fun t x => t = [⟨r, x⟩]) (ask r) :=
  abides_ask ⟨List.prefix_refl _, .of_free hfree [], fun h => absurd h hreset⟩
    fun _ => ⟨List.append_nil _, rfl⟩

/-- The firmware goes on with a `task` that is started, and starts over if it is refused. -/
theorem stage_spawn (task : Task) :
    Stage [] (fun t _ => t = [⟨.spawn task, true⟩]) (spawn task) := by
  refine .ask ⟨List.prefix_refl _, .of_free rfl [], nofun⟩ fun started => ?_
  cases started with
  | true => exact .done ⟨rfl, rfl⟩
  | false => exact .ask ⟨List.prefix_refl _, .of_free rfl _, fun _ => ⟨task, rfl⟩⟩ nofun

variable {stock stock' : PinStock} {pin : UInt8}

/-- A `pin` that is in the stock is had. -/
theorem stage_takeOutput (h : stock.take? pin = some stock') (high : Bool) :
    Stage [pin] (fun t s => t = [⟨.createOutput pin high, ()⟩] ∧ s = stock')
      (takeOutput stock pin high) := by
  rw [takeOutput, takePin, h]
  exact .ask ⟨List.prefix_refl _, .of_free rfl [], nofun⟩ fun ⟨⟩ => .done ⟨rfl, rfl, rfl⟩

/-- All `pins` that can be had one after another become inputs. -/
theorem stage_takeInputs (h : (stock.takeAll? pins).isSome) :
    Stage pins (fun t _ => t = pins.map fun pin => ⟨.createInput pin true, ()⟩)
      (takeInputs stock pins) := by
  induction pins generalizing stock with
  | nil => exact .done rfl
  | cons pin pins ih =>
    obtain ⟨stock', htake, hrest⟩ := PinStock.takeAll?_cons_isSome_iff.1 h
    rw [takeInputs, takePin, htake]
    change Stage ([pin] ++ pins) _ (ask (.createInput pin true) >>= fun _ => takeInputs stock' pins)
    refine (stage_ask (r := .createInput pin true) rfl nofun).bind fun t _ ht => ?_
    subst ht
    exact (ih hrest).imp fun t _ ⟨hcreated, ht⟩ => ⟨hcreated, ht ▸ rfl⟩

/-- The analog `inputs` need nothing of the stock. -/
theorem stage_createAnalogs (inputs : List PanelInput) :
    Stage (inputs.map (·.pin))
      (fun t _ => t = inputs.map fun input => ⟨.createAnalog input.pin, ()⟩)
      (createAnalogs inputs) := by
  induction inputs with
  | nil => exact .done rfl
  | cons input inputs ih =>
    change Stage ([input.pin] ++ inputs.map (·.pin)) _
      (ask (.createAnalog input.pin) >>= fun _ => createAnalogs inputs)
    refine (stage_ask (r := .createAnalog input.pin) rfl nofun).bind fun t _ ht => ?_
    subst ht
    exact ih.imp fun t _ ⟨hcreated, ht⟩ => ⟨hcreated, ht ▸ rfl⟩

/-- What is found out about the card in `t`: there are sectors only if the card has told how many,
and a volume only if its root was opened. -/
structure FindsCard (t : Trace Board) (medium : Disk.Medium) (mounted : Bool) : Prop where
  medium : medium.sectors ≠ 0 → ∃ bytes, ⟨.cardBytes, some bytes⟩ ∈ t
  mounted : mounted = true → ⟨.openRoot, true⟩ ∈ t
  spawned : spawned t = []

/-- The card is looked at once its bus has been set up. -/
theorem stage_createCard :
    Stage [10, 11, 12, 13] (fun t x => FindsCard t x.1 x.2) createCard := by
  refine .ask ⟨⟨[13], rfl⟩, .of_free rfl [], nofun⟩ fun ⟨⟩ => ?_
  have hbus {t : Trace Board} {r : Request} (hneeds : needs r = some fun x =>
      ∃ clock output input frequency, x.request = .createBus .card clock output input frequency) :
      Ready (⟨.createBus .card 10 11 12 cardInitFrequency, ()⟩ :: t) r :=
    .of_needs hneeds (.head _) ⟨_, _, _, _, rfl⟩
  refine .ask ⟨⟨[], rfl⟩, .of_free rfl _, nofun⟩ fun ⟨⟩ => ?_
  refine .ask ⟨⟨[], rfl⟩, hbus rfl, nofun⟩ fun bytes => ?_
  refine .ask ⟨⟨[], rfl⟩, hbus rfl, nofun⟩ fun kind => ?_
  refine .ask ⟨⟨[], rfl⟩, hbus rfl, nofun⟩ fun ⟨⟩ => ?_
  refine .ask ⟨⟨[], rfl⟩, hbus rfl, nofun⟩ fun volume => ?_
  -- a card of no size has no sectors
  have hmedium {x y : Exchange Board} {t : Trace Board} (h : (bytes.elim 0 fun n =>
      UInt32.ofNat (min 0xffffffff (n.toNat / Disk.sectorSize))) ≠ 0) :
      ∃ n, ⟨.cardBytes, some n⟩ ∈ x :: y :: ⟨.cardBytes, bytes⟩ :: t := by
    cases bytes with
    | none => exact absurd rfl h
    | some n => exact ⟨n, .tail _ (.tail _ (.head _))⟩
  cases volume with
  | false => exact .done ⟨rfl, hmedium, nofun, rfl⟩
  | true =>
    refine .ask ⟨⟨[], rfl⟩, .of_needs rfl (List.mem_of_getLast? rfl) rfl, nofun⟩ fun root => ?_
    refine .done ⟨rfl, hmedium, ?_, rfl⟩
    rintro rfl
    exact List.mem_of_getLast? rfl

/-! ### The whole startup -/

/-- The pins that the startup sets up, in order. -/
def bootPins : List UInt8 :=
  [25, 18, 19, 16, 17, 20, 21, 10, 11, 12, 13, 0, 1] ++
    (PinMap.standard.db9.toList.flatMap Vector.toList) ++ panelInputs.map (·.pin)

/-- No pin is among the `bootPins` twice. -/
theorem bootPins_nodup : bootPins.Nodup := by decide

/-- Everything that `p` is made of has been set up in `t`. -/
structure InPlace (t : Trace Board) (p : Peripherals) : Prop where
  watchdog : ∃ x ∈ t, ∃ tasks timeout check, x.request = .createWatchdog tasks timeout check
  light {l : StatusLight} (light : p.light = some l) :
    ∃ x ∈ t, ∃ high, x.request = .createOutput l.pin high
  select (target : Link.Target) :
    ∃ x ∈ t, ∃ high, x.request = .createOutput (p.pins.linkSelect target) high
  link : ∃ x ∈ t, ∃ clock output input frequency,
    x.request = .createBus .link clock output input frequency
  sendLine : ∃ x ∈ t, ∃ output input baud, x.request = .createLine output input baud
  lines {pin : UInt8} (mem : pin ∈ p.pins.db9.toList.flatMap Vector.toList) :
    ∃ x ∈ t, ∃ pullUp, x.request = .createInput pin pullUp
  analog {input : PanelInput} (mem : input ∈ p.panelInputs) :
    ∃ x ∈ t, x.request = .createAnalog input.pin
  card (medium : p.medium.sectors ≠ 0) : ∃ bytes, ⟨.cardBytes, some bytes⟩ ∈ t
  files (mounted : p.mounted = true) : ⟨.openRoot, true⟩ ∈ t

/-- What a task may ask, by `Firmware.Asks`, has been set up. -/
theorem InPlace.ready {p : Peripherals} (h : InPlace t p) {task : Task}
    (hasks : Firmware.Asks p task r) : Ready t r := by
  have hof {need : Exchange Board → Prop} {r : Request} (hneeds : needs r = some need)
      (hmet : ∃ x ∈ t, need x) : Ready t r :=
    let ⟨_, hx, hneed⟩ := hmet
    .of_needs hneeds hx hneed
  have hlight {l : StatusLight} {r : Request} (hl : p.light = some l)
      (hasks : StatusLight.Asks l.pin r) : Ready t r := by
    cases hasks with
    | now => exact .of_free rfl t
    | setPin high => exact hof rfl (h.light hl)
  cases hasks with
  | watch => exact hof rfl h.watchdog
  | police number => exact hof rfl h.watchdog
  | feed number => exact hof rfl h.watchdog
  | now number => exact .of_free rfl t
  | reset => exact .of_free rfl t
  | light hl hasks => exact hlight hl hasks
  | uses huses =>
    cases huses with
    | select target high => exact hof rfl (h.select target)
    | exchange byte => exact hof rfl h.link
    | flush => exact hof rfl h.link
    | sendLine bytes => exact hof rfl h.sendLine
    | light hl hasks => exact hlight hl hasks
    | line port line =>
      have hport := Vector.mem_toList_iff.2 (Vector.mem_of_getElem? port)
      exact hof rfl (h.lines (List.mem_flatMap.2 ⟨_, hport, line⟩))
    | analog mem => exact hof rfl (h.analog mem)
    | block r medium =>
      obtain ⟨bytes, hmem⟩ := h.card medium
      cases r <;> exact .of_needs rfl hmem ⟨bytes, rfl⟩
    | file uses =>
      cases uses with
      | openFile volume name => exact .of_needs rfl (h.files volume) rfl
      | _ => exact .of_free rfl t

/-- What the startup comes to in the trace `t`: the tasks, and a firmware that has everything in
place and is otherwise new. -/
structure Booted (t : Trace Board) (f : Firmware) : Prop where
  /-- All tasks were started, each of them once and the watchdog before all others. -/
  tasks : spawned t = [.watchdog, .status, .io, .bridge]
  wired : f.peripherals.Wired
  inPlace : InPlace t f.peripherals
  fresh : f = { peripherals := f.peripherals,
                controller := .ofSettings {} f.peripherals.medium }

/-- The whole startup is a stage, with all of the `bootPins`. -/
theorem stage_boot : Stage bootPins Booted boot := by
  have hplain : (PinStock.standard.takeAll? (25 :: 17 :: 20 :: 21 ::
      PinMap.standard.db9.toList.flatMap Vector.toList)).isSome :=
    PinStock.takeAll?_isSome_iff.2 ⟨by decide, by decide⟩
  obtain ⟨stock₁, htake₁, hplain⟩ := PinStock.takeAll?_cons_isSome_iff.1 hplain
  obtain ⟨stock₂, htake₂, hplain⟩ := PinStock.takeAll?_cons_isSome_iff.1 hplain
  obtain ⟨stock₃, htake₃, hplain⟩ := PinStock.takeAll?_cons_isSome_iff.1 hplain
  obtain ⟨stock₄, htake₄, hinputs⟩ := PinStock.takeAll?_cons_isSome_iff.1 hplain
  change Stage ([] ++ ([] ++ ([25] ++ ([] ++ ([] ++ ([18, 19, 16] ++ ([17] ++ ([20] ++ ([21] ++
    ([10, 11, 12, 13] ++ ([0, 1] ++ (PinMap.standard.db9.toList.flatMap Vector.toList ++
    (panelInputs.map (·.pin) ++ ([] ++ ([] ++ []))))))))))))))) Booted boot
  refine (stage_ask (r := .createWatchdog _ _ _) rfl nofun).bind fun _ _ ht => ht ▸ ?_
  refine (stage_spawn .watchdog).bind fun _ _ ht => ht ▸ ?_
  refine (stage_takeOutput htake₁ false).bind fun _ _ ⟨ht, hstock⟩ => ht ▸ hstock ▸ ?_
  refine (stage_ask (r := .now) rfl nofun).bind fun _ now ht => ht ▸ ?_
  refine (stage_spawn .status).bind fun _ _ ht => ht ▸ ?_
  refine (stage_ask (r := .createBus _ _ _ _ _) rfl nofun).bind fun _ _ ht => ht ▸ ?_
  refine (stage_takeOutput htake₂ true).bind fun _ _ ⟨ht, hstock⟩ => ht ▸ hstock ▸ ?_
  refine (stage_takeOutput htake₃ true).bind fun _ _ ⟨ht, hstock⟩ => ht ▸ hstock ▸ ?_
  refine (stage_takeOutput htake₄ true).bind fun _ _ ⟨ht, hstock⟩ => ht ▸ hstock ▸ ?_
  refine stage_createCard.bind fun card ⟨medium, mounted⟩ hcard => ?_
  refine (stage_ask (r := .createLine _ _ _) rfl nofun).bind fun _ _ ht => ht ▸ ?_
  refine (stage_takeInputs hinputs).bind fun _ _ ht => ht ▸ ?_
  refine (stage_createAnalogs panelInputs).bind fun _ _ ht => ht ▸ ?_
  refine (stage_spawn .io).bind fun _ _ ht => ht ▸ ?_
  refine (stage_spawn .bridge).bind fun _ _ ht => ht ▸ ?_
  refine .done ⟨?_, ?_, ?_, rfl⟩
  · simp only [spawned_append, hcard.spawned]
    rfl
  · rintro l hl target
    obtain rfl := Option.some.inj hl
    change PinMap.standard.linkSelect target ≠ PinMap.standard.statusLight
    cases target <;> decide
  · -- what is set up last comes after all of the exchanges before it
    have hlater {u v : Trace Board} {need : Exchange Board → Prop} (h : ∃ x ∈ v, need x) :
        ∃ x ∈ u ++ v, need x :=
      let ⟨x, hx, hneed⟩ := h
      ⟨x, List.mem_append_right u hx, hneed⟩
    refine ⟨⟨_, .head _, _, _, _, rfl⟩, ?_, ?_,
      ⟨_, List.mem_of_getElem? (i := 5) rfl, _, _, _, _, rfl⟩, ?_, ?_, ?_, ?_, ?_⟩
    · rintro l hl
      obtain rfl := Option.some.inj hl
      exact ⟨_, List.mem_of_getElem? (i := 2) rfl, _, rfl⟩
    · rintro (_ | _ | _)
      · exact ⟨_, List.mem_of_getElem? (i := 6) rfl, _, rfl⟩
      · exact ⟨_, List.mem_of_getElem? (i := 7) rfl, _, rfl⟩
      · exact ⟨_, List.mem_of_getElem? (i := 8) rfl, _, rfl⟩
    · iterate 10 refine hlater ?_
      exact ⟨_, .head _, _, _, _, rfl⟩
    · intro pin hpin
      iterate 11 refine hlater ?_
      exact ⟨_, List.mem_append_left _ (List.mem_map_of_mem hpin), _, rfl⟩
    · intro input hinput
      iterate 12 refine hlater ?_
      exact ⟨_, List.mem_append_left _ (List.mem_map_of_mem hinput), rfl⟩
    · intro h
      obtain ⟨n, hn⟩ := hcard.medium h
      refine ⟨n, ?_⟩
      iterate 9 refine List.mem_append_right _ ?_
      exact List.mem_append_left _ hn
    · intro h
      iterate 9 refine List.mem_append_right _ ?_
      exact List.mem_append_left _ (hcard.mounted h)

/-- **The startup asks in order.**  Whatever `boot` asks and however far it comes, the pins that
were `created` and those of the request are the first of `bootPins`, so none is set up twice; what
the request `needs` has come before it; and the firmware starts over only right after a task was
refused. -/
theorem boot_asks (h : boot.Reaches t r) :
    created t ++ pinsOf r <+: bootPins ∧ (created t ++ pinsOf r).Nodup ∧ Ready t r ∧
      (r = .reset → ∃ task, t.getLast? = some ⟨.spawn task, false⟩) := by
  have hsets : Sets bootPins t r := stage_boot.asks h
  exact ⟨hsets.pins, bootPins_nodup.sublist hsets.pins.sublist, hsets.ready, hsets.reset⟩

/-- **The firmware comes up whole.**  A `boot` that comes to its end has `created` all of `bootPins`
and started every task, and all that the controller's surroundings are made of is `InPlace`. -/
theorem boot_ends {f : Firmware} (h : boot.Run t f) : created t = bootPins ∧ Booted t f :=
  stage_boot.ends h

/-- **Nothing is used before it is set up.**  After a `boot` and any run of the firmware, whatever a
turn asks is `Ready`: what it `needs` was done by the startup. -/
theorem ready_after_boot {f f' : Firmware} {turns : List Firmware.Turn} {w : Trace Board}
    (hboot : boot.Run t f) (hruns : f.Runs turns f') {task : Task} {wake : Wake}
    (hreaches : (f'.step task wake).Reaches w r) : Ready t r := by
  obtain ⟨-, hbooted⟩ := boot_ends hboot
  exact hbooted.inPlace.ready (hruns.asks hbooted.wired hreaches)

end Startup

end IoController.Board
