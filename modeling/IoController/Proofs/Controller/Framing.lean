import IoController.Proofs.Board.ChipSelects
import IoController.Proofs.Controller.Reloading
import IoController.Proofs.Controller.Rounds
import IoController.Proofs.Device.Frames
import Mathlib.Data.List.Forall2

/-!
# Controller — Framing

What a controller asks of the link, over all that it lives through.

* `Controller.Takes.framed`: a call is made of whole frames, apart from the clock after the
  identification byte that a round asks for.
* `Controller.framing_discipline`: so is a whole life, and no two chip selects are ever low at a
  time while it is carried out on the bus.
-/

namespace IoController

open Device (Deed traces)

namespace Controller

variable {c c' : Controller} {turns : List Turn}

/-! ### A call -/

/-- A journal `ds` in whole frames, but for the clock after the identification byte of a round. -/
inductive Framed (c : Controller) (call : Call) (ds : List Deed) : Prop where
  | whole (quiet : c.quietTraffic call = []) (framed : ∀ d ∈ ds, d.isFramed = true)
  | checked {id extra : UInt8} {rest : List Deed}
      (quiet : c.quietTraffic call = Link.identification) (journal : ds = checking id extra ++ rest)
      (framed : ∀ d ∈ rest, d.isFramed = true)

/-- The traffic of such a journal is what every call asks for, by `quietTraffic`, and then whole
frames. -/
theorem Framed.traffic {call : Call} {ds : List Deed} (h : Framed c call ds) :
    ∃ frames : List (Link.Target × Bytes), Link.traffic (traces ds) =
      c.quietTraffic call ++ frames.flatMap fun f => Link.framing f.1 f.2 := by
  cases h with
  | whole quiet framed =>
    refine ⟨Device.frames ds, ?_⟩
    rw [quiet, Device.traffic_traces framed, List.nil_append]
  | @checked id extra rest quiet journal framed =>
    refine ⟨Device.frames rest, ?_⟩
    rw [journal, quiet, Device.traces_append, Link.traffic_append, Device.traffic_traces framed]
    rfl

/-- A `call` is made of whole frames, and a round that checks the core clocks one byte more, right
after the identification byte. -/
theorem Takes.framed {call : Call} {ds : List Deed} (h : Takes c call ds c') :
    Framed c call ds := by
  have hnone : ∀ d ∈ ([] : List Deed), d.isFramed = true := fun d hd => absurd hd List.not_mem_nil
  cases h with
  | start framed within => exact .whole rfl framed
  | handle framed heeds => exact .whole rfl framed
  | setOsdVisible => exact .whole rfl hnone
  | poll polls =>
    cases polls with
    | restart restart => exact .whole (if_pos restart) hnone
    | checked restart =>
      exact .checked (if_neg (Bool.eq_false_iff.1 restart)) (List.append_nil _).symm hnone
    | round restart framed round => exact .checked (if_neg (Bool.eq_false_iff.1 restart)) rfl framed

/-! ### A life -/

/-- Every trace of a life is carried out tidily (`Tidy`) by pins that work. -/
theorem Lives.tidy (h : Lives c turns c') {wires : List (Trace SpiBus)}
    (hcarries : List.Forall₂ (fun turn w => SpiBus.Carries turn.trace w) turns wires)
    (hworking : ∀ w ∈ wires, SpiBus.Working w) : ∀ w ∈ wires, SpiBus.Tidy w := by
  have htakes := h.takes
  clear h
  induction hcarries with
  | nil => exact fun w hw => absurd hw List.not_mem_nil
  | @cons turn w turns wires hfirst hrest ih =>
    obtain ⟨hturn, hturns⟩ := List.forall_mem_cons.1 htakes
    obtain ⟨hw, hwires⟩ := List.forall_mem_cons.1 hworking
    rw [hturn.1] at hfirst
    exact List.forall_mem_cons.2 ⟨SpiBus.tidy_traces hfirst hw, ih hwires hturns⟩

/-- **Framing.**  Over everything that a controller lives through, whatever the core sends and
whatever fails, each call asks the link for whole frames, by `Link.framing`: a channel is selected,
bytes are exchanged, and it is released.  The one byte outside a frame is the clock after the
identification byte, once a round, in `quietTraffic`.  So when all this is carried out on a bus
whose pins are `Working`, and that begins with every chip select high, at most one is low at any
moment (`Exclusive`), and none is low between calls (`Lines.idle`). -/
theorem framing_discipline (hlives : Lives c turns c') :
    (∀ turn ∈ turns, ∃ frames : List (Link.Target × Bytes),
      Link.traffic turn.trace = turn.before.quietTraffic turn.call ++
        frames.flatMap fun f => Link.framing f.1 f.2) ∧
    ∀ wires : List (Trace SpiBus),
      List.Forall₂ (fun turn w => SpiBus.Carries turn.trace w) turns wires →
      (∀ w ∈ wires, SpiBus.Working w) →
        (∀ w, w <+: wires.flatten → (SpiBus.Lines.idle.after w).Exclusive) ∧
        ∀ past, past <+: wires → SpiBus.Lines.idle.after past.flatten = SpiBus.Lines.idle := by
  refine ⟨fun turn hturn => ?_, fun wires hcarries hworking => ?_⟩
  · obtain ⟨htrace, c₁, htakes⟩ := hlives.takes turn hturn
    rw [htrace]
    exact htakes.framed.traffic
  · have htidy := hlives.tidy hcarries hworking
    refine ⟨(SpiBus.tidy_flatten htidy).exclusive, fun past hpast => ?_⟩
    exact (SpiBus.tidy_flatten fun w hw => htidy w (hpast.subset hw)).idle

/-- A core that takes joysticks only is found and looked at twice. -/
def looked : List Turn × Controller :=
  (ofSettings {} ⟨64, true⟩).play
    [(.start, answering 0xa2), (.poll 0, answering 0xa2), (.poll 10000, answering 0xa2)]

/-- The core of `looked` is asked for its identification byte each time, and once told the buttons
of the front panel and asked for its LEDs. -/
theorem framing_discipline_looked :
    Lives (ofSettings {} ⟨64, true⟩) looked.1 looked.2 ∧
    (looked.1.map fun turn => Link.traffic turn.trace) =
      [Link.framing .io [0xff],
        Link.identification ++ (Link.framing .io [0x01, 0x00] ++ Link.framing .io [0x1f, 0x00]),
        Link.identification] ∧
    (∀ turn ∈ looked.1, SpiBus.Working (SpiBus.wire turn.trace)) ∧
    SpiBus.Lines.idle.after (looked.1.map fun turn => SpiBus.wire turn.trace).flatten =
      SpiBus.Lines.idle := by
  have hlives : Lives (ofSettings {} ⟨64, true⟩) looked.1 looked.2 := lives_play _ _
  have hcarries : List.Forall₂ (fun turn w => SpiBus.Carries turn.trace w) looked.1
      (looked.1.map fun turn => SpiBus.wire turn.trace) :=
    List.forall₂_map_right_iff.2 (List.forall₂_same.2 fun turn _ => SpiBus.carries_wire turn.trace)
  have hworking : ∀ turn ∈ looked.1, SpiBus.Working (SpiBus.wire turn.trace) :=
    fun turn _ => SpiBus.working_wire turn.trace
  obtain ⟨-, hbus⟩ := framing_discipline hlives
  obtain ⟨-, hidle⟩ := hbus _ hcarries (List.forall_mem_map.2 hworking)
  exact ⟨hlives, by decide +kernel, hworking, hidle _ (List.prefix_refl _)⟩

end Controller

end IoController
