import IoController.Proofs.Keyboard.Passes

/-!
# Keyboard — History

What a router lives through: reports, the passing of time, an OSD that is opened or closed from
outside, and changes of core.

* `Router.run`: the events of a history, in order, and the router at its end.
* `Router.answer`: the events of one more input after a history.
* `Router.run_induction`: what every input keeps, every history keeps.
* `Router.feed_router`, `Router.run_remap`: no input changes the settings.
-/

namespace IoController.Keyboard.Router

/-- Something that happens to a router. -/
inductive Input where
  /-- A keyboard reports. -/
  | report (report : Report) (priority : UInt8) (now : Instant)
  /-- Time passes. -/
  | tick (now : Instant)
  /-- The OSD is opened or closed by something other than a key. -/
  | osd (visible : Bool)
  /-- Another core is turned to. -/
  | adopt (profile : Option Profile)

/-- Whether the core stays the same. -/
def Input.keepsCore : Input → Bool
  | .adopt _ => false
  | _ => true

/-- The events that an `Input` makes happen, and the router after it. -/
def feed (r : Router) : Input → List Event × Router
  | .report report priority now => r.receive report priority now
  | .tick now => ((r.tick now).1.toList, (r.tick now).2)
  | .osd visible => ([], r.setOsdVisible visible)
  | .adopt profile => ([], r.adoptProfile profile)

/-- The events of a history that begins with `r`, and the router at its end. -/
def run (r : Router) : List Input → List Event × Router
  | [] => ([], r)
  | i :: is => ((r.feed i).1 ++ ((r.feed i).2.run is).1, ((r.feed i).2.run is).2)

/-- The events of an input `i` that comes after the history `is`. -/
def answer (r : Router) (is : List Input) (i : Input) : List Event := ((r.run is).2.feed i).1

/-- What holds of the router `r` and is kept by every input of a history holds at its end. -/
theorem run_induction {P : Router → Prop} {r : Router} {is : List Input} (h₀ : P r)
    (hstep : ∀ r, ∀ i ∈ is, P r → P (r.feed i).2) : P (r.run is).2 := by
  induction is generalizing r with
  | nil => exact h₀
  | cons i is ih =>
    refine ih (hstep r i List.mem_cons_self h₀) fun r j hj hr => ?_
    exact hstep r j (List.mem_cons_of_mem i hj) hr

/-- No input `i` changes the settings. -/
theorem feed_router (r : Router) (i : Input) :
    (r.feed i).2 =
      { (r.feed i).2 with
        remap := r.remap
        menuAsRightGui := r.menuAsRightGui
        resetCombination := r.resetCombination } := by
  cases i with
  | report report priority now =>
    have hfeed : (r.feed (.report report priority now)).2 = (r.process report priority now).2 := rfl
    rw [hfeed, process_router]
  | tick now =>
    have hfeed : (r.feed (.tick now)).2 = (r.tick now).2 := rfl
    rw [hfeed, tick_router]
  | osd visible => rfl
  | adopt profile => rfl

/-- The remapped keys are those of the settings from beginning to end (`remap`). -/
theorem run_remap (r : Router) (is : List Input) : (r.run is).2.remap = r.remap :=
  run_induction (P := fun s => s.remap = r.remap) rfl fun s i _ hs => by rw [feed_router, hs]

end IoController.Keyboard.Router
