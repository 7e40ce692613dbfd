import IoController.Controller.Poll
import IoController.Proofs.Program.Ensures

/-!
# Controller — Lives

What a controller lives through: it is started, polled and given reports in any order, whatever the
surroundings answer.

* `Controller.Lives`: the turns of a life, each with its trace.
* `Controller.lives_append_iff`, `Controller.Lives.cut`: a life may be cut anywhere.
* `Controller.Lives.invariant`: what every call keeps holds from the beginning to the end.
* `Controller.play`: a life in surroundings that answer by functions, to look at.
-/

namespace IoController.Controller

/-- Something that is done with a controller. -/
inductive Call where
  | start
  | poll (now : Instant)
  | handle (input : UsbReport) (now : Instant)
  | setOsdVisible (visible : Bool)

/-- Carries out a call.  A round says, by its `Phase`, what the loop is to make of it. -/
def perform (c : Controller) : Call → Action (Option Phase × Controller)
  | .start => do
    let c ← c.start
    pure (none, c)
  | .poll now => do
    let (phase, c) ← c.poll now
    pure (some phase, c)
  | .handle input now => do
    let c ← c.handle input now
    pure (none, c)
  | .setOsdVisible visible => pure (none, c.setOsdVisible visible)

/-- A `call` that was carried out, on the controller `before` it and with the exchanges of its
`trace`. -/
structure Turn where
  before : Controller
  call : Call
  trace : Trace Device
  phase? : Option Phase

/-- What a controller lives through, one `Turn` after another, whatever the surroundings answer. -/
inductive Lives : Controller → List Turn → Controller → Prop where
  | nil (c : Controller) : Lives c [] c
  | cons {c c' c'' : Controller} {call : Call} {t : Trace Device} {phase? : Option Phase}
      {turns : List Turn} (run : (c.perform call).Run t (phase?, c'))
      (rest : Lives c' turns c'') : Lives c (⟨c, call, t, phase?⟩ :: turns) c''

variable {c c' c'' : Controller} {turns past future : List Turn} {turn : Turn}

/-- The call of the turn can leave the controller `c`. -/
def Turn.Leaves (turn : Turn) (c : Controller) : Prop :=
  (turn.before.perform turn.call).Run turn.trace (turn.phase?, c)

@[simp] theorem lives_nil_iff : Lives c [] c' ↔ c' = c := by
  constructor
  · rintro ⟨⟩
    rfl
  · rintro rfl
    exact .nil c'

/-- A life begins with its first `turn`. -/
theorem lives_cons_iff :
    Lives c (turn :: turns) c'' ↔ turn.before = c ∧ ∃ c', turn.Leaves c' ∧ Lives c' turns c'' := by
  constructor
  · rintro (_ | ⟨run, rest⟩)
    exact ⟨rfl, _, run, rest⟩
  · rintro ⟨rfl, c', run, rest⟩
    exact .cons run rest

/-- A life that goes on is two lives, `past` and `future`, one after the other. -/
theorem lives_append_iff :
    Lives c (past ++ future) c'' ↔ ∃ c', Lives c past c' ∧ Lives c' future c'' := by
  induction past generalizing c with
  | nil => simp
  | cons turn past ih =>
    simp only [List.cons_append, lives_cons_iff, ih]
    constructor
    · rintro ⟨hbefore, c₁, hrun, c', hpast, hfuture⟩
      exact ⟨c', ⟨hbefore, c₁, hrun, hpast⟩, hfuture⟩
    · rintro ⟨c', ⟨hbefore, c₁, hrun, hpast⟩, hfuture⟩
      exact ⟨hbefore, c₁, hrun, c', hpast, hfuture⟩

/-- A `turn` of a life begins where the turns before it end. -/
theorem Lives.cut (h : Lives c (past ++ turn :: future) c'') :
    Lives c past turn.before ∧ ∃ c', turn.Leaves c' ∧ Lives c (past ++ [turn]) c' := by
  obtain ⟨c₁, hpast, hrest⟩ := lives_append_iff.1 h
  obtain ⟨rfl, c', hrun, -⟩ := lives_cons_iff.1 hrest
  exact ⟨hpast, c', hrun, lives_append_iff.2 ⟨_, hpast, .cons hrun (.nil c')⟩⟩

/-- What `P` says, if it holds at first, and is kept by every turn of a life, holds at its end. -/
theorem Lives.invariant {P : List Turn → Controller → Prop} (h : Lives c turns c') (h₀ : P [] c)
    (hstep : ∀ past, ∀ turn ∈ turns, ∀ c₁, turn.Leaves c₁ → P past turn.before →
      P (past ++ [turn]) c₁) : P turns c' := by
  -- the turns of which it is known already are kept apart from those to come
  have hfrom : ∀ past future c, Lives c future c' → (∀ turn ∈ future, turn ∈ turns) →
      P past c → P (past ++ future) c' := by
    intro past future
    induction future generalizing past with
    | nil =>
      intro c hlives _ hP
      obtain rfl := lives_nil_iff.1 hlives
      rwa [List.append_nil]
    | cons turn future ih =>
      intro c hlives hmem hP
      obtain ⟨rfl, c₁, hrun, hrest⟩ := lives_cons_iff.1 hlives
      have hnext := hstep past turn (hmem turn List.mem_cons_self) c₁ hrun hP
      have hlater :=
        ih _ c₁ hrest (fun turn hturn => hmem turn (List.mem_cons_of_mem _ hturn)) hnext
      rwa [List.append_assoc] at hlater
  exact hfrom [] turns c h (fun _ hturn => hturn) h₀

/-! ### A life to look at -/

/-- Carries out calls, each in surroundings that `answer` by a function of the request. -/
def play (c : Controller) :
    List (Call × ((r : Device.Request) → Device.Reply r)) → List Turn × Controller
  | [] => ([], c)
  | (call, answer) :: calls =>
    let (t, phase?, c') := (c.perform call).record answer
    let (turns, c'') := c'.play calls
    (⟨c, call, t, phase?⟩ :: turns, c'')

/-- What is carried out by `play` is a life. -/
theorem lives_play (c : Controller)
    (calls : List (Call × ((r : Device.Request) → Device.Reply r))) :
    Lives c (c.play calls).1 (c.play calls).2 := by
  induction calls generalizing c with
  | nil => exact .nil c
  | cons call calls ih => exact .cons (Program.run_record call.2 (c.perform call.1)) (ih _)

theorem play_calls (c : Controller)
    (calls : List (Call × ((r : Device.Request) → Device.Reply r))) :
    (c.play calls).1.map (·.call) = calls.map (·.1) := by
  induction calls generalizing c with
  | nil => rfl
  | cons call calls ih => exact congrArg (call.1 :: ·) (ih _)

/-- Surroundings in which every byte that comes back is `byte`, and nothing else is there. -/
def answering (byte : UInt8) : (r : Device.Request) → Device.Reply r
  | .link (.select _) | .link .deselect => ()
  | .link (.transfer _) => byte
  | .medium (.read _) => .error .noMedium
  | .medium (.write ..) => .error .noMedium
  | .file (.openFile _) => none
  | .file (.index _) => .error .io
  | .file (.seek ..) => .error .io
  | .file (.read _) => .error .io
  | .file (.write ..) => .error .io
  | .file (.close _) => ()
  | .host (.readDb9 _) => ∅
  | .host .readPanel => ∅
  | .host (.setLeds ..) | .host (.osdKey _) | .host (.osdVisible _) | .host .osdReset
  | .host (.showError _) | .host (.diskActivity _) => ()

end IoController.Controller
