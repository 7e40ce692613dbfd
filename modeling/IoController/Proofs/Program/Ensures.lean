import IoController.Program.Trace

/-!
# Program — Ensures

What a program comes to in surroundings that change by a rule of their own.

* `Trace.Along`: the states that the surroundings go through while a trace is exchanged.
* `Program.Ensures`: whatever the surroundings answer within the rule, the program ends in the
  postcondition.  `Program.Ensures.bind` goes through a program step by step.
* `Program.exists_along`: in surroundings that answer everything every program ends.
* `Program.record`, `Program.script`: the run of a program in surroundings that answer the same
  request always alike, and in surroundings that answer from a script.
-/

namespace IoController

variable {I : Interface} {σ α β : Type} {step : σ → Exchange I → σ → Prop}

/-- The exchanges lead the surroundings from one state to another, each by `step`. -/
inductive Trace.Along (step : σ → Exchange I → σ → Prop) : Trace I → σ → σ → Prop where
  | nil (s : σ) : Along step [] s s
  | cons {x : Exchange I} {t : Trace I} {s s' s'' : σ} (first : step s x s')
      (rest : Along step t s' s'') : Along step (x :: t) s s''

theorem Trace.along_append_iff {t₁ t₂ : Trace I} {s s'' : σ} :
    Along step (t₁ ++ t₂) s s'' ↔ ∃ s', Along step t₁ s s' ∧ Along step t₂ s' s'' := by
  induction t₁ generalizing s with
  | nil =>
    constructor
    · intro h
      exact ⟨s, .nil s, h⟩
    · rintro ⟨s', ⟨⟩, h⟩
      exact h
  | cons x t₁ ih =>
    constructor
    · rintro (_ | ⟨first, rest⟩)
      obtain ⟨s', h₁, h₂⟩ := ih.1 rest
      exact ⟨s', .cons first h₁, h₂⟩
    · rintro ⟨s', _ | ⟨first, rest⟩, h₂⟩
      exact .cons first (ih.2 ⟨s', rest, h₂⟩)

namespace Program

/-- Whatever the surroundings answer by their rule, `step`, the program ends with a value and a
state that satisfy `Q`. -/
def Ensures (step : σ → Exchange I → σ → Prop) (p : Program I α) (s : σ) (Q : α → σ → Prop) :
    Prop :=
  ∀ t a s', p.Run t a → Trace.Along step t s s' → Q a s'

variable {p : Program I α} {f : α → Program I β} {s : σ} {Q : α → σ → Prop} {R : β → σ → Prop}

theorem Ensures.done {a : α} (h : Q a s) : Ensures step (.done a) s Q := by
  intro t b s' hrun halong
  obtain ⟨rfl, rfl⟩ := run_done_iff.1 hrun
  cases halong
  exact h

/-- A request `r`, and what comes after each reply that there may be. -/
theorem Ensures.ask {r : I.Request} {k : I.Reply r → Program I α}
    (h : ∀ x s', step s ⟨r, x⟩ s' → Ensures step (k x) s' Q) : Ensures step (.ask r k) s Q := by
  intro t b s' hrun halong
  obtain ⟨x, t', rfl, hrest⟩ := run_ask_iff.1 hrun
  obtain _ | ⟨first, rest⟩ := halong
  exact h x _ first t' b s' hrest rest

/-- One request `r`, by the rule of the surroundings. -/
theorem Ensures.request {r : I.Request} {Q : I.Reply r → σ → Prop}
    (h : ∀ x s', step s ⟨r, x⟩ s' → Q x s') : Ensures step (.request r) s Q :=
  .ask fun x s' hx => .done (h x s' hx)

theorem Ensures.bind (hp : Ensures step p s fun a s' => Ensures step (f a) s' R) :
    Ensures step (p >>= f) s R := by
  intro t b s' hrun halong
  obtain ⟨t₁, t₂, a, rfl, hfirst, hrest⟩ := run_bind_iff.1 hrun
  obtain ⟨m, halong₁, halong₂⟩ := Trace.along_append_iff.1 halong
  exact hp t₁ a m hfirst halong₁ t₂ b s' hrest halong₂

/-- What is ensured implies whatever follows from `Q`. -/
theorem Ensures.mono {Q' : α → σ → Prop} (hp : Ensures step p s Q)
    (h : ∀ a s', Q a s' → Q' a s') : Ensures step p s Q' :=
  fun t a s' hrun halong => h a s' (hp t a s' hrun halong)

/-- In surroundings that answer every request, every program `p` comes to its end. -/
theorem exists_along (hstep : ∀ s r, ∃ x s', step s ⟨r, x⟩ s') (p : Program I α) (s : σ) :
    ∃ t a s', p.Run t a ∧ Trace.Along step t s s' := by
  induction p generalizing s with
  | done a => exact ⟨[], a, s, .done a, .nil s⟩
  | ask r k ih =>
    obtain ⟨x, s', hfirst⟩ := hstep s r
    obtain ⟨t, a, s'', hrun, hrest⟩ := ih x s'
    exact ⟨⟨r, x⟩ :: t, a, s'', .ask x hrun, .cons hfirst hrest⟩

/-! ### A run to look at -/

/-- The run of a program whose requests are answered by the function `answer`. -/
def record (answer : (r : I.Request) → I.Reply r) : Program I α → Trace I × α
  | .done a => ([], a)
  | .ask r k =>
    let (t, a) := (k (answer r)).record answer
    (⟨r, answer r⟩ :: t, a)

theorem run_record (answer : (r : I.Request) → I.Reply r) (p : Program I α) :
    p.Run (p.record answer).1 (p.record answer).2 := by
  induction p with
  | done a => exact .done a
  | ask r k ih => exact .ask (answer r) (ih (answer r))

/-- A recorded run (`record`) of a program with two results, the first of which, `a`, is known. -/
theorem run_record_of_fst {answer : (r : I.Request) → I.Reply r} {p : Program I (α × β)} {a : α}
    (h : (p.record answer).2.1 = a) :
    p.Run (p.record answer).1 (a, (p.record answer).2.2) := by
  subst h
  exact run_record answer p

/-- The run of a program whose requests are answered from a script, which `answer` shortens. -/
def script (answer : σ → (r : I.Request) → I.Reply r × σ) : Program I α → σ → Trace I × α
  | .done a, _ => ([], a)
  | .ask r k, s =>
    let (x, s') := answer s r
    let (t, a) := (k x).script answer s'
    (⟨r, x⟩ :: t, a)

/-- What is read off a `script` is a run of the program. -/
theorem run_script (answer : σ → (r : I.Request) → I.Reply r × σ) (p : Program I α) (s : σ) :
    p.Run (p.script answer s).1 (p.script answer s).2 := by
  induction p generalizing s with
  | done a => exact .done a
  | ask r k ih => exact .ask _ (ih _ _)

end Program

end IoController
