import IoController.Program.Trace

/-!
# Program — Spells

Runs read in entries, each of which stands for some exchanges.

* `Program.Spells`: every run of a program is made of whole entries, and these, with its result,
  satisfy a condition.  `Program.Spells.bind` goes through a program step by step.
-/

namespace IoController.Program

variable {I : Interface} {ε α β : Type} {render : ε → Trace I}

/-- Every run of `p` is made of entries, by `render`, and these, with its result, satisfy `Q`. -/
def Spells (render : ε → Trace I) (p : Program I α) (Q : List ε → α → Prop) : Prop :=
  ∀ t a, p.Run t a → ∃ es, t = es.flatMap render ∧ Q es a

namespace Spells

variable {p : Program I α} {f : α → Program I β} {Q Q' : List ε → α → Prop}
  {R : List ε → β → Prop}

theorem done {a : α} (h : Q [] a) : Spells render (.done a) Q := by
  intro t b hrun
  obtain ⟨rfl, rfl⟩ := run_done_iff.1 hrun
  exact ⟨[], rfl, h⟩

/-- One request is one `entry`. -/
theorem request {r : I.Request} {entry : I.Reply r → ε}
    (h : ∀ x, render (entry x) = [⟨r, x⟩]) :
    Spells render (.request r) fun es x => es = [entry x] := by
  intro t x hrun
  obtain rfl := run_request_iff.1 hrun
  exact ⟨[entry x], by simp [h], rfl⟩

theorem bind (h : Spells render p fun es a => Spells render (f a) fun es' b => R (es ++ es') b) :
    Spells render (p >>= f) R := by
  intro t b hrun
  obtain ⟨t₁, t₂, a, rfl, hfirst, hrest⟩ := run_bind_iff.1 hrun
  obtain ⟨es₁, rfl, hnext⟩ := h t₁ a hfirst
  obtain ⟨es₂, rfl, hR⟩ := hnext t₂ b hrest
  exact ⟨es₁ ++ es₂, List.flatMap_append.symm, hR⟩

/-- The entries satisfy whatever follows from `Q`. -/
theorem mono (h : Spells render p Q) (himp : ∀ es a, Q es a → Q' es a) : Spells render p Q' := by
  intro t a hrun
  obtain ⟨es, ht, hQ⟩ := h t a hrun
  exact ⟨es, ht, himp es a hQ⟩

/-- The exchanges of the entries `es` are a run. -/
theorem run (h : Spells render p Q) :
    Spells render p fun es a => p.Run (es.flatMap render) a ∧ Q es a := by
  intro t a hrun
  obtain ⟨es, rfl, hQ⟩ := h t a hrun
  exact ⟨es, rfl, hrun, hQ⟩

/-- What holds of every entry of both parts, `P`, holds of every entry of the whole. -/
theorem bind_all {P : ε → Prop} (hp : Spells render p fun es _ => ∀ e ∈ es, P e)
    (hf : ∀ a, Spells render (f a) fun es _ => ∀ e ∈ es, P e) :
    Spells render (p >>= f) fun es _ => ∀ e ∈ es, P e := by
  refine .bind (hp.mono fun es a hfirst => (hf a).mono fun es' b hrest e he => ?_)
  rcases List.mem_append.1 he with he | he
  · exact hfirst e he
  · exact hrest e he

end Spells

end IoController.Program
