import IoController.Program.Basic

/-!
# Program — Trace

The runs of a program, as the list of what it asked and what it was answered.  A run puts no
condition on the replies.

* `Program.Run p t a`: `p` can end with `a` after the exchanges `t`.
* `Program.run_bind_iff`: the runs of `p >>= f` are the runs of `p` followed by those of `f`.
-/

namespace IoController

/-- A request and the reply to it. -/
structure Exchange (I : Interface) where
  request : I.Request
  reply : I.Reply request

/-- What passed between a program and its surroundings, in order. -/
abbrev Trace (I : Interface) := List (Exchange I)

namespace Program

variable {I : Interface} {α β : Type}

/-- A program can end with the value `a` after the exchanges `t`. -/
inductive Run : Program I α → Trace I → α → Prop where
  | done (a : α) : Run (done a) [] a
  | ask {r : I.Request} {k : I.Reply r → Program I α} {t : Trace I} {a : α}
      (x : I.Reply r) (rest : Run (k x) t a) : Run (ask r k) (⟨r, x⟩ :: t) a

/-- A program that is `done` asks nothing more. -/
@[simp] theorem run_done_iff {a b : α} {t : Trace I} :
    Run (done a) t b ↔ t = [] ∧ b = a := by
  constructor
  · rintro ⟨⟩
    exact ⟨rfl, rfl⟩
  · rintro ⟨rfl, rfl⟩
    exact .done b

/-- A run of a program that asks `r` begins with a reply to `r`. -/
@[simp] theorem run_ask_iff {r : I.Request} {k : I.Reply r → Program I α} {t : Trace I} {a : α} :
    Run (ask r k) t a ↔ ∃ x t', t = ⟨r, x⟩ :: t' ∧ Run (k x) t' a := by
  constructor
  · rintro ⟨⟩
    exact ⟨_, _, rfl, by assumption⟩
  · rintro ⟨x, t', rfl, h⟩
    exact .ask x h

@[simp] theorem run_request_iff {r : I.Request} {t : Trace I} {x : I.Reply r} :
    Run (request r) t x ↔ t = [⟨r, x⟩] := by
  constructor
  · rintro (_ | ⟨_, ⟨⟩⟩)
    rfl
  · rintro rfl
    exact .ask x (.done x)

/-- The runs of `p >>= f` are those of `p`, each followed by one of `f` at its value. -/
theorem run_bind_iff {p : Program I α} {f : α → Program I β} {t : Trace I} {b : β} :
    Run (p >>= f) t b ↔ ∃ t₁ t₂ a, t = t₁ ++ t₂ ∧ Run p t₁ a ∧ Run (f a) t₂ b := by
  induction p generalizing t with
  | done a =>
    constructor
    · intro h
      exact ⟨[], t, a, rfl, .done a, h⟩
    · rintro ⟨t₁, t₂, a', rfl, h₁, h₂⟩
      obtain ⟨rfl, rfl⟩ := run_done_iff.1 h₁
      exact h₂
  | ask r k ih =>
    rw [ask_bind, run_ask_iff]
    constructor
    · rintro ⟨x, t', rfl, h⟩
      obtain ⟨t₁, t₂, a, rfl, h₁, h₂⟩ := (ih x).1 h
      exact ⟨⟨r, x⟩ :: t₁, t₂, a, rfl, .ask x h₁, h₂⟩
    · rintro ⟨t₁, t₂, a, rfl, h₁, h₂⟩
      obtain ⟨x, t', rfl, h⟩ := run_ask_iff.1 h₁
      exact ⟨x, t' ++ t₂, rfl, (ih x).2 ⟨t', t₂, a, rfl, h, h₂⟩⟩

theorem Run.bind {p : Program I α} {f : α → Program I β} {t₁ t₂ : Trace I} {a : α} {b : β}
    (h₁ : Run p t₁ a) (h₂ : Run (f a) t₂ b) : Run (p >>= f) (t₁ ++ t₂) b :=
  run_bind_iff.2 ⟨t₁, t₂, a, rfl, h₁, h₂⟩

/-- The runs of a program that ends with `g` of what `p` ends with are those of `p`. -/
theorem run_map_iff {p : Program I α} {g : α → β} {t : Trace I} {b : β} :
    Run (p >>= fun a => .done (g a)) t b ↔ ∃ a, Run p t a ∧ b = g a := by
  constructor
  · intro h
    obtain ⟨t, _, a, rfl, hrun, hdone⟩ := run_bind_iff.1 h
    obtain ⟨rfl, rfl⟩ := run_done_iff.1 hdone
    exact ⟨a, (List.append_nil t).symm ▸ hrun, rfl⟩
  · rintro ⟨a, hrun, rfl⟩
    exact run_bind_iff.2 ⟨t, [], a, (List.append_nil t).symm, hrun, .done (g a)⟩

end Program

end IoController
