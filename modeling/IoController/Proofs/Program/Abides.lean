import IoController.Program.Trace

/-!
# Program — Abides

What a program may ask, and what its runs come to.  A request that is never answered, as a reset is
not, is on no run; it is still reached.

* `Program.Reaches p t r`: after the exchanges `t` the program `p` asks `r`.
* `Program.Abides P Q p`: what `p` asks satisfies `P`, and what its runs come to satisfies `Q`.
  `Program.Abides.bind` goes through a program step by step; `Program.Abides.requests`: what holds
  of all that is asked holds of all exchanges.
* `Program.Serves`: the exchanges over one interface by which those over another are carried out.
  `Program.run_simulate_iff`: the runs of a program that is simulated.
* `Program.Abides.simulate`: what holds of every request that is served holds of the whole.
-/

namespace IoController.Program

variable {I J : Interface} {σ α β : Type}

/-! ### Requests -/

/-- The program `Reaches` a request: it can come to ask the request after the exchanges of the
trace. -/
inductive Reaches : Program I α → Trace I → I.Request → Prop where
  | here {r : I.Request} {k : I.Reply r → Program I α} : Reaches (ask r k) [] r
  | later {r r' : I.Request} {k : I.Reply r → Program I α} {t : Trace I} (x : I.Reply r)
      (rest : Reaches (k x) t r') : Reaches (ask r k) (⟨r, x⟩ :: t) r'

/-- What a sequence of programs asks, `p` asks, or `f` after it. -/
theorem reaches_bind_iff {p : Program I α} {f : α → Program I β} {t : Trace I} {r : I.Request} :
    Reaches (p >>= f) t r ↔
      p.Reaches t r ∨ ∃ t₁ t₂ a, t = t₁ ++ t₂ ∧ p.Run t₁ a ∧ (f a).Reaches t₂ r := by
  induction p generalizing t with
  | done a =>
    constructor
    · intro h
      exact .inr ⟨[], t, a, rfl, .done a, h⟩
    · rintro (h | ⟨t₁, t₂, b, rfl, hrun, h⟩)
      · nomatch h
      · obtain ⟨rfl, rfl⟩ := run_done_iff.1 hrun
        exact h
  | ask r' k ih =>
    constructor
    · rintro (_ | ⟨x, rest⟩)
      · exact .inl .here
      · obtain h | ⟨t₁, t₂, a, rfl, hrun, h⟩ := (ih x).1 rest
        · exact .inl (.later x h)
        · exact .inr ⟨⟨r', x⟩ :: t₁, t₂, a, rfl, .ask x hrun, h⟩
    · rintro ((_ | ⟨x, rest⟩) | ⟨t₁, t₂, a, rfl, hrun, h⟩)
      · exact .here
      · exact .later x ((ih x).2 (.inl rest))
      · obtain ⟨x, t', rfl, hrest⟩ := run_ask_iff.1 hrun
        exact .later x ((ih x).2 (.inr ⟨t', t₂, a, rfl, hrest, h⟩))

/-- What `p` never asks is asked, if at all, after it. -/
theorem reaches_bind_of_never {p : Program I α} {r : I.Request} (h : ∀ t, ¬ p.Reaches t r)
    {f : α → Program I β} {t : Trace I} :
    (p >>= f).Reaches t r ↔ ∃ t₁ t₂ a, t = t₁ ++ t₂ ∧ p.Run t₁ a ∧ (f a).Reaches t₂ r :=
  reaches_bind_iff.trans (or_iff_right (h t))

/-- What `p` never asks is not asked by ending with `g` of what `p` ends with either. -/
theorem never_map {p : Program I α} {r : I.Request} (h : ∀ t, ¬ p.Reaches t r) (g : α → β)
    (t : Trace I) : ¬ (p >>= fun a => .done (g a)).Reaches t r := by
  intro hreaches
  obtain ⟨_, _, a, rfl, -, hdone⟩ := (reaches_bind_of_never h).1 hreaches
  nomatch hdone

/-- Whatever is on a run `t` is reached. -/
theorem Run.reaches {p : Program I α} {t : Trace I} {a : α} (h : p.Run t a) {t₁ t₂ : Trace I}
    {x : Exchange I} (ht : t = t₁ ++ x :: t₂) : p.Reaches t₁ x.request := by
  induction h generalizing t₁ with
  | done a => exact absurd ht.symm (by simp)
  | @ask r k t a reply rest ih =>
    cases t₁ with
    | nil =>
      obtain ⟨rfl, -⟩ := List.cons.inj ht
      exact .here
    | cons y t₁ =>
      obtain ⟨rfl, hrest⟩ := List.cons.inj ht
      exact .later reply (ih hrest)

/-! ### Conduct -/

/-- What the program asks satisfies `P`, given the exchanges before it, and what its runs come to
satisfies `Q`. -/
structure Abides (P : Trace I → I.Request → Prop) (Q : Trace I → α → Prop) (p : Program I α) :
    Prop where
  asks {t : Trace I} {r : I.Request} (h : p.Reaches t r) : P t r
  ends {t : Trace I} {a : α} (h : p.Run t a) : Q t a

namespace Abides

variable {P P' : Trace I → I.Request → Prop} {Q Q' : Trace I → α → Prop}
  {R : Trace I → β → Prop} {p : Program I α}

theorem done {a : α} (h : Q [] a) : Abides P Q (.done a) where
  asks := nofun
  ends hrun := by
    obtain ⟨rfl, rfl⟩ := run_done_iff.1 hrun
    exact h

/-- A request that satisfies `P`, and what comes after it. -/
theorem ask {r : I.Request} {k : I.Reply r → Program I α} (h : P [] r)
    (hk : ∀ x, Abides (fun t => P (⟨r, x⟩ :: t)) (fun t => Q (⟨r, x⟩ :: t)) (k x)) :
    Abides P Q (.ask r k) where
  asks := by
    rintro t r' (_ | ⟨x, rest⟩)
    · exact h
    · exact (hk x).asks rest
  ends hrun := by
    obtain ⟨x, t, rfl, hrest⟩ := run_ask_iff.1 hrun
    exact (hk x).ends hrest

/-- One request that satisfies `P`. -/
theorem request {r : I.Request} {Q : Trace I → I.Reply r → Prop} (h : P [] r)
    (hQ : ∀ x, Q [⟨r, x⟩] x) : Abides P Q (.request r) :=
  .ask h fun x => .done (hQ x)

/-- What comes after `p` has the exchanges of `p` before it. -/
theorem bind {f : α → Program I β}
    (h : Abides P (fun t a => Abides (fun t' => P (t ++ t')) (fun t' => R (t ++ t')) (f a)) p) :
    Abides P R (p >>= f) where
  asks hreaches := by
    obtain hfirst | ⟨t₁, t₂, a, rfl, hrun, hrest⟩ := reaches_bind_iff.1 hreaches
    · exact h.asks hfirst
    · exact (h.ends hrun).asks hrest
  ends hrun := by
    obtain ⟨t₁, t₂, a, rfl, hfirst, hrest⟩ := run_bind_iff.1 hrun
    exact (h.ends hfirst).ends hrest

/-- What abides by `P` abides by whatever follows from it. -/
theorem mono (h : Abides P Q p) (hP : ∀ t r, P t r → P' t r) (hQ : ∀ t a, Q t a → Q' t a) :
    Abides P' Q' p where
  asks hreaches := hP _ _ (h.asks hreaches)
  ends hrun := hQ _ _ (h.ends hrun)

/-- What runs come to may be told more loosely. -/
theorem imp (h : Abides P Q p) (hQ : ∀ t a, Q t a → Q' t a) : Abides P Q' p :=
  h.mono (fun _ _ hP => hP) hQ

/-- To end with `g` of what `p` ends with asks nothing more. -/
theorem map {g : α → β} (h : Abides P (fun t a => R t (g a)) p) :
    Abides P R (p >>= fun a => .done (g a)) where
  asks hreaches := by
    obtain hfirst | ⟨t₁, t₂, a, rfl, hrun, hdone⟩ := reaches_bind_iff.1 hreaches
    · exact h.asks hfirst
    · nomatch hdone
  ends hrun := by
    obtain ⟨a, hfirst, rfl⟩ := run_map_iff.1 hrun
    exact h.ends hfirst

/-- What a run comes to may be told together with the run. -/
theorem run (h : Abides P Q p) : Abides P (fun t a => p.Run t a ∧ Q t a) p where
  asks hreaches := h.asks hreaches
  ends hrun := ⟨hrun, h.ends hrun⟩

/-- A condition `P` on requests by themselves holds of every exchange of a run. -/
theorem requests {P : I.Request → Prop} (h : Abides (fun _ => P) Q p) :
    Abides (fun _ => P) (fun t a => (∀ x ∈ t, P x.request) ∧ Q t a) p where
  asks hreaches := h.asks hreaches
  ends hrun := by
    refine ⟨fun x hx => ?_, h.ends hrun⟩
    obtain ⟨t₁, t₂, ht⟩ := List.append_of_mem hx
    exact h.asks (hrun.reaches ht)

end Abides

/-! ### Programs that are carried out -/

/-- The exchanges over `J` by which `serve` carries out exchanges over `I`, one after another, and
the state that it keeps meanwhile. -/
inductive Serves (serve : σ → (r : I.Request) → Program J (I.Reply r × σ)) :
    σ → Trace I → Trace J → σ → Prop where
  | nil (s : σ) : Serves serve s [] [] s
  | cons {r : I.Request} {x : I.Reply r} {t : Trace I} {w w' : Trace J} {s s' s'' : σ}
      (first : (serve s r).Run w (x, s')) (rest : Serves serve s' t w' s'') :
      Serves serve s (⟨r, x⟩ :: t) (w ++ w') s''

variable {serve : σ → (r : I.Request) → Program J (I.Reply r × σ)}

/-- What `f` does after a program `p` is carried out after it. -/
theorem simulate_bind (p : Program I α) (f : α → Program I β) (s : σ) :
    (p >>= f).simulate serve s = p.simulate serve s >>= fun (a, s') => (f a).simulate serve s' := by
  induction p generalizing s with
  | done a => rfl
  | ask r k ih =>
    have hnext : (fun x : I.Reply r × σ => (k x.1 >>= f).simulate serve x.2) = fun x =>
        (k x.1).simulate serve x.2 >>= fun y => (f y.1).simulate serve y.2 :=
      funext fun x => ih x.1 x.2
    exact (congrArg (serve s r).bind hnext).trans (bind_assoc (serve s r) _ _).symm

/-- A program that is carried out ends as it could end by itself, with exchanges by which `serve`
carries out its own. -/
theorem run_simulate_iff {p : Program I α} {s s' : σ} {w : Trace J} {a : α} :
    (p.simulate serve s).Run w (a, s') ↔ ∃ t, p.Run t a ∧ Serves serve s t w s' := by
  induction p generalizing s w with
  | done b =>
    constructor
    · intro h
      obtain ⟨rfl, heq⟩ := run_done_iff.1 h
      obtain ⟨rfl, rfl⟩ := Prod.mk.inj heq
      exact ⟨[], .done a, .nil s'⟩
    · rintro ⟨t, hrun, hserves⟩
      obtain ⟨rfl, rfl⟩ := run_done_iff.1 hrun
      cases hserves
      exact .done _
  | ask r k ih =>
    constructor
    · intro h
      obtain ⟨w₁, w₂, ⟨x, s₁⟩, rfl, hfirst, hrest⟩ := run_bind_iff.1 h
      obtain ⟨t, hrun, hserves⟩ := (ih x).1 hrest
      exact ⟨⟨r, x⟩ :: t, .ask x hrun, .cons hfirst hserves⟩
    · rintro ⟨t, hrun, hserves⟩
      obtain ⟨x, t', rfl, hrest⟩ := run_ask_iff.1 hrun
      cases hserves with
      | cons first rest => exact run_bind_iff.2 ⟨_, _, _, rfl, first, (ih x).2 ⟨t', hrest, rest⟩⟩

/-- What holds before anything is served, `K`, and is kept by whatever is served, holds at every
request and at the end. -/
theorem Abides.simulate {P : Trace J → J.Request → Prop} {K : Trace J → σ → Prop}
    (hserve : ∀ w s r, K w s →
      Abides (fun w' => P (w ++ w')) (fun w' x => K (w ++ w') x.2) (serve s r))
    {w : Trace J} {s : σ} (h : K w s) (p : Program I α) :
    Abides (fun w' => P (w ++ w')) (fun w' x => K (w ++ w') x.2) (p.simulate serve s) := by
  induction p generalizing w s with
  | done a =>
    refine .done ?_
    rwa [List.append_nil]
  | ask r k ih =>
    refine Abides.bind ((hserve w s r h).imp fun w' x hK => ?_)
    simp only [← List.append_assoc]
    exact ih x.1 hK

end IoController.Program
