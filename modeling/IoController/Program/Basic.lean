/-!
# Program — Basic

What the controller does to its surroundings, as data.  A `Program I α` either is done with a
value or asks one thing that the interface `I` offers and goes on with the reply.  Nothing is
assumed about the replies: a statement about all runs of a program covers every core, every
medium and every failure.

* `Program.bind_assoc` and the `LawfulMonad` instance: programs may be regrouped freely.
* `Program.run`: a program against surroundings that hold a state and may stop answering.
* `Program.simulate`: each request of one interface carried out by a program over another.
-/

namespace IoController

/-- What a program may ask, and the `Reply` that each `Request` is answered with. -/
structure Interface where
  Request : Type
  Reply : Request → Type

/-- A program over `I` that ends with a value of type `α`. -/
inductive Program (I : Interface) (α : Type) where
  | done (value : α)
  | ask (request : I.Request) (next : I.Reply request → Program I α)

namespace Program

variable {I J : Interface} {α β γ σ : Type}

/-- Runs `p`, then what `f` makes of its value. -/
def bind : Program I α → (α → Program I β) → Program I β
  | done a, f => f a
  | ask r k, f => ask r fun x => (k x).bind f

/-- Asks `r` and is done with the reply. -/
def request (r : I.Request) : Program I (I.Reply r) := ask r done

instance : Monad (Program I) where
  pure := done
  bind := bind

@[simp] theorem pure_eq (a : α) : (pure a : Program I α) = done a := rfl

@[simp] theorem done_bind (a : α) (f : α → Program I β) : done a >>= f = f a := rfl

@[simp] theorem ask_bind (r : I.Request) (k : I.Reply r → Program I α) (f : α → Program I β) :
    ask r k >>= f = ask r fun x => k x >>= f := rfl

/-- To be `done` with a program's value is to do nothing more. -/
theorem bind_done (p : Program I α) : p >>= done = p := by
  induction p with
  | done a => rfl
  | ask r k ih => exact congrArg (ask r) (funext ih)

/-- How a sequence of programs is bracketed makes no difference. -/
theorem bind_assoc (p : Program I α) (f : α → Program I β) (g : β → Program I γ) :
    p >>= f >>= g = p >>= fun a => f a >>= g := by
  induction p with
  | done a => rfl
  | ask r k ih => exact congrArg (ask r) (funext ih)

instance : LawfulMonad (Program I) :=
  LawfulMonad.mk' (Program I) bind_done (fun _ _ => rfl) bind_assoc

/-- Runs a program against surroundings that `answer` from a state of their own.  The result is
`none` if a request is never answered, as a reset is not. -/
def run (answer : σ → (r : I.Request) → Option (I.Reply r) × σ) :
    Program I α → σ → Option α × σ
  | done a, s => (some a, s)
  | ask r k, s =>
    match answer s r with
    | (some x, s') => (k x).run answer s'
    | (none, s') => (none, s')

/-- Carries out every request of a program by the program over `J` that `serve` gives for it, which
may keep a state between requests. -/
def simulate (serve : σ → (r : I.Request) → Program J (I.Reply r × σ)) :
    Program I α → σ → Program J (α × σ)
  | done a, s => done (a, s)
  | ask r k, s => (serve s r).bind fun (x, s') => (k x).simulate serve s'

end Program

end IoController
