import IoController.Proofs.Link.Traffic

/-!
# Device — Answers

Two runs to which the surroundings answer the same.

* `Device.answers`: what came back in a run, apart from replies that say nothing.
* `Device.run_unique`: the answers settle the run of an action.
* `Device.Beside`: two actions that go side by side as long as the same comes back.
-/

namespace IoController

deriving instance DecidableEq for Disk.Image

instance Disk.decidableEqReply {α : Type} [DecidableEq α] : DecidableEq (Except Disk.Error α)
  | .ok a, .ok b => decidable_of_iff (a = b) ⟨congrArg _, Except.ok.inj⟩
  | .error e, .error e' => decidable_of_iff (e = e') ⟨congrArg _, Except.error.inj⟩
  | .ok _, .error _ | .error _, .ok _ => isFalse nofun

namespace Device

variable {α β γ δ : Type}

/-- Something that came back from the surroundings. -/
inductive Answer where
  | byte (back : UInt8)
  | sector (reply : Except Disk.Error Disk.Sector)
  | outcome (reply : Except Disk.Error Unit)
  | opened (image : Option Disk.Image)
  | joystick (state : Joystick.State)
  | panel (state : Panel.State)
  deriving DecidableEq

/-- What came back in an exchange, if the reply can say anything. -/
def answer? : Exchange Device → Option Answer
  | ⟨.link (.transfer _), back⟩ => some (.byte back)
  | ⟨.medium (.read _), reply⟩ | ⟨.file (.read _), reply⟩ => some (.sector reply)
  | ⟨.medium (.write ..), reply⟩ | ⟨.file (.write ..), reply⟩ => some (.outcome reply)
  | ⟨.file (.index _), reply⟩ | ⟨.file (.seek ..), reply⟩ => some (.outcome reply)
  | ⟨.file (.openFile _), image⟩ => some (.opened image)
  | ⟨.host (.readDb9 _), state⟩ => some (.joystick state)
  | ⟨.host .readPanel, state⟩ => some (.panel state)
  | _ => none

/-- What came back in the run `t`, in order. -/
def answers (t : Trace Device) : List Answer := t.filterMap answer?

theorem answers_append (t₁ t₂ : Trace Device) : answers (t₁ ++ t₂) = answers t₁ ++ answers t₂ :=
  List.filterMap_append

theorem answers_cons (e : Exchange Device) (t : Trace Device) :
    answers (e :: t) = (answer? e).toList ++ answers t := by
  unfold answers
  cases h : answer? e with
  | none => exact List.filterMap_cons_none h
  | some a => exact List.filterMap_cons_some h

/-- The replies to one request `r` differ in what came back, or not at all. -/
theorem answer?_cancel {r : Device.Request} {x x' : Device.Reply r} {s s' : List Answer}
    (h : (answer? ⟨r, x⟩).toList ++ s = (answer? ⟨r, x'⟩).toList ++ s') : x = x' ∧ s = s' := by
  rcases r with (_ | _ | _) | (_ | _) | (_ | _ | _ | _ | _ | _) |
    (_ | _ | _ | _ | _ | _ | _ | _) <;> simpa [answer?] using h

/-- **The answers settle the run.**  Two runs of the action `p` to which the same `answers` came are
the same run. -/
theorem run_unique {p : Action α} {t t' : Trace Device} {a a' : α} (h : p.Run t a)
    (h' : p.Run t' a') (hsame : answers t = answers t') : t = t' ∧ a = a' := by
  -- on the action: each request is the same, and so is what came back
  induction p generalizing t t' with
  | done b =>
    obtain ⟨rfl, rfl⟩ := Program.run_done_iff.1 h
    obtain ⟨rfl, rfl⟩ := Program.run_done_iff.1 h'
    exact ⟨rfl, rfl⟩
  | ask r k ih =>
    obtain ⟨x, t₁, rfl, hrest⟩ := Program.run_ask_iff.1 h
    obtain ⟨x', t₁', rfl, hrest'⟩ := Program.run_ask_iff.1 h'
    rw [answers_cons, answers_cons] at hsame
    obtain ⟨rfl, hlater⟩ := answer?_cancel hsame
    obtain ⟨rfl, rfl⟩ := ih x hrest hrest' hlater
    exact ⟨rfl, rfl⟩

/-! ### Side by side -/

/-- Every run of `p` has a run of `q` beside it to which the same was answered, and the two satisfy
`Q`: what each asked of the link, and its result. -/
def Beside (p : Action α) (q : Action β)
    (Q : List Link.Request → α → List Link.Request → β → Prop) : Prop :=
  ∀ t a, p.Run t a → ∃ t' b, q.Run t' b ∧ answers t' = answers t ∧
    Q (Link.traffic t) a (Link.traffic t') b

namespace Beside

variable {p : Action α} {q : Action β} {f : α → Action γ} {g : β → Action δ}
  {Q Q' : List Link.Request → α → List Link.Request → β → Prop}
  {R : List Link.Request → γ → List Link.Request → δ → Prop}

theorem done {a : α} {b : β} (h : Q [] a [] b) : Beside (.done a) (.done b) Q := by
  intro t a' hrun
  obtain ⟨rfl, rfl⟩ := Program.run_done_iff.1 hrun
  exact ⟨[], b, .done b, rfl, h⟩

theorem bind (h : Beside p q fun u a u' b =>
    Beside (f a) (g b) fun v c v' d => R (u ++ v) c (u' ++ v') d) :
    Beside (p >>= f) (q >>= g) R := by
  intro t c hrun
  obtain ⟨t₁, t₂, a, rfl, hfirst, hrest⟩ := Program.run_bind_iff.1 hrun
  obtain ⟨t₁', b, hfirst', hsame, hnext⟩ := h t₁ a hfirst
  obtain ⟨t₂', d, hrest', hsame', hR⟩ := hnext t₂ c hrest
  refine ⟨t₁' ++ t₂', d, hfirst'.bind hrest', ?_, ?_⟩
  · rw [answers_append, answers_append, hsame, hsame']
  · rwa [Link.traffic_append, Link.traffic_append]

/-- What holds of the two implies what follows from `Q`. -/
theorem mono (h : Beside p q Q) (himp : ∀ u a u' b, Q u a u' b → Q' u a u' b) :
    Beside p q Q' := by
  intro t a hrun
  obtain ⟨t', b, hrun', hsame, hQ⟩ := h t a hrun
  exact ⟨t', b, hrun', hsame, himp _ _ _ _ hQ⟩

/-- An action beside itself. -/
theorem same {Q : List Link.Request → α → Prop} (h : Link.Sends p Q) :
    Beside p p fun u a u' a' => u = u' ∧ a = a' ∧ Q u a :=
  fun t a hrun => ⟨t, a, hrun, rfl, rfl, rfl, h t a hrun⟩

/-- To transfer `b` beside `b'`, answered alike. -/
theorem transfer (b b' : UInt8) :
    Beside (Link.transfer b) (Link.transfer b') fun u _ u' _ =>
      u = [.transfer b] ∧ u' = [.transfer b'] := by
  intro t back hrun
  obtain rfl := Program.run_request_iff.1 hrun
  exact ⟨_, back, Program.run_request_iff.2 rfl, rfl, rfl, rfl⟩

/-- The `bytes` beside as many others. -/
theorem send {bytes bytes' : Bytes} (hlength : bytes.length = bytes'.length) :
    Beside (Link.send bytes) (Link.send bytes') fun u _ u' _ =>
      u = bytes.map .transfer ∧ u' = bytes'.map .transfer := by
  induction bytes generalizing bytes' with
  | nil =>
    obtain _ | _ := bytes'
    · exact .done ⟨rfl, rfl⟩
    · cases hlength
  | cons b bytes ih =>
    obtain _ | ⟨b', bytes'⟩ := bytes'
    · cases hlength
    · refine .bind ((transfer b b').mono fun u _ u' _ hfirst => ?_)
      refine (ih (Nat.succ.inj hlength)).mono fun v _ v' _ hrest => ?_
      obtain ⟨rfl, rfl⟩ := hfirst
      obtain ⟨rfl, rfl⟩ := hrest
      exact ⟨rfl, rfl⟩

/-- A command beside one with another `payload` of the same length. -/
theorem command (opcode : UInt8) (payload payload' : Bytes)
    (hlength : payload.length = payload'.length) :
    Beside (Link.command opcode payload) (Link.command opcode payload') fun u _ u' _ =>
      u = Link.framing .io (opcode :: payload) ∧ u' = Link.framing .io (opcode :: payload') := by
  have hframe : (opcode :: payload).length = (opcode :: payload').length :=
    congrArg Nat.succ hlength
  refine .bind ((same (Link.sends_request _)).mono fun u _ u' _ hselect => ?_)
  refine .bind ((send hframe).mono fun v _ v' _ hbody => ?_)
  refine .bind ((same (Link.sends_request _)).mono fun w _ w' _ hdeselect => .done ?_)
  obtain ⟨rfl, -, rfl⟩ := hselect
  obtain ⟨rfl, rfl⟩ := hbody
  obtain ⟨rfl, -, rfl⟩ := hdeselect
  exact ⟨rfl, rfl⟩

end Beside

end Device

end IoController
