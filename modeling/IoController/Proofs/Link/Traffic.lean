import IoController.Link.Command
import IoController.Program.Trace

/-!
# Link — Traffic

What passes over the link to the core, whatever the surroundings answer.

* `Link.traffic`: what a trace asks of the link; nothing else concerns the core.
* `Link.Sends`: what every run of an action asks of the link, together with its result.
* `Link.sends_command`, `Link.sends_pollIdentity`: the frames of a command and of a check.
-/

namespace IoController.Link

deriving instance DecidableEq for Link.Request

variable {α β : Type}

/-- What the trace `t` asks of the link, in order. -/
def traffic (t : Trace Device) : List Link.Request :=
  t.filterMap fun x => match x.request with
    | .link r => some r
    | _ => none

theorem traffic_append (t₁ t₂ : Trace Device) : traffic (t₁ ++ t₂) = traffic t₁ ++ traffic t₂ :=
  List.filterMap_append

/-- What every run of the action `p` asks of the link, together with its result, satisfies `Q`. -/
def Sends (p : Action α) (Q : List Link.Request → α → Prop) : Prop :=
  ∀ t a, p.Run t a → Q (traffic t) a

namespace Sends

variable {p : Action α} {f : α → Action β} {Q Q' : List Link.Request → α → Prop}
  {R : List Link.Request → β → Prop}

theorem done {a : α} (h : Q [] a) : Sends (.done a) Q := by
  intro t b hrun
  obtain ⟨rfl, rfl⟩ := Program.run_done_iff.1 hrun
  exact h

theorem bind (h : Sends p fun u a => Sends (f a) fun v b => R (u ++ v) b) :
    Sends (p >>= f) R := by
  intro t b hrun
  obtain ⟨t₁, t₂, a, rfl, hfirst, hrest⟩ := Program.run_bind_iff.1 hrun
  rw [traffic_append]
  exact h t₁ a hfirst t₂ b hrest

theorem mono (h : Sends p Q) (himp : ∀ u a, Q u a → Q' u a) : Sends p Q' :=
  fun t a hrun => himp _ a (h t a hrun)

theorem any (p : Action α) : Sends p fun _ _ => True := fun _ _ _ => trivial

end Sends

/-- A `request` asks for itself. -/
theorem sends_request (r : Link.Request) : Sends (request r) fun u _ => u = [r] := by
  intro t a hrun
  obtain rfl := Program.run_request_iff.1 hrun
  rfl

/-- The services around the controller are no part of the link, whatever the request `r`. -/
theorem sends_host (r : Host.Request) : Sends (Host.request r) fun u _ => u = [] := by
  intro t a hrun
  obtain rfl := Program.run_request_iff.1 hrun
  rfl

/-! ### Frames -/

/-- What the link is asked for in a frame of `bytes`. -/
def framing (target : Target) (bytes : Bytes) : List Link.Request :=
  .select target :: (bytes.map .transfer ++ [.deselect])

theorem framing_ne_nil (target : Target) (bytes : Bytes) : framing target bytes ≠ [] :=
  List.cons_ne_nil _ _

/-- A frame is what its `body` asks for, between a `select` and a `deselect`. -/
theorem sends_framed {body : Action α} {Q : List Link.Request → α → Prop} (target : Target)
    (h : Sends body Q) :
    Sends (framed target body) fun u a =>
      ∃ v, Q v a ∧ u = .select target :: (v ++ [.deselect]) := by
  refine .bind ((sends_request _).mono fun u _ hselect => ?_)
  refine .bind (h.mono fun v a hbody => ?_)
  refine .bind ((sends_request _).mono fun w _ hdeselect => .done ?_)
  refine ⟨v, hbody, ?_⟩
  rw [hselect, hdeselect, List.append_nil]
  rfl

theorem sends_send (bytes : Bytes) : Sends (send bytes) fun u _ => u = bytes.map .transfer := by
  induction bytes with
  | nil => exact .done rfl
  | cons b bytes ih =>
    refine .bind ((sends_request _).mono fun u _ hfirst => ih.mono fun v _ hrest => ?_)
    rw [hfirst, hrest]
    rfl

/-- To send a `frame` asks for it byte by byte. -/
theorem sends_frame (target : Target) (bytes : Bytes) :
    Sends (frame target bytes) fun u _ => u = framing target bytes := by
  refine (sends_framed target (sends_send bytes)).mono fun u _ hframe => ?_
  obtain ⟨v, rfl, rfl⟩ := hframe
  rfl

theorem sends_command (opcode : UInt8) (payload : Bytes) :
    Sends (command opcode payload) fun u _ => u = framing .io (opcode :: payload) :=
  sends_frame .io _

/-! ### Checks -/

/-- What a check of the core asks of the link: a frame of one byte, and one more clock. -/
def identification : List Link.Request := framing .io [0xff] ++ [.transfer 0xff]

theorem sends_pollIdentity : Sends pollIdentity fun u _ => u = identification := by
  refine .bind ((sends_framed .io (sends_request _)).mono fun u id hframe => ?_)
  refine .bind ((sends_request _).mono fun v _ hclock => .done ?_)
  obtain ⟨w, rfl, rfl⟩ := hframe
  rw [hclock, List.append_nil]
  rfl

end IoController.Link
