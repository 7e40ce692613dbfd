import IoController.Proofs.Disk.Announcements
import IoController.Proofs.Disk.Protocol
import IoController.Proofs.Program.Ensures

/-!
# Disk — Turns

What is done with an emulated card: images are mounted and unmounted and the core is polled, in any
order and whatever the surroundings answer.

* `VirtualCard.Lives`: the turns of a card, each with its trace and its result.
* `VirtualCard.Turn.Goes`: what a turn does, by its call.
* `VirtualCard.Turn.request?`: what the core asked for in a poll, read off what came back.
* `VirtualCard.play`: turns in surroundings that answer from a script, to look at.
-/

namespace IoController

open Device (Deed traces)

namespace Disk

/-! ### Requests -/

/-- What the core asks for in a status frame: one byte more than in the older protocol names the
drive. -/
def request? : List (UInt8 × UInt8) → Option Request
  | [_, (_, status), (_, drive), (_, b₃), (_, b₂), (_, b₁), (_, b₀)] =>
    some ⟨status, drive &&& 0x01, Bytes.ofBigEndian [b₃, b₂, b₁, b₀]⟩
  | [_, (_, status), (_, b₃), (_, b₂), (_, b₁), (_, b₀)] =>
    some ⟨status, 0, Bytes.ofBigEndian [b₃, b₂, b₁, b₀]⟩
  | _ => none

theorem StatusFrame.request?_eq {bytes : List (UInt8 × UInt8)} {r : Request}
    (h : StatusFrame bytes r) : request? bytes = some r := by
  obtain ⟨status, drive, lba⟩ := r
  cases h with
  | @newer echo byte b₃ b₂ b₁ b₀ _ high drive_eq lba_eq =>
    have hdrive : byte &&& 0x01 = drive := by
      rw [← UInt8.toNat_inj, UInt8.toNat_and, drive_eq]
      exact Nat.and_one_is_mod _
    have hlba : Bytes.ofBigEndian [b₃, b₂, b₁, b₀] = lba := by
      rw [← UInt32.toNat_inj, Bytes.toNat_ofBigEndian, lba_eq]
    rw [request?, hdrive, hlba]
  | @older echo b₃ b₂ b₁ b₀ _ high drive_eq lba_eq =>
    have hlba : Bytes.ofBigEndian [b₃, b₂, b₁, b₀] = lba := by
      rw [← UInt32.toNat_inj, Bytes.toNat_ofBigEndian, lba_eq]
    rw [request?, hlba, ← drive_eq]

namespace VirtualCard

/-! ### Turns -/

/-- Something that is done with a card. -/
inductive Call where
  | mount (drive : UInt8) (image : Image)
  | unmount (drive : UInt8)
  | poll

/-- What a call comes to. -/
abbrev Call.Result : Call → Type
  | mount .. => Except Error Unit
  | unmount _ => Except Error (Option Image)
  | poll => Outcome

/-- Carries out a `call`. -/
def perform (v : VirtualCard) : (call : Call) → Action (call.Result × VirtualCard)
  | .mount drive image => v.mount drive image
  | .unmount drive => v.unmount drive
  | .poll => v.poll

/-- A `call` that was carried out on the card `before` it. -/
structure Turn where
  before : VirtualCard
  call : Call
  trace : Trace Device
  result : call.Result
  after : VirtualCard

namespace Turn

/-- The call of the `turn` can have gone like that. -/
def Ran (turn : Turn) : Prop :=
  (turn.before.perform turn.call).Run turn.trace (turn.result, turn.after)

/-- A turn goes as its call does: by `Mounts`, `Unmounts` or `Polls`. -/
inductive Goes : Turn → Prop where
  | mount {v v' : VirtualCard} {drive : UInt8} {image : Image} {ds : List Deed}
      {result : Except Error Unit} (mounts : v.Mounts drive image ds (result, v')) :
      Goes ⟨v, .mount drive image, traces ds, result, v'⟩
  | unmount {v v' : VirtualCard} {drive : UInt8} {ds : List Deed}
      {result : Except Error (Option Image)} (unmounts : v.Unmounts drive ds (result, v')) :
      Goes ⟨v, .unmount drive, traces ds, result, v'⟩
  | poll {v v' : VirtualCard} {ds : List Deed} {outcome : Outcome}
      (polls : v.Polls ds (outcome, v')) : Goes ⟨v, .poll, traces ds, outcome, v'⟩

/-- A `turn` that was carried out goes as its call does. -/
theorem Ran.goes {turn : Turn} (h : turn.Ran) : turn.Goes := by
  obtain ⟨v, call, t, result, v'⟩ := turn
  cases call with
  | mount drive image =>
    obtain ⟨ds, rfl, hmounts⟩ := does_mount v drive image t (result, v') h
    exact .mount hmounts
  | unmount drive =>
    obtain ⟨ds, rfl, hunmounts⟩ := does_unmount v drive t (result, v') h
    exact .unmount hunmounts
  | poll =>
    obtain ⟨ds, rfl, hpolls⟩ := does_poll v t (result, v') h
    exact .poll hpolls

/-- What the core asked for in the `turn`, if it was polled. -/
def request? (turn : Turn) : Option Request :=
  match turn.call, Device.journal turn.trace with
  | .poll, first :: _ => Disk.request? first.bytes
  | _, _ => none

/-- What a poll came to. -/
def outcome? : Turn → Option Outcome
  | ⟨_, .poll, _, outcome, _⟩ => some outcome
  | _ => none

/-- The answer to the first frame of a poll is what the core asks for (`request?`). -/
theorem request?_of_status {v v' : VirtualCard} {outcome : Outcome} {bytes : List (UInt8 × UInt8)}
    {r : Request} (h : StatusFrame bytes r) (ds : List Deed) :
    request? ⟨v, .poll, traces (.frame .io bytes :: ds), outcome, v'⟩ = some r := by
  unfold request?
  rw [Device.journal_traces]
  exact h.request?_eq

end Turn

/-- What is done with a card, whatever the surroundings answer. -/
inductive Lives : VirtualCard → List Turn → VirtualCard → Prop where
  | nil (v : VirtualCard) : Lives v [] v
  | cons {turn : Turn} {turns : List Turn} {v : VirtualCard} (ran : turn.Ran)
      (rest : Lives turn.after turns v) : Lives turn.before (turn :: turns) v

variable {v v' : VirtualCard} {turn : Turn} {turns past future : List Turn}

theorem lives_nil_iff : Lives v [] v' ↔ v' = v := by
  constructor
  · rintro ⟨⟩
    rfl
  · rintro rfl
    exact .nil v'

/-- A life that goes on is two lives, `past` and `future`, one after the other. -/
theorem lives_append_iff :
    Lives v (past ++ future) v' ↔ ∃ w, Lives v past w ∧ Lives w future v' := by
  constructor
  · intro h
    induction past generalizing v with
    | nil => exact ⟨v, .nil v, h⟩
    | cons turn past ih =>
      obtain _ | ⟨ran, rest⟩ := h
      obtain ⟨w, hpast, hfuture⟩ := ih rest
      exact ⟨w, .cons ran hpast, hfuture⟩
  · rintro ⟨w, hpast, hfuture⟩
    induction hpast with
    | nil v => exact hfuture
    | cons ran rest ih => exact .cons ran (ih hfuture)

/-- A `turn` begins where the turns before it end. -/
theorem Lives.cut (h : Lives v (past ++ turn :: future) v') :
    Lives v past turn.before ∧ turn.Ran ∧ Lives turn.after future v' := by
  obtain ⟨w, hpast, hrest⟩ := lives_append_iff.1 h
  obtain _ | ⟨ran, rest⟩ := hrest
  exact ⟨hpast, ran, rest⟩

/-! ### Turns to look at -/

/-- Carries out calls, each in surroundings that `answer` from a script of its own. -/
def play {σ : Type} (answer : σ → (r : Device.Request) → Device.Reply r × σ) (v : VirtualCard) :
    List (Call × σ) → List Turn × VirtualCard
  | [] => ([], v)
  | (call, s) :: calls =>
    let (t, result, v') := (v.perform call).script answer s
    let (turns, v'') := v'.play answer calls
    (⟨v, call, t, result, v'⟩ :: turns, v'')

/-- What is carried out by `play` is a life. -/
theorem lives_play {σ : Type} (answer : σ → (r : Device.Request) → Device.Reply r × σ)
    (v : VirtualCard) (calls : List (Call × σ)) :
    Lives v (v.play answer calls).1 (v.play answer calls).2 := by
  induction calls generalizing v with
  | nil => exact .nil v
  | cons call calls ih =>
    have ran : Turn.Ran ⟨v, call.1, _, _, _⟩ :=
      Program.run_script answer (v.perform call.1) call.2
    exact .cons ran (ih _)

theorem play_calls {σ : Type} (answer : σ → (r : Device.Request) → Device.Reply r × σ)
    (v : VirtualCard) (calls : List (Call × σ)) :
    (v.play answer calls).1.map (·.call) = calls.map (·.1) := by
  induction calls generalizing v with
  | nil => rfl
  | cons call calls ih => exact congrArg (call.1 :: ·) (ih _)

end VirtualCard

end Disk

end IoController
