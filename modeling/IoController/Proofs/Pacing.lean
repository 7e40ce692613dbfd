import IoController.Time

/-!
# Pacing

What leaves only when a deadline has been reached, and then puts the deadline off by an interval.

* `Paced`: moments in each of which that rule is kept.
* `Paced.departures`: then any two departures are at least the interval apart.
-/

namespace IoController

/-- When something is done, if that is known (`time?`), and when something left (`sentAt?`). -/
structure Moment where
  time? : Option Instant
  sentAt? : Option Instant

/-- Moments that keep to a deadline, at the `interval`, from its state before the first. -/
inductive Paced (interval : Duration) : Deadline → List Moment → Prop where
  | nil (d : Deadline) : Paced interval d []
  | sent {d : Deadline} {now : Instant} {moments : List Moment} (due : d.reached now = true)
      (rest : Paced interval (some (now + interval)) moments) :
      Paced interval d (⟨some now, some now⟩ :: moments)
  /-- Something could leave but nothing does, and there may be another deadline from then on. -/
  | rested {d d' : Deadline} {now : Instant} {moments : List Moment} (due : d.reached now = true)
      (rest : Paced interval d' moments) : Paced interval d (⟨some now, none⟩ :: moments)
  | kept {d : Deadline} {time? : Option Instant} {moments : List Moment}
      (rest : Paced interval d moments) : Paced interval d (⟨time?, none⟩ :: moments)

/-- If the times do not go back and the deadline is not reached before `earliest`, nothing leaves
before that time, and any two things leave at the `interval`. -/
theorem Paced.departures {interval : Duration} {d : Deadline} {moments : List Moment}
    (h : Paced interval d moments) {earliest : Instant}
    (hfree : ∀ now ∈ moments.filterMap (·.time?), d.reached now = true → earliest ≤ now)
    (hsorted : (moments.filterMap (·.time?)).Pairwise (· ≤ ·)) :
    (∀ s ∈ moments.filterMap (·.sentAt?), earliest ≤ s) ∧
      (moments.filterMap (·.sentAt?)).Pairwise fun s s' => s + interval ≤ s' := by
  induction h generalizing earliest with
  | nil d => exact ⟨fun s hs => absurd hs List.not_mem_nil, .nil⟩
  | @sent d now moments due rest ih =>
    obtain ⟨hnow, hlater⟩ := List.pairwise_cons.1 hsorted
    have hle : earliest ≤ now := hfree now List.mem_cons_self due
    -- nothing more leaves before the interval is over
    obtain ⟨hall, hpairs⟩ := ih (fun later _ hreached => of_decide_eq_true hreached) hlater
    refine ⟨fun s hs => ?_, .cons hall hpairs⟩
    rcases List.mem_cons.1 hs with rfl | hs
    · exact hle
    · exact Nat.le_trans hle (Nat.le_trans (Nat.le_add_right _ _) (hall s hs))
  | @rested d d' now moments due rest ih =>
    obtain ⟨hnow, hlater⟩ := List.pairwise_cons.1 hsorted
    have hle : earliest ≤ now := hfree now List.mem_cons_self due
    -- whatever the deadline is now, all moments to come are later
    exact ih (fun later hmem _ => Nat.le_trans hle (hnow later hmem)) hlater
  | @kept d time? moments rest ih =>
    cases time? with
    | none => exact ih hfree hsorted
    | some now =>
      exact ih (fun later hmem => hfree later (List.mem_cons_of_mem _ hmem))
        (List.pairwise_cons.1 hsorted).2

end IoController
