import IoController.Proofs.Core.Detection
import Mathlib.Data.List.DropRight

/-!
# Core — Watch

What the checks of a core find, by the identification bytes that came back since it was detected.

* `Watches`: checks in a row, whatever comes back.
* `Finds`: what a check is to find, by the bytes that came back before it and the one that comes
  back now.
* `Watched`: what a monitor remembers of these bytes.
* `change_found`: after a detection every check finds just that.  A glitch is passed over, and a
  core that is gone is gone for good.
-/

namespace IoController.Core

open Device (Deed Does)

variable {core : Core} {ids : List UInt8} {id : UInt8} {m m' : Monitor} {looks : List Look}

/-! ### Checks in a row -/

/-- A check that was made: what passed meanwhile, its `trace`, and what it `found`. -/
structure Look where
  trace : Trace Device
  found : Check

/-- The byte that came back in the frame of the check `look`. -/
def Look.id? (look : Look) : Option UInt8 :=
  match Device.journal look.trace with
  | .frame _ [(_, id)] :: _ => some id
  | _ => none

/-- Checks in a row, whatever comes back. -/
inductive Watches : Monitor → List Look → Monitor → Prop where
  | nil (m : Monitor) : Watches m [] m
  | cons {m m' m'' : Monitor} {look : Look} {looks : List Look}
      (run : m.poll.Run look.trace (look.found, m')) (rest : Watches m' looks m'') :
      Watches m (look :: looks) m''

/-- The identification bytes that came back in `looks`, in order. -/
def identified (looks : List Look) : List UInt8 := looks.filterMap Look.id?

/-- A `poll` asks for the identification byte and judges by it. -/
theorem does_poll (m : Monitor) :
    Does m.poll fun ds p => ∃ id extra,
      ds = [.frame .io [(0xff, id)], .clock 0xff extra] ∧ p = m.check id := by
  have hidentity : Does Link.pollIdentity fun ds id => ∃ extra,
      ds = [.frame .io [(0xff, id)], .clock 0xff extra] := by
    refine .bind ((Device.does_framed .io (Device.clocks_transfer 0xff)).mono fun ds id h => ?_)
    obtain ⟨bytes, rfl, rfl⟩ := h
    have hclock : Does (Link.transfer 0xff) fun ds extra => ds = [.clock 0xff extra] :=
      .request fun _ => rfl
    refine .bind (hclock.mono fun ds extra hds => .done ⟨extra, ?_⟩)
    rw [hds]
    rfl
  refine .bind (hidentity.mono fun ds id hds => .done ?_)
  obtain ⟨extra, rfl⟩ := hds
  exact ⟨id, extra, List.append_nil _, rfl⟩

/-- A check `look` that was made judges by the byte that came back. -/
theorem Look.check {look : Look} (hrun : m.poll.Run look.trace (look.found, m')) :
    ∃ id, look.id? = some id ∧ (look.found, m') = m.check id := by
  obtain ⟨-, id, extra, hjournal, hcheck⟩ := (does_poll m).journal hrun
  refine ⟨id, ?_, hcheck⟩
  rw [Look.id?, hjournal]

/-- Checks of a core that answers with the bytes `ids`. -/
def Monitor.watch (m : Monitor) : List UInt8 → List Look × Monitor
  | [] => ([], m)
  | id :: ids =>
    let (t, found, m') := m.poll.record (Device.replying (fun _ => id) none (.error .noMedium))
    let (looks, m'') := m'.watch ids
    (⟨t, found⟩ :: looks, m'')

theorem watches_watch (m : Monitor) (ids : List UInt8) :
    Watches m (m.watch ids).1 (m.watch ids).2 := by
  induction ids generalizing m with
  | nil => exact .nil m
  | cons id ids ih => exact .cons (Program.run_record _ m.poll) (ih _)

theorem identified_watch (m : Monitor) (ids : List UInt8) : identified (m.watch ids).1 = ids := by
  induction ids generalizing m with
  | nil => rfl
  | cons id ids ih => exact congrArg (id :: ·) (ih _)

/-! ### Runs of mismatches -/

/-- Whether `id` is the byte of another core. -/
def isOther (core : Core) (id : UInt8) : Bool := ofId id ≠ core

/-- How many bytes in a row, up to the last of `ids`, were those of another core. -/
def streak (core : Core) (ids : List UInt8) : Nat := (ids.rtakeWhile (isOther core)).length

/-- As many bytes in a row of `ids` as mean that a new core is being loaded were those of another
core. -/
def Lost (core : Core) (ids : List UInt8) : Prop :=
  ∃ row, row <:+: ids ∧ row.length = Monitor.mismatchLimit ∧ ∀ id ∈ row, ofId id ≠ core

theorem streak_snoc_same (h : ofId id = core) : streak core (ids ++ [id]) = 0 := by
  simp [streak, isOther, h]

theorem streak_snoc_other (h : ofId id ≠ core) :
    streak core (ids ++ [id]) = streak core ids + 1 := by
  simp [streak, isOther, h]

/-- The last bytes that were all those of another core are counted. -/
theorem le_streak_iff {n : Nat} :
    n ≤ streak core ids ↔ ∃ row, row <:+ ids ∧ row.length = n ∧ ∀ id ∈ row, ofId id ≠ core := by
  constructor
  · intro h
    have hsuffix := List.drop_suffix (streak core ids - n) (ids.rtakeWhile (isOther core))
    refine ⟨_, hsuffix.trans (List.rtakeWhile_suffix _ _), ?_, fun id hid => ?_⟩
    · rw [List.length_drop]
      exact Nat.sub_sub_self h
    · have hother : isOther core id = true := List.mem_rtakeWhile_imp (hsuffix.subset hid)
      exact of_decide_eq_true hother
  · rintro ⟨row, ⟨before, rfl⟩, rfl, hrow⟩
    have hall : ∀ id ∈ row.reverse, isOther core id = true := fun id hid =>
      decide_eq_true (hrow id (List.mem_reverse.1 hid))
    rw [streak, List.rtakeWhile, List.reverse_append, List.takeWhile_append_of_pos hall]
    simp

/-- A `core` is lost when the row is long enough (`streak`), and stays lost. -/
theorem lost_snoc_iff :
    Lost core (ids ++ [id]) ↔
      Lost core ids ∨ Monitor.mismatchLimit ≤ streak core (ids ++ [id]) := by
  rw [le_streak_iff, Lost, Lost, ← exists_or]
  refine exists_congr fun row => ?_
  rw [List.infix_concat_iff, or_and_right, or_comm]

theorem not_lost_nil : ¬ Lost core [] := by
  rintro ⟨row, hrow, hlength, -⟩
  rw [List.infix_nil.1 hrow] at hlength
  cases hlength

theorem streak_lt (h : ¬ Lost core ids) : streak core ids < Monitor.mismatchLimit := by
  refine Nat.lt_of_not_le fun hle => h ?_
  obtain ⟨row, hrow, hrest⟩ := le_streak_iff.1 hle
  exact ⟨row, hrow.isInfix, hrest⟩

/-! ### What is found -/

/-- What a check is to find, by the bytes of the `past` and the one that comes back now, `id`.  Once
a core is `Lost` nothing but the form of that byte matters. -/
inductive Finds (core : Core) (past : List UInt8) (id : UInt8) : Check → Prop where
  | active (kept : ¬ Lost core (past ++ [id])) (same : ofId id = core) : Finds core past id .active
  | mismatch (kept : ¬ Lost core (past ++ [id])) (other : ofId id ≠ core)
      (below : streak core (past ++ [id]) < 255) :
      Finds core past id (.mismatch (streak core (past ++ [id])))
  | reloading (kept : ¬ Lost core past) (lost : Lost core (past ++ [id])) :
      Finds core past id .reloading
  | waiting (lost : Lost core past) (down : isIdentification id = false) :
      Finds core past id .reloading
  | restart (lost : Lost core past) (up : isIdentification id = true) :
      Finds core past id .restart

/-- While the `core` is not lost a check says nothing of a new one. -/
theorem Finds.of_kept {past : List UInt8} {found : Check} (h : Finds core past id found)
    (hkept : ¬ Lost core (past ++ [id])) : found ≠ .reloading ∧ found ≠ .restart := by
  have hpast : ¬ Lost core past := fun hlost => hkept (lost_snoc_iff.2 (.inl hlost))
  cases h with
  | active => exact ⟨Check.noConfusion, Check.noConfusion⟩
  | mismatch => exact ⟨Check.noConfusion, Check.noConfusion⟩
  | reloading _ lost => exact absurd lost hkept
  | waiting lost => exact absurd lost hpast
  | restart lost => exact absurd lost hpast

/-- What the monitor `m` remembers of the bytes `ids` that came back since the core was detected. -/
structure Watched (core : Core) (ids : List UInt8) (m : Monitor) : Prop where
  core_eq : m.core = core
  reloading_iff : m.reloading = true ↔ Lost core ids
  mismatches_eq : ¬ Lost core ids → m.mismatches = streak core ids

/-- A check finds what it is to find (`Finds`), and remembers the byte `id`. -/
theorem Watched.check (h : Watched core ids m) (id : UInt8) :
    Finds core ids id (m.check id).1 ∧ Watched core (ids ++ [id]) (m.check id).2 := by
  obtain ⟨rfl, hreloading, hmismatches⟩ := h
  by_cases hlost : Lost m.core ids
  · have hlater : Lost m.core (ids ++ [id]) := lost_snoc_iff.2 (.inl hlost)
    rw [Monitor.check, if_pos (hreloading.2 hlost)]
    refine ⟨?_, rfl, iff_of_true (hreloading.2 hlost) hlater, absurd hlater⟩
    cases hup : isIdentification id with
    | true => exact .restart hlost hup
    | false => exact .waiting hlost hup
  · have hcalm : ¬ m.reloading = true := fun h => hlost (hreloading.1 h)
    have hsnoc : Lost m.core (ids ++ [id]) ↔
        Monitor.mismatchLimit ≤ streak m.core (ids ++ [id]) := by
      rw [lost_snoc_iff, or_iff_right hlost]
    rw [Monitor.check, if_neg hcalm, hmismatches hlost]
    by_cases hsame : ofId id = m.core
    · have hzero : streak m.core (ids ++ [id]) = 0 := streak_snoc_same hsame
      have hkept : ¬ Lost m.core (ids ++ [id]) := by
        rw [hsnoc, hzero]
        decide
      rw [if_pos hsame]
      exact ⟨.active hkept hsame, rfl, iff_of_false hcalm hkept, fun _ => hzero.symm⟩
    · rw [if_neg hsame, ← streak_snoc_other hsame]
      dsimp only
      by_cases hlimit : Monitor.mismatchLimit ≤ streak m.core (ids ++ [id])
      · have hlater := hsnoc.2 hlimit
        rw [if_pos hlimit]
        exact ⟨.reloading hlost hlater, rfl, iff_of_true rfl hlater, absurd hlater⟩
      · have hkept : ¬ Lost m.core (ids ++ [id]) := fun hlater => hlimit (hsnoc.1 hlater)
        rw [if_neg hlimit]
        exact ⟨.mismatch hkept hsame (streak_lt hkept), rfl, iff_of_false hcalm hkept,
          fun _ => rfl⟩

/-! ### From a detection on -/

/-- A detection (`detect`) begins to watch the core that it finds. -/
theorem watched_of_detect {card card' : Disk.VirtualCard} {t : Trace Device}
    (hrun : (m.detect card).Run t (m', card')) : Watched m'.core [] m' := by
  have hready (m : Monitor) : Does (m.ready8Bit card) fun _ p =>
      p.1.mismatches = m.mismatches ∧ p.1.reloading = m.reloading := by
    refine .bind ((does_tellCard card).mono fun _ _ _ => ?_)
    refine .bind (does_askItem.mono fun _ item _ => ?_)
    refine .bind ((does_setStatus _ _ _).mono fun _ m₁ hup => ?_)
    refine .bind ((does_loadFiles m₁ card).mono fun _ p hloaded => ?_)
    refine .bind ((does_setStatus p.1 _ _).mono fun _ m₂ hdown => .done ?_)
    obtain ⟨saved, -, hp⟩ := hloaded
    rw [hdown.1, hp, hup.1]
    exact ⟨rfl, rfl⟩
  have hcalm : Does (m.detect card) fun _ p => p.1.mismatches = 0 ∧ p.1.reloading = false := by
    refine .bind ((Device.does_framed .io (Device.clocks_transfer 0xff)).mono fun _ id _ => ?_)
    dsimp only
    split
    · exact hready _
    · exact .done ⟨rfl, rfl⟩
  obtain ⟨hmismatches, hreloading⟩ := (hcalm.journal hrun).2
  exact ⟨rfl, iff_of_false (Bool.eq_false_iff.1 hreloading) not_lost_nil, fun _ => hmismatches⟩

/-- Each of the checks in a row `Finds` what its byte tells. -/
theorem Watches.finds (hwatch : Watches m looks m') (h : Watched core ids m) :
    ∀ past look future, looks = past ++ look :: future → ∃ id, look.id? = some id ∧
      Finds core (ids ++ identified past) id look.found := by
  -- on the checks: the bytes that came back are what one check hands on to the next
  induction hwatch generalizing ids with
  | nil m =>
    intro past look future hlooks
    exact absurd hlooks.symm (by simp)
  | @cons m m₁ m' first looks run rest ih =>
    obtain ⟨id, hid, hcheck⟩ := Look.check run
    obtain ⟨hfound, hnext⟩ := h.check id
    rw [← hcheck] at hfound hnext
    intro past look future hlooks
    cases past with
    | nil =>
      obtain ⟨rfl, rfl⟩ := List.cons.inj hlooks
      exact ⟨id, hid, by rwa [identified, List.filterMap_nil, List.append_nil]⟩
    | cons first' past =>
      obtain ⟨rfl, hrest⟩ := List.cons.inj hlooks
      have hlater := ih hnext past look future hrest
      have hbytes : identified (first :: past) = id :: identified past :=
        List.filterMap_cons_some hid
      rwa [List.append_assoc, List.singleton_append, ← hbytes] at hlater

/-- **Changes of core are found.**  Whatever core is detected, and whatever bytes come back in the
checks that follow, each check `Finds` what it should: as long as not 255 bytes in a row were those
of another core, that the core is active, or how many bytes in a row were not its own.  The 255th
finds that a new core is being loaded, and from then on each check finds that, or, at a byte that
has the form of an identification, that the firmware is to start over.  So no glitch that is
shorter, the core never being `Lost`, has it given up. -/
theorem change_found {m₀ : Monitor} {card card' : Disk.VirtualCard} {t : Trace Device}
    (hdetect : (m₀.detect card).Run t (m, card')) :
    (∀ ids, ∃ looks m', Watches m looks m' ∧ identified looks = ids) ∧
    ∀ looks m', Watches m looks m' →
      (∀ past look future, looks = past ++ look :: future → ∃ id, look.id? = some id ∧
        identified (past ++ [look]) = identified past ++ [id] ∧
        Finds m.core (identified past) id look.found) ∧
      (¬ Lost m.core (identified looks) →
        ∀ look ∈ looks, look.found ≠ .reloading ∧ look.found ≠ .restart) := by
  refine ⟨fun ids => ⟨_, _, watches_watch m ids, identified_watch m ids⟩,
    fun looks m' hwatch => ?_⟩
  have hfinds : ∀ past look future, looks = past ++ look :: future → ∃ id, look.id? = some id ∧
      identified (past ++ [look]) = identified past ++ [id] ∧
      Finds m.core (identified past) id look.found := by
    intro past look future hlooks
    obtain ⟨id, hid, hfound⟩ := hwatch.finds (watched_of_detect hdetect) past look future hlooks
    exact ⟨id, hid, by simp [identified, hid], hfound⟩
  refine ⟨hfinds, fun hkept look hlook => ?_⟩
  obtain ⟨past, future, rfl⟩ := List.append_of_mem hlook
  obtain ⟨id, hid, hbytes, hfound⟩ := hfinds past look future rfl
  refine hfound.of_kept fun ⟨row, hrow, hrest⟩ => hkept ⟨row, hrow.trans ?_, hrest⟩
  have hall : identified (past ++ look :: future) =
      identified past ++ [id] ++ identified future := by
    rw [List.append_cons, identified, List.filterMap_append]
    exact congrArg (· ++ identified future) hbytes
  rw [hall]
  exact (List.prefix_append _ _).isInfix

/-- An 8-bit core answers, then 255 bytes are not its own, and then comes one that has the form of
an identification, though there is no such core. -/
def replaced : List UInt8 := 0xa4 :: List.replicate 255 0x00 ++ [0xa9]

/-- The core of `replaced` is found to be another after 255 bytes. -/
theorem change_found_replaced :
    let looks := ((detection 0x13).2.1.watch replaced).1
    (({} : Monitor).detect blankCard).Run (detection 0x13).1
        ((detection 0x13).2.1, (detection 0x13).2.2) ∧
      ∃ past look, looks = past ++ [look] ∧
        Finds .generic8Bit (0xa4 :: List.replicate 255 0x00) 0xa9 look.found := by
  intro looks
  have hbytes : identified looks = replaced := identified_watch _ _
  have hne : looks ≠ [] := by
    intro hnil
    rw [hnil, replaced] at hbytes
    cases hbytes
  have hcore : (detection 0x13).2.1.core = .generic8Bit := by decide +kernel
  obtain ⟨-, hfinds⟩ := change_found (run_detection 0x13)
  obtain ⟨id, hid, hall, hfound⟩ := (hfinds looks _ (watches_watch _ replaced)).1 looks.dropLast
    (looks.getLast hne) [] (List.dropLast_append_getLast hne).symm
  rw [List.dropLast_append_getLast hne, hbytes, replaced] at hall
  obtain ⟨hpast, hlast⟩ := List.append_inj' hall rfl
  cases hlast
  rw [hcore, ← hpast] at hfound
  exact ⟨run_detection 0x13, _, _, (List.dropLast_append_getLast hne).symm, hfound⟩

end IoController.Core
