import IoController.Proofs.Disk.Turns
import Mathlib.Data.List.DropRight

/-!
# Disk — Warnings

The user is warned of a core that cannot address the card, once for each time that a disk is put
in or taken out.

* `shown`: the messages of a run.  `unshown`: the run without them.
* `Mutes`: an action that is another one without its messages.
* `VirtualCard.sinceRenewal`: what was done since a disk was last changed.
* `VirtualCard.warned_once`: the message comes with the first request of such a core in that time
  and with no other, and the poll that shows it goes like one that does not.
-/

namespace IoController

open Device (Deed Does traces)

namespace Disk

/-! ### Messages -/

/-- The message that is shown in an exchange, if one is. -/
def message? : Exchange Device → Option String
  | ⟨.host (.showError message), _⟩ => some message
  | _ => none

/-- The messages that are shown in the run `t`, in order. -/
def shown (t : Trace Device) : List String := t.filterMap message?

/-- The run `t` without its messages. -/
def unshown (t : Trace Device) : Trace Device := t.filter fun x => (message? x).isNone

@[simp] theorem shown_nil : shown [] = [] := rfl

@[simp] theorem shown_append (t t' : Trace Device) : shown (t ++ t') = shown t ++ shown t' :=
  List.filterMap_append

@[simp] theorem unshown_append (t t' : Trace Device) :
    unshown (t ++ t') = unshown t ++ unshown t' :=
  List.filter_append ..

/-- A run `t` that shows nothing has no messages to leave out. -/
theorem unshown_of_shown {t : Trace Device} (h : shown t = []) : unshown t = t := by
  refine List.filter_eq_self.2 fun x hx => ?_
  rw [List.filterMap_eq_nil_iff.1 h x hx]
  rfl

@[simp] theorem shown_frame (target : Link.Target) (bytes : List (UInt8 × UInt8)) :
    shown (Deed.frame target bytes).trace = [] := by
  refine List.filterMap_eq_nil_iff.2 fun x hx => ?_
  simp only [Deed.trace, Device.clocks, Device.clock, List.mem_cons, List.mem_append,
    List.mem_flatMap, List.not_mem_nil, or_false] at hx
  obtain rfl | ⟨b, -, rfl⟩ | rfl := hx <;> rfl

theorem shown_storage {d : Deed} (h : Cache.isStorage d = true) : shown d.trace = [] :=
  Cache.of_isStorage (P := fun d => shown d.trace = []) (fun _ _ => rfl) (fun _ _ => rfl) h

theorem shown_traces_eq_nil {ds : List Deed} (h : ∀ d ∈ ds, shown d.trace = []) :
    shown (traces ds) = [] := by
  rw [shown, traces, List.filterMap_flatMap]
  exact List.flatMap_eq_nil_iff.2 h

/-! ### Without the messages -/

/-- The runs of `q` are those of `p` without their messages, and end with what `f` makes of the
value. -/
def Mutes {α β : Type} (f : α → β) (p : Action α) (q : Action β) : Prop :=
  ∀ t b, q.Run t b ↔ ∃ t' a, p.Run t' a ∧ unshown t' = t ∧ f a = b

namespace Mutes

variable {α β γ δ : Type} {f : α → β} {p : Action α} {q : Action β}

theorem done (f : α → β) (a : α) : Mutes f (.done a) (.done (f a)) := by
  intro t b
  constructor
  · intro hrun
    obtain ⟨rfl, rfl⟩ := Program.run_done_iff.1 hrun
    exact ⟨[], a, .done a, rfl, rfl⟩
  · rintro ⟨t', a', hrun, rfl, rfl⟩
    obtain ⟨rfl, rfl⟩ := Program.run_done_iff.1 hrun
    exact .done _

theorem bind {g : γ → δ} {k : α → Action γ} {l : β → Action δ} (hp : Mutes f p q)
    (hk : ∀ a, Mutes g (k a) (l (f a))) : Mutes g (p >>= k) (q >>= l) := by
  intro t d
  constructor
  · intro hrun
    obtain ⟨t₁, t₂, b, rfl, hfirst, hrest⟩ := Program.run_bind_iff.1 hrun
    obtain ⟨t₁', a, hfirst', rfl, rfl⟩ := (hp t₁ b).1 hfirst
    obtain ⟨t₂', c, hrest', rfl, rfl⟩ := (hk a t₂ d).1 hrest
    exact ⟨t₁' ++ t₂', c, hfirst'.bind hrest', unshown_append .., rfl⟩
  · rintro ⟨t', c, hrun, rfl, rfl⟩
    obtain ⟨t₁, t₂, a, rfl, hfirst, hrest⟩ := Program.run_bind_iff.1 hrun
    rw [unshown_append]
    exact .bind ((hp _ _).2 ⟨t₁, a, hfirst, rfl, rfl⟩) ((hk a _ _).2 ⟨t₂, c, hrest, rfl, rfl⟩)

/-- An action `p` that shows nothing. -/
theorem same (h : Does p fun ds _ => shown (traces ds) = []) : Mutes id p p := by
  have hsilent : ∀ t a, p.Run t a → unshown t = t := by
    intro t a hrun
    obtain ⟨ds, rfl, hshown⟩ := h t a hrun
    exact unshown_of_shown hshown
  intro t a
  constructor
  · intro hrun
    exact ⟨t, a, hrun, hsilent t a hrun, rfl⟩
  · rintro ⟨t', a', hrun, rfl, rfl⟩
    rw [hsilent t' a' hrun]
    exact hrun

/-- To show a `message` is, without it, nothing. -/
theorem ofMessage (message : String) :
    Mutes (id : Unit → Unit) (Host.request (.showError message)) (.done ()) := by
  intro t u
  constructor
  · intro hrun
    obtain ⟨rfl, -⟩ := Program.run_done_iff.1 hrun
    exact ⟨[⟨.host (.showError message), ()⟩], (), Program.run_request_iff.2 rfl, rfl, rfl⟩
  · rintro ⟨t', u', hrun, rfl, rfl⟩
    obtain rfl := Program.run_request_iff.1 hrun
    exact .done _

end Mutes

/-! ### Cores that cannot address the card -/

/-- The request `r` is from a core that addresses the card by bytes: an access is pending, of
whichever kind, and nothing is said of sectors. -/
def Request.isUnaware (r : Request) : Bool :=
  (r.status.toNat / 16 = 5 ∨ r.status.toNat / 16 = 6) ∧ r.status.toNat % 4 ≠ 0 ∧
    r.status.toNat / 4 % 2 = 0

namespace Request

variable {r : Request}

/-- Whether a request `isUnaware` in terms of the flags, where the request is one. -/
theorem isUnaware_eq (high : r.status.toNat / 16 = 5 ∨ r.status.toNat / 16 = 6) :
    r.isUnaware = (r.isAccess && !r.flags.has .highCapacity) :=
  (by decide +kernel : ∀ i : Fin 256, (i.val / 16 = 5 ∨ i.val / 16 = 6) →
    (⟨.ofFin i, 0, 0⟩ : Request).isUnaware =
      ((⟨.ofFin i, 0, 0⟩ : Request).isAccess &&
        !(⟨.ofFin i, 0, 0⟩ : Request).flags.has .highCapacity)) r.status.toFin high

theorem isUnaware_of_idle (high : r.status.toNat / 16 ≠ 5 ∧ r.status.toNat / 16 ≠ 6) :
    r.isUnaware = false :=
  decide_eq_false fun h => h.1.elim high.1 high.2

end Request

namespace VirtualCard

variable {v v' : VirtualCard} {drive : UInt8} {image : Image} {ds : List Deed} {r : Request}

/-- The card `mistrusts` such a core if it is of high capacity, and the user was not warned. -/
theorem mistrusts_eq (v : VirtualCard)
    (high : r.status.toNat / 16 = 5 ∨ r.status.toNat / 16 = 6) :
    v.mistrusts r = (v.cache.medium.highCapacity && r.isUnaware && !v.warned) := by
  rw [mistrusts, Request.isUnaware_eq high, Bool.and_assoc v.cache.medium.highCapacity]

/-! ### What is shown -/

/-- A warning shows the message if the core is mistrusted (`mistrusts`). -/
theorem shown_warning (v : VirtualCard) (r : Request) :
    shown (traces (v.warning r)) = if v.mistrusts r then [capacityWarning] else [] := by
  unfold warning
  split <;> rfl

theorem Configures.shown {medium : Medium} (h : Configures medium r ds) :
    shown (traces ds) = [] := by
  cases h <;> simp

theorem Serves.shown {c : Cache} {p : Outcome × Cache} (h : Serves c r ds p) :
    shown (traces ds) = [] :=
  shown_traces_eq_nil <| h.forall_mem (fun _ => shown_storage) (fun _ => rfl)
    (fun _ _ => shown_frame ..) (fun _ _ _ => shown_frame ..)

theorem Mounts.shown {p : Except Error Unit × VirtualCard} (h : v.Mounts drive image ds p) :
    shown (traces ds) = [] := by
  cases h with
  | failed tried => exact shown_traces_eq_nil fun d hd => shown_storage (tried.isStorage d hd)
  | mounted tried announced signalled =>
    have htried := shown_traces_eq_nil fun d hd => shown_storage (tried.isStorage d hd)
    simp [htried]

theorem Unmounts.shown {p : Except Error (Option Image) × VirtualCard}
    (h : v.Unmounts drive ds p) : shown (traces ds) = [] := by
  cases h <;> simp

/-! ### One turn -/

namespace Turn

/-- In the `turn` the core was polled, and it cannot address the card. -/
def isUnaware (turn : Turn) : Bool :=
  turn.before.cache.medium.highCapacity && turn.request?.any (·.isUnaware)

/-- A disk was put in or taken out. -/
def renews : Turn → Bool
  | ⟨_, .mount .., _, result, _⟩ => result.isOk
  | ⟨_, .unmount _, _, result, _⟩ => result.isOk
  | ⟨_, .poll, _, _, _⟩ => false

variable {turn : Turn}

/-- What the turn shows, and whether the user has been `warned` after it. -/
structure Warns (turn : Turn) : Prop where
  shows : shown turn.trace =
    if turn.isUnaware && !turn.before.warned then [capacityWarning] else []
  keeps : turn.after.warned = (!turn.renews && (turn.before.warned || turn.isUnaware))

/-- A `turn` in which no such core asks shows nothing. -/
theorem Warns.of_aware (haware : turn.isUnaware = false) (shows : shown turn.trace = [])
    (keeps : turn.after.warned = (!turn.renews && turn.before.warned)) : turn.Warns where
  shows := by
    rw [haware]
    exact shows
  keeps := by
    rw [haware, Bool.or_false]
    exact keeps

/-- Only a success makes the card forget that the user was `warned`, and only a poll of an unaware
core makes it remember. -/
theorem Ran.warns (h : turn.Ran) : turn.Warns := by
  cases h.goes with
  | mount mounts =>
    refine .of_aware (Bool.and_false _) mounts.shown ?_
    cases mounts <;> rfl
  | unmount unmounts =>
    refine .of_aware (Bool.and_false _) unmounts.shown ?_
    cases unmounts <;> rfl
  | @poll v v' ds outcome polls =>
    cases polls with
    | idle status high =>
      refine .of_aware ?_ (by simp) rfl
      rw [isUnaware, request?_of_status status, Option.any_some, Request.isUnaware_of_idle high,
        Bool.and_false]
    | @request bytes r sent served outcome c status high configures serves =>
      have hunaware : isUnaware ⟨v, .poll, traces (.frame .io bytes :: (sent ++
          (v.warning r ++ served))), outcome, ⟨c, v.warned || v.mistrusts r⟩⟩ =
            (v.cache.medium.highCapacity && r.isUnaware) := by
        rw [isUnaware, request?_of_status status, Option.any_some]
      constructor
      · rw [hunaware, ← v.mistrusts_eq high]
        simp [configures.shown, shown_warning, serves.shown]
      · rw [hunaware]
        change (v.warned || v.mistrusts r) = (v.warned || _)
        rw [v.mistrusts_eq high]
        cases v.warned <;> simp

end Turn

/-! ### Turns between changes -/

/-- What was done in the `past` since a disk was last put in or taken out. -/
def sinceRenewal (past : List Turn) : List Turn := past.rtakeWhile fun turn => !turn.renews

theorem sinceRenewal_concat (past : List Turn) (turn : Turn) :
    sinceRenewal (past ++ [turn]) = if turn.renews then [] else sinceRenewal past ++ [turn] := by
  rw [sinceRenewal, List.rtakeWhile_concat]
  cases turn.renews <;> rfl

variable {turn : Turn} {turns past period future : List Turn}

/-- The user has been `warned` just if an unaware core asked for something since the last change. -/
theorem Lives.warned_eq (h : Lives v turns v') (hnew : v.warned = false) :
    v'.warned = (sinceRenewal turns).any (·.isUnaware) := by
  induction turns using List.reverseRecOn generalizing v' with
  | nil =>
    cases h
    exact hnew
  | append_singleton past turn ih =>
    obtain ⟨hpast, ran, hrest⟩ := h.cut
    rw [lives_nil_iff.1 hrest, sinceRenewal_concat, ran.warns.keeps, ih hpast]
    cases turn.renews <;> simp

/-- While no disk is changed (`renews`), every message that is shown is one fewer to come. -/
theorem Lives.shown_add (h : Lives v turns v') (hsame : ∀ turn ∈ turns, turn.renews = false) :
    (turns.flatMap fun turn => shown turn.trace).length + v.warned.toNat = v'.warned.toNat := by
  induction h with
  | nil v => exact Nat.zero_add _
  | @cons turn turns v' ran rest ih =>
    have hrest := ih fun turn hturn => hsame turn (List.mem_cons_of_mem _ hturn)
    have hturn : (shown turn.trace).length + turn.before.warned.toNat =
        turn.after.warned.toNat := by
      rw [ran.warns.shows, ran.warns.keeps, hsame turn List.mem_cons_self]
      cases turn.isUnaware <;> cases turn.before.warned <;> rfl
    rw [List.flatMap_cons, List.length_append]
    omega

/-! ### With the warning already shown -/

/-- Without its message (`Mutes`) a warning is one that was shown before. -/
theorem mutes_warn (v : VirtualCard) (r : Request) :
    Mutes (fun v => { v with warned := true }) (v.warn r) ({ v with warned := true }.warn r) := by
  have hnever : { v with warned := true }.warn r = .done { v with warned := true } := by
    rw [warn, mistrusts, Bool.not_true, Bool.and_false]
    rfl
  rw [hnever, warn]
  split
  · change Mutes _ _ (Program.done () >>= fun _ => Program.done { v with warned := true })
    exact .bind (.ofMessage capacityWarning) fun _ => .done _ { v with warned := true }
  · exact .done _ v

theorem mutes_serve (c : Cache) (r : Request) : Mutes id (serve c r) (serve c r) :=
  .same ((does_serve c r).mono fun _ _ hserves => hserves.shown)

theorem mutes_sdStatus : Mutes id Link.sdStatus Link.sdStatus := by
  refine .same (does_sdStatus.mono fun ds r hstatus => ?_)
  obtain ⟨bytes, rfl, -⟩ := hstatus
  simp

theorem mutes_identify (v : VirtualCard) : Mutes id v.identify v.identify := by
  refine .same ((Device.does_command _ _).mono fun ds _ hsent => ?_)
  obtain ⟨bytes, rfl, -⟩ := hsent
  simp

/-- What follows once it is known that the core wants `r`. -/
theorem mutes_request (v : VirtualCard) (r : Request) :
    Mutes (fun p => (p.1, { p.2 with warned := true }))
      (do
        let v ← v.warn r
        let (outcome, cache) ← serve v.cache r
        pure (outcome, { v with cache }))
      (do
        let v ← { v with warned := true }.warn r
        let (outcome, cache) ← serve v.cache r
        pure (outcome, { v with cache })) := by
  refine .bind (mutes_warn v r) fun v => ?_
  refine .bind (mutes_serve v.cache r) fun p => ?_
  exact .done _ (p.1, { v with cache := p.2 })

/-- Without its message (`Mutes`) a poll is one after a warning. -/
theorem mutes_poll (v : VirtualCard) :
    Mutes (fun p => (p.1, { p.2 with warned := true })) v.poll { v with warned := true }.poll := by
  refine .bind mutes_sdStatus fun r => ?_
  rw [id_eq]
  split
  · split
    · exact .bind v.mutes_identify fun _ => v.mutes_request r
    · exact v.mutes_request r
  · exact .done _ (Outcome.idle, v)

/-- **One warning for each disk.**  Whatever is done with a card that has `shown` nothing yet, and
whatever fails in it, the `capacityWarning` is shown in the first poll, since a disk was last put in
or taken out (`sinceRenewal`), in which a core that addresses the card by bytes asks for an access
to a card of high capacity (`isUnaware`), and at no other time.  So it is shown at most once while
no disk is put in or taken out.  A poll that shows the message goes like one that showed it before:
but for the message itself (`unshown`), what passes is the same, and so is what comes of it. -/
theorem warned_once (h : Lives v turns v') (hnew : v.warned = false) :
    (∀ past turn future, turns = past ++ turn :: future →
      shown turn.trace =
        if turn.isUnaware ∧ ∀ earlier ∈ sinceRenewal past, earlier.isUnaware = false
        then [capacityWarning] else []) ∧
    (∀ past period future, turns = past ++ (period ++ future) →
      (∀ turn ∈ period, turn.renews = false) →
        (period.flatMap fun turn => shown turn.trace).length ≤ 1) ∧
    ∀ (u w : VirtualCard) t outcome, { u with warned := true }.poll.Run t (outcome, w) ↔
      ∃ t' u', u.poll.Run t' (outcome, u') ∧ unshown t' = t ∧ { u' with warned := true } = w := by
  refine ⟨?_, ?_, fun u w t outcome => ?_⟩
  · rintro past turn future rfl
    obtain ⟨hpast, ran, -⟩ := h.cut
    rw [ran.warns.shows, hpast.warned_eq hnew]
    simp
  · rintro past period future rfl hsame
    obtain ⟨u, -, hrest⟩ := lives_append_iff.1 h
    obtain ⟨u', hperiod, -⟩ := lives_append_iff.1 hrest
    have hcount := hperiod.shown_add hsame
    have hwarned := u'.warned.toNat_le
    omega
  · rw [mutes_poll u t (outcome, w)]
    constructor
    · rintro ⟨t', ⟨_, u'⟩, hrun, rfl, hresult⟩
      obtain ⟨rfl, rfl⟩ := Prod.mk.inj hresult
      exact ⟨t', u', hrun, rfl, rfl⟩
    · rintro ⟨t', u', hrun, rfl, rfl⟩
      exact ⟨t', (outcome, u'), hrun, rfl, rfl⟩

/-- A core that addresses the card by bytes asks, asks again after a disk could not be put in, and
asks once more after one was. -/
def unawareLife : List Turn × VirtualCard :=
  vacant.play (fun _ r => (Device.replying (fun _ => 0x51) none (.error .io) r, ()))
    [(.poll, ()), (.mount 2 ⟨⟨1⟩, 0x600⟩, ()), (.poll, ()), (.mount 0 ⟨⟨1⟩, 0x600⟩, ()),
      (.poll, ())]

/-- In `unawareLife` the message is shown in the first poll and in the last. -/
theorem warned_once_each :
    ∃ first failed again changed last, unawareLife.1 = [first, failed, again, changed, last] ∧
      shown first.trace = [capacityWarning] ∧ shown again.trace = [] ∧
      shown last.trace = [capacityWarning] := by
  obtain ⟨hshown, -, -⟩ := warned_once (lives_play _ vacant _ : Lives vacant unawareLife.1 _) rfl
  refine ⟨_, _, _, _, _, rfl, ?_, ?_, ?_⟩
  · exact (hshown [] _ _ rfl).trans (if_pos (by decide +kernel))
  · exact (hshown [_, _] _ _ rfl).trans (if_neg (by decide +kernel))
  · exact (hshown [_, _, _, _] _ _ rfl).trans (if_pos (by decide +kernel))

end VirtualCard

end Disk

end IoController
