import IoController.Proofs.Controller.Lives
import IoController.Proofs.Controller.Speech

/-!
# Controller — Reloading

What is said to the core while a new one is being loaded.

* `Controller.sends_poll_reloading`: a round asks for the identification byte and does no more.
* `Controller.quiet_while_reloading_iff`: the link is quiet apart from that just when none of the
  reports that are taken in speaks.  `Controller.key_while_reloading` shows one that does.
-/

namespace IoController.Controller

open Link (Sends)

/-! ### While a new core is loaded -/

/-- What a call asks of the link if it says nothing to the core: a round asks for the byte of
`Link.identification`. -/
def quietTraffic (c : Controller) : Call → List Link.Request
  | .poll _ => if c.restart then [] else Link.identification
  | _ => []

/-- Whether a call has something said to a core that is being loaded: a report does if it `speaks`.
-/
def callSpeaks (c : Controller) : Call → Bool
  | .handle input now => c.speaks now input
  | _ => false

variable {c c₁ c₂ : Controller} {now : Instant} {turns : List Turn}

/-- A `poll` asks for the identification byte, and compares it. -/
theorem sends_monitor (m : Core.Monitor) :
    Sends m.poll fun u p => u = Link.identification ∧ ∃ id, p = m.check id := by
  refine .bind (Link.sends_pollIdentity.mono fun u id hu => .done ?_)
  rw [hu, List.append_nil]
  exact ⟨rfl, id, rfl⟩

/-- Once a new core is being loaded, a check goes on saying so until the core is up (`reloading`).
-/
theorem check_of_reloading {m : Core.Monitor} (h : m.reloading = true) (id : UInt8) :
    ((m.check id).1 = .reloading ∨ (m.check id).1 = .restart) ∧ (m.check id).2 = m := by
  rw [Core.Monitor.check, if_pos h]
  refine ⟨?_, rfl⟩
  dsimp only
  split
  · exact .inr rfl
  · exact .inl rfl

/-- A check that says that a new core is being loaded remembers it. -/
theorem reloading_of_check {m : Core.Monitor} {id : UInt8} (h : (m.check id).1 = .reloading) :
    (m.check id).2.reloading = true := by
  unfold Core.Monitor.check at h ⊢
  split
  · assumption
  · next hnot =>
    rw [if_neg hnot] at h
    split at h
    · cases h
    · next hother =>
      rw [if_neg hother]
      dsimp only at h ⊢
      split at h
      · next hlimit =>
        rw [if_pos hlimit]
      · cases h

/-- A round while a new core is loaded asks for the byte of `Link.identification` and does no more.
-/
theorem sends_poll_reloading (h : c.monitor.reloading = true) (now : Instant) :
    Sends (c.poll now) fun u p =>
      u = (if c.restart then [] else Link.identification) ∧ p.2.monitor.reloading = true := by
  unfold poll
  by_cases hrestart : c.restart = true
  · rw [if_pos hrestart, if_pos hrestart]
    exact .done ⟨rfl, h⟩
  · rw [if_neg hrestart, if_neg hrestart]
    refine .bind ((sends_monitor c.monitor).mono fun u p hcheck => ?_)
    obtain ⟨rfl, id, rfl⟩ := hcheck
    obtain ⟨hphase, hsame⟩ := check_of_reloading h id
    generalize c.monitor.check id = checked at hphase hsame ⊢
    obtain ⟨check, monitor⟩ := checked
    dsimp only at hphase hsame ⊢
    subst hsame
    rcases hphase with rfl | rfl
    · exact .done ⟨List.append_nil _, h⟩
    · exact .done ⟨List.append_nil _, h⟩

/-- A round that goes on to the core (`pollInput`) does not find that a new one is being loaded. -/
theorem sends_round (c : Controller) (now : Instant) (asked : List Link.Request) :
    Sends (match c.profile? with
      | none => pure (Phase.idle, c)
      | some profile => do
        let c ← c.pollInput profile now
        pure (if c.restart then Phase.restart else Phase.running, c)) fun u p =>
      p.1 = Phase.reloading → asked ++ u = Link.identification ∧ p.2.monitor.reloading = true := by
  cases c.profile? with
  | none => exact .done fun h => nomatch h
  | some profile =>
    refine .bind ((Sends.any _).mono fun u c' _ => .done fun h => ?_)
    dsimp only at h
    split at h <;> cases h

/-- The round that finds that a new core is being loaded did no more than ask
(`Link.identification`). -/
theorem sends_poll (c : Controller) (now : Instant) :
    Sends (c.poll now) fun u p =>
      p.1 = .reloading → u = Link.identification ∧ p.2.monitor.reloading = true := by
  unfold poll
  by_cases hrestart : c.restart = true
  · rw [if_pos hrestart]
    exact .done fun h => nomatch h
  · rw [if_neg hrestart]
    refine .bind ((sends_monitor c.monitor).mono fun u p hcheck => ?_)
    obtain ⟨rfl, id, rfl⟩ := hcheck
    have hremembers : (c.monitor.check id).1 = .reloading →
        (c.monitor.check id).2.reloading = true := reloading_of_check
    generalize c.monitor.check id = checked at hremembers ⊢
    obtain ⟨check, monitor⟩ := checked
    cases check with
    | reloading => exact .done fun _ => ⟨List.append_nil _, hremembers rfl⟩
    | restart => exact .done fun h => nomatch h
    | active => exact sends_round _ now _
    | mismatch count => exact sends_round _ now _

/-- A call while a new core is loaded keeps to `quietTraffic` unless it speaks, and the core goes on
being loaded. -/
theorem sends_perform_reloading (h : c.monitor.reloading = true) {call : Call}
    (hcall : call ≠ .start) :
    Sends (c.perform call) fun u p =>
      (u = c.quietTraffic call ↔ c.callSpeaks call = false) ∧ p.2.monitor.reloading = true := by
  cases call with
  | start => exact absurd rfl hcall
  | poll now =>
    refine .bind ((sends_poll_reloading h now).mono fun u p hpoll => .done ?_)
    obtain ⟨hu, hreloading⟩ := hpoll
    rw [List.append_nil]
    exact ⟨⟨fun _ => rfl, fun _ => hu⟩, hreloading⟩
  | handle input now =>
    refine .bind ((sends_handle c input now).mono fun u c' hhandle => .done ?_)
    obtain ⟨hu, hmonitor⟩ := hhandle
    rw [List.append_nil]
    refine ⟨hu, ?_⟩
    rw [hmonitor]
    exact h
  | setOsdVisible visible => exact .done ⟨⟨fun _ => rfl, fun _ => rfl⟩, h⟩

/-- Over a life without a start, every call keeps to `quietTraffic` unless it speaks. -/
theorem Lives.quiet_iff (hlives : Lives c turns c') (h : c.monitor.reloading = true)
    (hstart : ∀ turn ∈ turns, turn.call ≠ .start) :
    ∀ turn ∈ turns, (Link.traffic turn.trace = turn.before.quietTraffic turn.call ↔
      turn.before.callSpeaks turn.call = false) := by
  -- on the turns: that a core is being loaded is what every call hands on to the next
  induction hlives with
  | nil c => exact fun turn hturn => absurd hturn List.not_mem_nil
  | cons run rest ih =>
    obtain ⟨hfirst, hnext⟩ :=
      sends_perform_reloading h (hstart _ List.mem_cons_self) _ _ run
    intro turn hturn
    rcases List.mem_cons.1 hturn with rfl | hlater
    · exact hfirst
    · exact ih hnext (fun turn hturn => hstart turn (List.mem_cons_of_mem _ hturn)) turn hlater

/-- **Quiet while reloading.**  Let a poll of `c` find that a new core is being loaded, and let the
controller go through `turns` that hold no start.  Every poll, the first one included, asks the link
for no more than `quietTraffic`: the identification byte.  All turns together ask for no more just
if no report `input` that is taken in meanwhile `speaks`: no key that the core takes as it comes, or
that finds the limited link free, no mouse button of an Archimedes that does, and no joystick of a
core with the OSD closed. -/
theorem quiet_while_reloading_iff {t : Trace Device}
    (hpoll : (c.poll now).Run t (.reloading, c₁)) (hlives : Lives c₁ turns c₂)
    (hstart : ∀ turn ∈ turns, turn.call ≠ .start) :
    Link.traffic t = Link.identification ∧
    (∀ turn ∈ turns, ∀ instant, turn.call = .poll instant →
      Link.traffic turn.trace = turn.before.quietTraffic turn.call) ∧
    ((∀ turn ∈ turns, Link.traffic turn.trace = turn.before.quietTraffic turn.call) ↔
      ∀ turn ∈ turns, ∀ input instant, turn.call = .handle input instant →
        turn.before.speaks instant input = false) := by
  obtain ⟨hfirst, hreloading⟩ := sends_poll c now _ _ hpoll rfl
  have hquiet := hlives.quiet_iff hreloading hstart
  refine ⟨hfirst, fun turn hturn instant hcall => ?_, fun hall turn hturn input instant hcall => ?_,
    fun hsilent turn hturn => ?_⟩
  · refine (hquiet turn hturn).2 ?_
    rw [hcall]
    rfl
  · have hspeaks := (hquiet turn hturn).1 (hall turn hturn)
    rw [hcall] at hspeaks
    exact hspeaks
  · refine (hquiet turn hturn).2 ?_
    cases hcall : turn.call with
    | handle input instant => exact hsilent turn hturn input instant hcall
    | _ => rfl

/-! ### A life to look at -/

/-- A Minimig is identified, and another byte comes back in 254 rounds. -/
@[irreducible] def mismatched : List Turn × Controller :=
  (ofSettings {} ⟨0, true⟩).play ((.start, answering 0xa1) ::
    (List.range 254).map fun i => (.poll (1000 * i), answering 0))

/-- The round in which it comes back once more. -/
def lastCheck : Trace Device × Phase × Controller :=
  (mismatched.2.poll 254000).record (answering 0)

theorem run_lastCheck : (mismatched.2.poll 254000).Run lastCheck.1 (.reloading, lastCheck.2.2) := by
  have hphase : ((mismatched.2.poll 254000).record (answering 0)).2.1 = .reloading := by
    decide +kernel
  exact Program.run_record_of_fst hphase

/-- A key goes down meanwhile. -/
def keyDown : Call := .handle (.keyboard 0 (.ofKeys ∅ [0x04])) 300000

/-- The key of `keyDown` is sent to the core that is being loaded. -/
theorem key_while_reloading :
    ∃ past c t c₁ trace c₂, Lives (ofSettings {} ⟨0, true⟩) past c ∧
      (c.poll 254000).Run t (.reloading, c₁) ∧ Lives c₁ [⟨c₁, keyDown, trace, none⟩] c₂ ∧
      c₁.quietTraffic keyDown = [] ∧ Link.traffic trace = Link.framing .io [0x05, 0x20] := by
  have hpast : Lives (ofSettings {} ⟨0, true⟩) mismatched.1 mismatched.2 := by
    unfold mismatched
    exact lives_play _ _
  have hphase : ((lastCheck.2.2.perform keyDown).record (answering 0)).2.1 = none := by
    decide +kernel
  have hlives := Lives.cons (Program.run_record_of_fst hphase) (.nil _)
  refine ⟨_, _, _, _, _, _, hpast, run_lastCheck, hlives, rfl, ?_⟩
  decide +kernel

/-- A change of the number of joysticks says nothing, and the next round asks for the byte. -/
theorem quiet_while_reloading_round :
    let life := lastCheck.2.2.play
      [(.handle (.joystickCount 2) 254500, answering 0), (.poll 255000, answering 0)]
    (mismatched.2.poll 254000).Run lastCheck.1 (.reloading, lastCheck.2.2) ∧
      ∀ turn ∈ life.1, Link.traffic turn.trace = turn.before.quietTraffic turn.call := by
  intro life
  have hturns : ∀ turn ∈ life.1,
      turn.call = .handle (.joystickCount 2) 254500 ∨ turn.call = .poll 255000 := by
    intro turn hturn
    rcases List.mem_cons.1 hturn with rfl | hturn
    · exact .inl rfl
    · rw [List.mem_singleton.1 hturn]
      exact .inr rfl
  have hstart : ∀ turn ∈ life.1, turn.call ≠ .start := by
    intro turn hturn
    rcases hturns turn hturn with hcall | hcall <;> rw [hcall] <;> exact Call.noConfusion
  refine ⟨run_lastCheck,
    (quiet_while_reloading_iff run_lastCheck (lives_play _ _) hstart).2.2.2 ?_⟩
  intro turn hturn input instant hcall
  rcases hturns turn hturn with hcall' | hcall'
  · rw [hcall] at hcall'
    cases hcall'
    rfl
  · rw [hcall] at hcall'
    cases hcall'

end IoController.Controller
