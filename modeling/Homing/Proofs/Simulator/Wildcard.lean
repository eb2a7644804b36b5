import Homing.Proofs.Engine.Alike
import Homing.Proofs.Simulator.Requests

/-!
# The request for every cycle

A request for every cycle does on a simulator what the requests for the numbered cycles do
one after another (`home_all_eq_homeEach`). The two differ in three places. A single request
enters the homing state and leaves it again, where the whole one stays in it; but no cycle
reads the state, and one that ends well leaves it alone (`state_of_cycle`). The limits are
looked at once for each request; but a wiring fault is there from the start or not at all.
And between two cycles only the whole request looks for the alarm state, in which no cycle
that ended well leaves a simulator.
-/

namespace Homing

section Engine

variable {σ : Type u} {α : Type v} [Machine σ α]

/-- How a run ended and the machine that it left, without the journal. -/
def answerOf {ε : Type} (run : Outcome ε σ α) : Option (Except ε Unit × σ) :=
  run.map fun e => (e.1, e.2.machine)

variable [Scalar α] {budget : Nat} {m : MachineSettings α} {axes : AxisSet} {request : Request}

/-- Home the cycles of these numbers by requests of their own, and stop at the first that
fails. -/
def homeEach (budget : Nat) (m : MachineSettings α) :
    List Nat → σ → Option (Except HomingError Unit × σ)
  | [], x => some (.ok (), x)
  | k :: ks, x =>
    if (m.axesInCycle k).isEmpty then homeEach budget m ks x
    else match answerOf (home budget m (.axes (m.axesInCycle k)) x) with
      | some (.ok (), y) => homeEach budget m ks y
      | stopped => stopped

/-- What a cycle does depends on the machine and not on the journal. -/
theorem answerOf_runCycle {s s' : Session σ α} (hmachine : s.machine = s'.machine) :
    answerOf (runCycle budget m axes s) = answerOf (runCycle budget m axes s') := by
  have key {s s' : Session σ α} (hmachine : s.machine = s'.machine) {r : Except Failure Unit}
      {t : Session σ α} (h : runCycle budget m axes s = some (r, t)) :
      ∃ t', runCycle budget m axes s' = some (r, t') ∧ t'.machine = t.machine := by
    obtain ⟨cs, hmakes⟩ : ∃ cs, s.Makes cs t := by
      rcases cycleRun_of_runCycle h with ⟨-, -, rfl⟩ | ⟨-, cs, -, hmakes⟩
      · exact ⟨[], .refl t⟩
      · exact ⟨cs, hmakes⟩
    have halike : AlikeAlong cs s.machine s'.machine := hmachine ▸ .refl cs s.machine
    obtain ⟨t', hrun, hmakes'⟩ := runCycle_alike h hmakes halike
    exact ⟨t', hrun, by rw [hmakes'.machine, hmakes.machine, hmachine]⟩
  cases hs : runCycle budget m axes s with
  | none =>
      cases hs' : runCycle budget m axes s' with
      | none => rfl
      | some e =>
          obtain ⟨t', hrun, -⟩ := key hmachine.symm hs'
          rw [hs] at hrun
          cases hrun
  | some e =>
      obtain ⟨t', hrun, hleft⟩ := key hmachine hs
      rw [hrun]
      unfold answerOf
      rw [Option.map_some, Option.map_some, hleft]

theorem answerOf_home (x : σ) : answerOf (home budget m request x) =
    (answerOf (runRequest budget m request ((Session.begin x).call (.setState .homing)))).map
      fun e => (e.1, Machine.after (concluding e.1) e.2) := by
  unfold home answerOf
  cases runRequest budget m request ((Session.begin x).call (.setState .homing)) with
  | none => rfl
  | some e =>
      obtain ⟨r, t⟩ := e
      cases r with
      | error f => rfl
      | ok v =>
          simp only [Option.map_some, Session.machine_note, Session.machine_call]
          rfl

theorem answerOf_runRequest_of_ambiguous {s : Session σ α}
    (hlimits : (Machine.limits s.machine).ambiguous ≠ ∅) :
    answerOf (runRequest budget m request s) =
      some (.error .ambiguousLimit, (Machine.apply (.raiseAlarm .hardLimit) s.machine).1) := by
  unfold runRequest
  dsimp only
  rw [if_neg fun he => hlimits (MotorSet.isEmpty_iff.1 he), answerOf, Option.map_some,
    Session.machine_call, Session.machine_note]

end Engine

namespace Simulator

variable {α : Type u} [Scalar α] {budget : Nat} {m : MachineSettings α} {axes : AxisSet}
  {x : Simulator α} {cs : List (Call α)}

/-! ## The state of a simulator -/

/-- Only two calls change the state. -/
theorem state_apply {c : Call α} (hstate : ∀ state, c ≠ .setState state)
    (halarm : ∀ alarm, c ≠ .raiseAlarm alarm) (x : Simulator α) :
    (apply c x).1.state = x.state := by
  cases c with
  | refill =>
      obtain ⟨_, _, _, _, h⟩ := refill_frame x
      rw [h]
  | setState state => exact absurd rfl (hstate state)
  | raiseAlarm alarm => exact absurd rfl (halarm alarm)
  | _ => rfl

/-- A cycle that ends well leaves the state as it is. -/
theorem state_of_cycle (h : CycleRun m axes x (.ok ()) cs) :
    (Machine.after cs x).state = x.state := by
  refine Machine.after_induction (P := fun y : Simulator α => y.state = x.state) rfl ?_
  intro c hc y hy
  rw [← hy]
  cases h with
  | intro hphases =>
      rcases List.mem_append.1 hc with hc | hc
      · rcases List.mem_append.1 hc with hc | hc
        · rw [List.mem_singleton.1 hc]
          rfl
        · cases inPhase_of_phasesRun hphases c hc with
          | loop hloop => exact state_apply (by cases hloop <;> nofun) (by cases hloop <;> nofun) y
          | _ => rfl
      · rcases List.mem_append.1 hc with hc | hc
        · obtain ⟨_, _, _, -, -, -, rfl⟩ := mem_committing.1 hc
          rfl
        · rw [List.mem_singleton.1 hc]
          rfl

/-- Entering the homing state shows in no limit. -/
theorem limits_begin (x : Simulator α) :
    Machine.limits ((Session.begin x).call (.setState .homing)).machine = Machine.limits x := by
  rw [machine_begin]
  rfl

theorem setState_setState {state : MachineState} (hx : x.state = state) (other : MachineState) :
    (apply (.setState state) (apply (.setState other) x).1).1 = x := by
  subst hx
  rfl

/-! ## One cycle after another -/

/-- A request for one cycle, on a simulator that is wired well. -/
theorem answerOf_home_axes (hwired : x.miswired = ∅) {s : Session (Simulator α) α}
    (hs : s.machine = (apply (.setState .homing) x).1) :
    answerOf (home budget m (.axes axes) x) = (answerOf (runCycle budget m axes s)).map
      fun e => (e.1.mapError .failed, Machine.after (concluding (e.1.mapError .failed)) e.2) := by
  have hlimits : (Machine.limits
      ((Session.begin x).call (.setState .homing)).machine).ambiguous = ∅ := by
    rw [limits_begin]
    exact ambiguous_of_miswired hwired
  rw [answerOf_home, runRequest_axes hlimits, answerOf_runCycle (hs.trans (machine_begin x).symm)]
  unfold answerOf
  rw [Option.map_map, Option.map_map, Option.map_map]
  rfl

/-- The cycles of a whole request are those of single ones, from a machine `x` that is in the
homing state in the session `s`. -/
theorem answerOf_runNumbered {found : Bool} {ns : List Nat} {s : Session (Simulator α) α}
    (hwired : x.miswired = ∅) (hs : s.machine = (apply (.setState .homing) x).1)
    (hidle : found = true → x.state = .idle) (hsome : found = false → m.withAxes ns ≠ []) :
    (answerOf (runNumbered budget m found ns s)).map
      (fun e => (e.1, Machine.after (concluding e.1) e.2)) = homeEach budget m ns x := by
  induction ns generalizing found s x with
  | nil =>
      cases found with
      | false => exact absurd rfl (hsome rfl)
      | true =>
          have hback : Machine.after (concluding (.ok ())) s.machine = x := by
            rw [hs]
            exact setState_setState (hidle rfl) .homing
          rw [runNumbered, homeEach, if_pos rfl, answerOf, Option.map_some, Option.map_some, hback]
  | cons k ns ih =>
      have hstate : Machine.state s.machine ≠ .alarm := by
        rw [hs]
        intro halarm
        cases halarm
      by_cases hempty : m.axesInCycle k = ∅
      · rw [runNumbered_of_empty hstate hempty, homeEach, if_pos (AxisSet.isEmpty_iff.2 hempty)]
        refine ih hwired hs hidle fun hfound => ?_
        have hrest := hsome hfound
        rwa [withAxes_cons, if_pos (AxisSet.isEmpty_iff.2 hempty)] at hrest
      rw [runNumbered_cons hstate hempty, homeEach,
        if_neg fun he => hempty (AxisSet.isEmpty_iff.1 he),
        answerOf_home_axes hwired (s := s.beginCycle m k) hs]
      cases hrun : runCycle budget m (m.axesInCycle k) (s.beginCycle m k) with
      | none => rfl
      | some e =>
          obtain ⟨r, t⟩ := e
          cases r with
          | error f => rfl
          | ok v =>
              obtain ⟨cs, hcycle, hmakes⟩ := cycleRun_of_axesInCycle hempty hrun
              have hmachine : t.machine = Machine.after cs (apply (.setState .homing) x).1 := by
                rw [hmakes.machine, ← hs]
                rfl
              have hcycle' : CycleRun m (m.axesInCycle k) (apply (.setState .homing) x).1
                  (.ok ()) cs := hs ▸ hcycle
              -- The single request is idle here, and the next one enters the homing state again.
              have hhoming : t.machine.state = .homing := by
                rw [hmachine, state_of_cycle hcycle']
                rfl
              have hwired' : t.machine.miswired = ∅ := by
                rw [hmachine, (fixed_after cs _).2.2]
                exact hwired
              exact @ih (apply (.setState .idle) t.machine).1 true t hwired'
                (setState_setState hhoming .idle).symm (fun _ => rfl)
                fun hfound => absurd hfound.symm Bool.false_ne_true

/-- Where a motor is wired wrong, the first request fails before any cycle. -/
theorem homeEach_of_ambiguous (hlimits : (Machine.limits x).ambiguous ≠ ∅) {ns : List Nat}
    (hsome : m.withAxes ns ≠ []) : homeEach budget m ns x = some (.error .ambiguousLimit,
      (apply (.raiseAlarm .hardLimit) (apply (.setState .homing) x).1).1) := by
  induction ns with
  | nil => exact absurd rfl hsome
  | cons k ns ih =>
      rw [withAxes_cons] at hsome
      rw [homeEach]
      by_cases hempty : (m.axesInCycle k).isEmpty = true
      · rw [if_pos hempty] at hsome ⊢
        exact ih hsome
      · rw [← limits_begin] at hlimits
        rw [if_neg hempty, answerOf_home, answerOf_runRequest_of_ambiguous hlimits, machine_begin]
        rfl

/-- To home every cycle by one request is to home the cycles one by one, with the same result
and the same machine left behind. -/
theorem home_all_eq_homeEach (budget : Nat) (hcycles : ∃ k ∈ cycleNumbers, m.axesInCycle k ≠ ∅)
    (x : Simulator α) :
    answerOf (home budget m .all x) = homeEach budget m cycleNumbers x := by
  have hsome : m.withAxes cycleNumbers ≠ [] := by
    obtain ⟨k, hk, hne⟩ := hcycles
    exact List.ne_nil_of_mem (mem_withAxes_iff.2 ⟨hk, hne⟩)
  rw [answerOf_home]
  by_cases hlimits : (Machine.limits x).ambiguous = ∅
  · have hwired := miswired_of_ambiguous hlimits
    rw [← limits_begin] at hlimits
    rw [runRequest_all hlimits]
    exact answerOf_runNumbered hwired (machine_begin x) nofun fun _ => hsome
  · rw [homeEach_of_ambiguous hlimits hsome]
    rw [← limits_begin] at hlimits
    rw [answerOf_runRequest_of_ambiguous hlimits, machine_begin]
    rfl

theorem home_all_eq_homeEach_gantry :
    (∃ k ∈ cycleNumbers, gantry.axesInCycle k ≠ ∅) ∧
      ∃ y, answerOf (home 20 gantry .all skewedGantry) = some (.ok (), y) ∧
        homeEach 20 gantry cycleNumbers skewedGantry = some (.ok (), y) := by
  have hcycles : ∃ k ∈ cycleNumbers, gantry.axesInCycle k ≠ ∅ :=
    ⟨1, by decide, by decide +kernel⟩
  have hrun : (answerOf (home 20 gantry .all skewedGantry)).map (·.1) = some (.ok ()) := by
    decide +kernel
  obtain ⟨⟨e, y⟩, h, rfl⟩ := Option.map_eq_some_iff.1 hrun
  exact ⟨hcycles, y, h, (home_all_eq_homeEach 20 hcycles skewedGantry).symm.trans h⟩

end Simulator

end Homing
