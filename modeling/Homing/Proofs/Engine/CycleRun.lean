import Homing.Proofs.Engine.PhaseRun

/-!
# Cycles and requests as relations

`CycleRun` is one cycle of axes that home: the axes enter homing mode, the phases run
with the motors that the machine has for them, and `closing` either commits the
reference positions or latches the failure. `NumberedRun` is a list of numbered
cycles, of which only the last may fail, and `RequestRun` a whole request with every
way in which it can end. `requestRun_of_runRequest` reads a finished run of the
engine as such a relation.
-/

namespace Homing

variable {σ : Type u} {α : Type v} [Machine σ α] [Scalar α]

/-- The calls that give axes their reference positions, in ascending order. -/
def committing (m : MachineSettings α) (axes : AxisSet) : List (Call α) :=
  axes.toList.filterMap fun n =>
    (m.axes[n]?).bind fun a => a.homing.map fun h => .setSteps n (a.stepsAt h.reference)

/-- The calls that end a cycle. -/
def closing (m : MachineSettings α) (axes : AxisSet) : Except Failure Unit → List (Call α)
  | .ok () => committing m axes ++ [.exitHoming axes true]
  | .error f => [.raiseAlarm f.alarm, .exitHoming axes false, .resetMotion, .dispatch]

/-- One cycle of axes that all home, from the machine before it. -/
inductive CycleRun (m : MachineSettings α) (axes : AxisSet) (x : σ) :
    Except Failure Unit → List (Call α) → Prop
  | intro {r : Except Failure Unit} {cs : List (Call α)}
      (hphases : PhasesRun m (Machine.homeable x axes) (phasePlan m (Machine.homeable x axes))
        (Machine.after [.enterHoming axes] x) r cs) :
      CycleRun m axes x r ([.enterHoming axes] ++ cs ++ closing m axes r)

/-- The numbers of a list whose cycle has an axis. -/
def MachineSettings.withAxes (m : MachineSettings α) (ns : List Nat) : List Nat :=
  ns.filter fun k => !(m.axesInCycle k).isEmpty

/-- The numbers of the cycles of a machine, in ascending order. -/
def MachineSettings.cycles (m : MachineSettings α) : List Nat := m.withAxes cycleNumbers

/-- Numbered cycles one after another. No cycle begins in the alarm state, and none
follows a failed one. -/
inductive NumberedRun (m : MachineSettings α) :
    List Nat → σ → Except Failure Unit → List (Call α) → Prop
  | nil {x : σ} : NumberedRun m [] x (.ok ()) []
  | cons {k : Nat} {ks : List Nat} {x : σ} {r : Except Failure Unit} {cs ds : List (Call α)}
      (hstate : Machine.state x ≠ .alarm) (hcycle : CycleRun m (m.axesInCycle k) x (.ok ()) cs)
      (hrest : NumberedRun m ks (Machine.after cs x) r ds) : NumberedRun m (k :: ks) x r (cs ++ ds)
  | fail {k : Nat} {x : σ} {f : Failure} {cs : List (Call α)} (hstate : Machine.state x ≠ .alarm)
      (hcycle : CycleRun m (m.axesInCycle k) x (.error f) cs) : NumberedRun m [k] x (.error f) cs

/-- How a request for numbered cycles ends after the cycles `ks` of `all` have run
and left the machine `y`, and what it calls last. Where `found` holds, a cycle has
run before them. -/
inductive NumberedEnd (found : Bool) (all ks : List Nat) (y : σ) :
    Except Failure Unit → Except HomingError Unit → List (Call α) → Prop
  | failed (f : Failure) : NumberedEnd found all ks y (.error f) (.error (.failed f)) []
  | alarm (hstate : Machine.state y = .alarm) :
      NumberedEnd found all ks y (.ok ()) (.error .alarmActive) []
  | none (hfound : found = false) (hnone : all = []) :
      NumberedEnd found all ks y (.ok ()) (.error .noCycles) [.setState .alarm]
  | homed (hall : ks = all) (hsome : found = true ∨ all ≠ []) :
      NumberedEnd found all ks y (.ok ()) (.ok ()) []

/-- A whole request, from the machine before it. -/
inductive RequestRun (m : MachineSettings α) :
    Request → σ → Except HomingError Unit → List (Call α) → Prop
  /-- A motor reports both its limits. -/
  | ambiguous {request : Request} {x : σ} (hlimits : (Machine.limits x).ambiguous ≠ ∅) :
      RequestRun m request x (.error .ambiguousLimit) [.raiseAlarm .hardLimit]
  /-- None of the axes homes. -/
  | nothing {axes : AxisSet} {x : σ} (hlimits : (Machine.limits x).ambiguous = ∅)
      (hnone : axes ∩ m.homingAxes = ∅) : RequestRun m (.axes axes) x (.ok ()) []
  | cycle {axes : AxisSet} {x : σ} {r : Except Failure Unit} {cs : List (Call α)}
      (hlimits : (Machine.limits x).ambiguous = ∅) (hsome : axes ∩ m.homingAxes ≠ ∅)
      (hcycle : CycleRun m (axes ∩ m.homingAxes) x r cs) :
      RequestRun m (.axes axes) x (r.mapError .failed) cs
  | wildcard {x : σ} {ks : List Nat} {r : Except Failure Unit} {e : Except HomingError Unit}
      {cs ds : List (Call α)} (hlimits : (Machine.limits x).ambiguous = ∅)
      (hpre : ks <+: m.cycles) (hrun : NumberedRun m ks x r cs)
      (hend : NumberedEnd false m.cycles ks (Machine.after cs x) r e ds) :
      RequestRun m .all x e (cs ++ ds)

/-! ## One cycle -/

omit [Scalar α] in
/-- The notes at the start of a cycle are no calls. -/
theorem enter_makes (m : MachineSettings α) (axes : AxisSet) (motors : MotorSet) (s : Session σ α) :
    s.Makes [.enterHoming axes] ((if motors.isEmpty = true
      then (s.call (.enterHoming axes)).note (.noSwitches (m.axisNames axes))
      else s.call (.enterHoming axes)).note (.cycleMotors (m.axisNames axes) motors)) := by
  refine Session.Makes.snoc_note ?_ _
  split
  · exact (Session.Makes.call _ s).snoc_note _
  · exact .call _ s

/-- The session in which the phases of a cycle begin. -/
def Session.enterCycle (m : MachineSettings α) (axes : AxisSet) (s : Session σ α) : Session σ α :=
  let motors := Machine.homeable s.machine axes
  (if motors.isEmpty = true then (s.call (.enterHoming axes)).note (.noSwitches (m.axisNames axes))
    else s.call (.enterHoming axes)).note (.cycleMotors (m.axisNames axes) motors)

omit [Scalar α] in
theorem Session.enterCycle_makes (m : MachineSettings α) (axes : AxisSet) (s : Session σ α) :
    s.Makes [.enterHoming axes] (s.enterCycle m axes) :=
  enter_makes m axes (Machine.homeable s.machine axes) s

theorem commit_makes (m : MachineSettings α) (axes : AxisSet) (s : Session σ α) :
    s.Makes (closing m axes (.ok ())) (commit m axes s) := by
  have key (ns : List Nat) (s : Session σ α) : s.Makes (ns.filterMap fun n =>
      (m.axes[n]?).bind fun a => a.homing.map fun h => .setSteps n (a.stepsAt h.reference))
      (ns.foldl (commitAxis m) s) := by
    induction ns generalizing s with
    | nil => exact .refl s
    | cons n ns ih =>
        rw [List.foldl_cons, List.filterMap_cons]
        cases ha : m.axes[n]? with
        | none => simpa [commitAxis, ha] using ih s
        | some a =>
            cases hh : a.homing with
            | none => simpa [commitAxis, ha, hh] using ih s
            | some h =>
                simp only [commitAxis, ha, hh, Option.bind_some, Option.map_some]
                exact ((Session.Makes.call _ s).snoc_note _).trans (ih _)
  exact (key axes.toList s).snoc _

theorem abandon_makes (m : MachineSettings α) (axes : AxisSet) (f : Failure) (s : Session σ α) :
    s.Makes (closing m axes (.error f)) (abandon axes f s) := by
  have h := (Session.Makes.setApproaching false s).snoc (.raiseAlarm f.alarm)
  exact (((h.snoc (.exitHoming axes false)).snoc_note (.failed f)).snoc .resetMotion).snoc .dispatch

/-- What the engine does after the phases of a cycle. -/
def Session.close (m : MachineSettings α) (axes : AxisSet) (r : Except Failure Unit)
    (s : Session σ α) : Session σ α :=
  match r with
  | .error f => abandon axes f s
  | .ok () => commit m axes s

theorem Session.close_makes (m : MachineSettings α) (axes : AxisSet) (r : Except Failure Unit)
    (s : Session σ α) : s.Makes (closing m axes r) (s.close m axes r) := by
  cases r with
  | error f => exact abandon_makes m axes f s
  | ok v => exact commit_makes m axes s

/-- A cycle of axes that home enters homing mode, runs its phases and closes. -/
theorem runCycle_eq_map {budget : Nat} {m : MachineSettings α} {axes : AxisSet} {s : Session σ α}
    (hsome : axes ∩ m.homingAxes ≠ ∅) :
    runCycle budget m axes s =
      (runPhases budget m (Machine.homeable s.machine (axes ∩ m.homingAxes))
        (phasePlan m (Machine.homeable s.machine (axes ∩ m.homingAxes)))
        (s.enterCycle m (axes ∩ m.homingAxes))).map
        fun e => (e.1, e.2.close m (axes ∩ m.homingAxes) e.1) := by
  unfold runCycle
  dsimp only
  rw [if_neg (fun h => hsome (AxisSet.isEmpty_iff.1 h))]
  refine congrFun (congrArg Option.map (funext fun e => ?_)) _
  obtain ⟨r, u⟩ := e
  cases r <;> rfl

theorem cycleRun_of_runCycle {budget : Nat} {m : MachineSettings α} {axes : AxisSet}
    {s t : Session σ α} {r : Except Failure Unit} (h : runCycle budget m axes s = some (r, t)) :
    (axes ∩ m.homingAxes = ∅ ∧ r = .ok () ∧ t = s) ∨
      (axes ∩ m.homingAxes ≠ ∅ ∧
        ∃ cs, CycleRun m (axes ∩ m.homingAxes) s.machine r cs ∧ s.Makes cs t) := by
  by_cases hempty : axes ∩ m.homingAxes = ∅
  · unfold runCycle at h
    dsimp only at h
    rw [if_pos (AxisSet.isEmpty_iff.2 hempty)] at h
    obtain ⟨rfl, rfl⟩ : .ok () = r ∧ s = t := by simpa using h
    exact .inl ⟨hempty, rfl, rfl⟩
  · rw [runCycle_eq_map hempty] at h
    obtain ⟨⟨r', u⟩, hphases, hend⟩ := Option.map_eq_some_iff.1 h
    obtain ⟨rfl, rfl⟩ := Prod.mk.inj hend
    have henter := s.enterCycle_makes m (axes ∩ m.homingAxes)
    obtain ⟨cs, hrun, hmakes⟩ := phasesRun_of_runPhases hphases
    rw [henter.machine] at hrun
    exact .inr ⟨hempty, _, .intro hrun, (henter.trans hmakes).trans (u.close_makes m _ r')⟩

/-! ## Requests -/

omit [Scalar α] in
theorem mem_homingAxes_of_cycle {m : MachineSettings α} {k n : Nat} (hn : n ∈ m.axesInCycle k) :
    n ∈ m.homingAxes := by
  obtain ⟨hlt, a, ha, hcycle⟩ := MachineSettings.mem_axesWhere.1 hn
  refine MachineSettings.mem_axesWhere.2 ⟨hlt, a, ha, ?_⟩
  cases hh : a.homing with
  | none => simp [hh] at hcycle
  | some h => rfl

omit [Scalar α] in
theorem axesInCycle_inter_homingAxes (m : MachineSettings α) (k : Nat) :
    m.axesInCycle k ∩ m.homingAxes = m.axesInCycle k := by
  ext n
  rw [AxisSet.mem_inter, and_iff_left_iff_imp]
  exact mem_homingAxes_of_cycle

omit [Scalar α] in
/-- An axis homes in one cycle. -/
theorem cycle_unique {m : MachineSettings α} {j k n : Nat} (hj : n ∈ m.axesInCycle j)
    (hk : n ∈ m.axesInCycle k) : j = k := by
  obtain ⟨-, a, ha, hcycle⟩ := MachineSettings.mem_axesWhere.1 hj
  obtain ⟨-, b, hb, hcycle'⟩ := MachineSettings.mem_axesWhere.1 hk
  obtain rfl : a = b := Option.some.inj (ha.symm.trans hb)
  obtain ⟨h, hh, hj⟩ := Option.any_eq_true _ _ |>.1 hcycle
  obtain ⟨g, hg, hk⟩ := Option.any_eq_true _ _ |>.1 hcycle'
  obtain rfl : h = g := Option.some.inj (hh.symm.trans hg)
  rw [beq_iff_eq] at hj hk
  exact Option.some.inj (hj.symm.trans hk)

omit [Scalar α] in
theorem withAxes_cons (m : MachineSettings α) (k : Nat) (ks : List Nat) :
    m.withAxes (k :: ks) =
      if (m.axesInCycle k).isEmpty then m.withAxes ks else k :: m.withAxes ks := by
  rw [MachineSettings.withAxes, List.filter_cons]
  cases (m.axesInCycle k).isEmpty <;> rfl

omit [Scalar α] in
theorem mem_withAxes_iff {m : MachineSettings α} {ns : List Nat} {k : Nat} :
    k ∈ m.withAxes ns ↔ k ∈ ns ∧ m.axesInCycle k ≠ ∅ := by
  rw [MachineSettings.withAxes, List.mem_filter, Bool.not_eq_true', ← Bool.not_eq_true,
    AxisSet.isEmpty_iff]

omit [Scalar α] in
theorem cycles_ascending (m : MachineSettings α) : m.cycles.Pairwise (· < ·) :=
  List.Pairwise.filter _ (List.pairwise_lt_range' 1)

omit [Scalar α] in
/-- One more cycle in front does not change how a request ends. -/
theorem NumberedEnd.cons {found : Bool} {k : Nat} {all ks : List Nat} {y : σ}
    {r : Except Failure Unit} {e : Except HomingError Unit} {ds : List (Call α)}
    (h : NumberedEnd true all ks y r e ds) : NumberedEnd found (k :: all) (k :: ks) y r e ds := by
  cases h with
  | failed f => exact .failed f
  | alarm hstate => exact .alarm hstate
  | none hfound _ => cases hfound
  | homed hall _ => exact .homed (by rw [hall]) (.inr (List.cons_ne_nil _ _))

/-- In the alarm state no cycle begins. -/
theorem runNumbered_of_alarm {budget : Nat} {m : MachineSettings α} {found : Bool} {k : Nat}
    {ns : List Nat} {s : Session σ α} (hstate : Machine.state s.machine = .alarm) :
    runNumbered budget m found (k :: ns) s = some (.error .alarmActive, s) := by
  rw [runNumbered, if_pos hstate]

/-- A number without an axis is passed over. -/
theorem runNumbered_of_empty {budget : Nat} {m : MachineSettings α} {found : Bool} {k : Nat}
    {ns : List Nat} {s : Session σ α} (hstate : Machine.state s.machine ≠ .alarm)
    (hempty : m.axesInCycle k = ∅) :
    runNumbered budget m found (k :: ns) s = runNumbered budget m found ns s := by
  rw [runNumbered, if_neg hstate]
  dsimp only
  rw [if_pos (AxisSet.isEmpty_iff.2 hempty)]

/-- The session in which the cycle of a number begins. -/
def Session.beginCycle (m : MachineSettings α) (k : Nat) (s : Session σ α) : Session σ α :=
  s.note (.cycleBegins k (m.axisNames (m.axesInCycle k)))

theorem runNumbered_cons {budget : Nat} {m : MachineSettings α} {found : Bool} {k : Nat}
    {ns : List Nat} {s : Session σ α} (hstate : Machine.state s.machine ≠ .alarm)
    (hsome : m.axesInCycle k ≠ ∅) :
    runNumbered budget m found (k :: ns) s =
      (runCycle budget m (m.axesInCycle k) (s.beginCycle m k)).bind fun e =>
        match e.1 with
        | .error f => some (.error (.failed f), e.2)
        | .ok () => runNumbered budget m true ns e.2 := by
  rw [runNumbered, if_neg hstate]
  dsimp only
  rw [if_neg fun he => hsome (AxisSet.isEmpty_iff.1 he)]
  unfold Session.beginCycle
  cases runCycle budget m (m.axesInCycle k)
      (s.note (.cycleBegins k (m.axisNames (m.axesInCycle k)))) with
  | none => rfl
  | some e =>
      obtain ⟨r, t⟩ := e
      cases r <;> rfl

theorem cycleRun_of_axesInCycle {budget : Nat} {m : MachineSettings α} {k : Nat} {s t : Session σ α}
    {r : Except Failure Unit} (hsome : m.axesInCycle k ≠ ∅)
    (h : runCycle budget m (m.axesInCycle k) s = some (r, t)) :
    ∃ cs, CycleRun m (m.axesInCycle k) s.machine r cs ∧ s.Makes cs t := by
  obtain ⟨hnone, -, -⟩ | ⟨-, hrun⟩ := cycleRun_of_runCycle h
  · rw [axesInCycle_inter_homingAxes] at hnone
    exact absurd hnone hsome
  · rwa [axesInCycle_inter_homingAxes] at hrun

/-- What the first number of a list does: it meets the alarm state, it has no axis, or its
cycle runs. -/
inductive FirstNumber (budget : Nat) (m : MachineSettings α) (found : Bool) (k : Nat)
    (ns : List Nat) (s t : Session σ α) : Except HomingError Unit → Prop
  | alarm (hstate : Machine.state s.machine = .alarm) (heq : t = s) :
      FirstNumber budget m found k ns s t (.error .alarmActive)
  | empty {e : Except HomingError Unit} (hstate : Machine.state s.machine ≠ .alarm)
      (hempty : m.axesInCycle k = ∅) (hrest : runNumbered budget m found ns s = some (e, t)) :
      FirstNumber budget m found k ns s t e
  | fail {f : Failure} {cs : List (Call α)} (hstate : Machine.state s.machine ≠ .alarm)
      (hsome : m.axesInCycle k ≠ ∅) (hcycle : CycleRun m (m.axesInCycle k) s.machine (.error f) cs)
      (hmakes : s.Makes cs t) : FirstNumber budget m found k ns s t (.error (.failed f))
  | run {e : Except HomingError Unit} {u : Session σ α} {cs : List (Call α)}
      (hstate : Machine.state s.machine ≠ .alarm) (hsome : m.axesInCycle k ≠ ∅)
      (hcycle : CycleRun m (m.axesInCycle k) s.machine (.ok ()) cs) (hmakes : s.Makes cs u)
      (hrest : runNumbered budget m true ns u = some (e, t)) : FirstNumber budget m found k ns s t e

theorem firstNumber_of_runNumbered {budget : Nat} {m : MachineSettings α} {found : Bool} {k : Nat}
    {ns : List Nat} {s t : Session σ α} {e : Except HomingError Unit}
    (h : runNumbered budget m found (k :: ns) s = some (e, t)) :
    FirstNumber budget m found k ns s t e := by
  by_cases hstate : Machine.state s.machine = .alarm
  · rw [runNumbered_of_alarm hstate] at h
    obtain ⟨rfl, rfl⟩ := Prod.mk.inj (Option.some.inj h)
    exact .alarm hstate rfl
  by_cases hempty : m.axesInCycle k = ∅
  · rw [runNumbered_of_empty hstate hempty] at h
    exact .empty hstate hempty h
  rw [runNumbered_cons hstate hempty] at h
  obtain ⟨⟨r, u⟩, hcycle, h⟩ := Option.bind_eq_some_iff.1 h
  obtain ⟨cs, hrun, hmakes⟩ := cycleRun_of_axesInCycle hempty hcycle
  cases r with
  | error f =>
      obtain ⟨rfl, rfl⟩ := Prod.mk.inj (Option.some.inj h)
      exact .fail hstate hempty hrun hmakes.of_note
  | ok v => exact .run hstate hempty hrun hmakes.of_note h

theorem numberedRun_of_runNumbered {budget : Nat} {m : MachineSettings α} {found : Bool}
    {ns : List Nat} {s t : Session σ α} {e : Except HomingError Unit}
    (h : runNumbered budget m found ns s = some (e, t)) :
    ∃ ks r cs ds, ks <+: m.withAxes ns ∧ NumberedRun m ks s.machine r cs ∧
      NumberedEnd found (m.withAxes ns) ks (Machine.after cs s.machine) r e ds ∧
      s.Makes (cs ++ ds) t := by
  induction ns generalizing found s with
  | nil =>
      rw [runNumbered] at h
      cases found with
      | true =>
          obtain ⟨rfl, rfl⟩ : .ok () = e ∧ s = t := by simpa using h
          exact ⟨[], _, _, _, List.prefix_rfl, .nil, .homed rfl (.inl rfl), .refl s⟩
      | false =>
          obtain ⟨rfl, rfl⟩ : .error .noCycles = e ∧
            (s.note .noCycles).call (.setState .alarm) = t := by simpa using h
          exact ⟨[], _, _, _, List.prefix_rfl, .nil, .none rfl rfl,
            (Session.Makes.note .noCycles s).snoc (.setState .alarm)⟩
  | cons k ns ih =>
      have hcons (hsome : m.axesInCycle k ≠ ∅) : m.withAxes (k :: ns) = k :: m.withAxes ns := by
        rw [withAxes_cons, if_neg fun he => hsome (AxisSet.isEmpty_iff.1 he)]
      cases firstNumber_of_runNumbered h with
      | alarm hstate heq =>
          subst heq
          exact ⟨[], _, _, _, List.nil_prefix, .nil, .alarm hstate, .refl _⟩
      | empty _ hempty hrest =>
          rw [withAxes_cons, if_pos (AxisSet.isEmpty_iff.2 hempty)]
          exact ih hrest
      | @fail f cs hstate hsome hcycle hmakes =>
          rw [hcons hsome]
          refine ⟨[k], _, _, [], ?_, .fail hstate hcycle, .failed f, by simpa using hmakes⟩
          exact List.cons_prefix_cons.2 ⟨rfl, List.nil_prefix⟩
      | @run _ u cs hstate hsome hcycle hmakes hrest =>
          rw [hcons hsome]
          obtain ⟨ks, r, ds, es, hpre, hrun, hend, hmakes'⟩ := ih hrest
          rw [hmakes.machine] at hrun hend
          refine ⟨k :: ks, r, cs ++ ds, es, List.cons_prefix_cons.2 ⟨rfl, hpre⟩,
            .cons hstate hcycle hrun, ?_, ?_⟩
          · rw [Machine.after_append]
            exact hend.cons
          · rw [List.append_assoc]
            exact hmakes.trans hmakes'

theorem runRequest_axes {budget : Nat} {m : MachineSettings α} {axes : AxisSet} {s : Session σ α}
    (hlimits : (Machine.limits s.machine).ambiguous = ∅) :
    runRequest budget m (.axes axes) s =
      (runCycle budget m axes s).map fun e => (e.1.mapError .failed, e.2) := by
  unfold runRequest
  dsimp only
  rw [if_pos (MotorSet.isEmpty_iff.2 hlimits)]

theorem runRequest_all {budget : Nat} {m : MachineSettings α} {s : Session σ α}
    (hlimits : (Machine.limits s.machine).ambiguous = ∅) :
    runRequest budget m .all s = runNumbered budget m false cycleNumbers s := by
  unfold runRequest
  dsimp only
  rw [if_pos (MotorSet.isEmpty_iff.2 hlimits)]

theorem requestRun_of_runRequest {budget : Nat} {m : MachineSettings α} {request : Request}
    {s t : Session σ α} {e : Except HomingError Unit}
    (h : runRequest budget m request s = some (e, t)) :
    ∃ cs, RequestRun m request s.machine e cs ∧ s.Makes cs t := by
  unfold runRequest at h
  dsimp only at h
  by_cases hlimits : (Machine.limits s.machine).ambiguous.isEmpty = true
  · rw [if_pos hlimits] at h
    rw [MotorSet.isEmpty_iff] at hlimits
    cases request with
    | axes axes =>
        obtain ⟨⟨r, u⟩, hcycle, hend⟩ := Option.map_eq_some_iff.1 h
        obtain ⟨rfl, rfl⟩ := Prod.mk.inj hend
        obtain ⟨hnone, rfl, rfl⟩ | ⟨hsome, cs, hrun, hmakes⟩ := cycleRun_of_runCycle hcycle
        · exact ⟨[], .nothing hlimits hnone, .refl u⟩
        · exact ⟨cs, .cycle hlimits hsome hrun, hmakes⟩
    | all =>
        obtain ⟨ks, r, cs, ds, hpre, hrun, hend, hmakes⟩ := numberedRun_of_runNumbered h
        exact ⟨cs ++ ds, .wildcard hlimits hpre hrun hend, hmakes⟩
  · rw [if_neg hlimits] at h
    obtain ⟨rfl, rfl⟩ := Prod.mk.inj (Option.some.inj h)
    refine ⟨[.raiseAlarm .hardLimit], .ambiguous fun he => ?_, (Session.Makes.note _ s).snoc _⟩
    exact hlimits (MotorSet.isEmpty_iff.2 he)

/-! ## Where the cycles of a run end -/

theorem mem_committing {m : MachineSettings α} {axes : AxisSet} {c : Call α} :
    c ∈ committing m axes ↔ ∃ n a h, n ∈ axes ∧ m.axes[n]? = some a ∧ a.homing = some h ∧
      c = .setSteps n (a.stepsAt h.reference) := by
  unfold committing
  simp only [List.mem_filterMap, AxisSet.mem_toList, Option.bind_eq_some_iff,
    Option.map_eq_some_iff]
  constructor
  · rintro ⟨n, hn, a, ha, h, hh, rfl⟩
    exact ⟨n, a, h, hn, ha, hh, rfl⟩
  · rintro ⟨n, a, h, hn, ha, hh, rfl⟩
    exact ⟨n, hn, a, ha, h, hh, rfl⟩

/-- The calls that give axes their reference positions set each counter once. -/
theorem exists_committing_eq {m : MachineSettings α} {axes : AxisSet} {n : Nat} (hn : n ∈ axes)
    {a : AxisSettings α} {h : HomingSettings α} (ha : m.axes[n]? = some a)
    (hh : a.homing = some h) :
    ∃ front others, committing m axes = front ++ .setSteps n (a.stepsAt h.reference) :: others ∧
      ∀ c ∈ others, ∃ j ≠ n, ∃ steps, c = .setSteps j steps := by
  obtain ⟨before, behind, hsplit⟩ := List.append_of_mem (AxisSet.mem_toList.2 hn)
  have hnodup : axes.toList.Nodup := List.nodup_range.filter _
  rw [hsplit] at hnodup
  have hother : n ∉ behind := (List.nodup_cons.1 (List.nodup_append.1 hnodup).2.1).1
  unfold committing
  rw [hsplit, List.filterMap_append, List.filterMap_cons]
  simp only [ha, hh, Option.bind_some, Option.map_some]
  refine ⟨_, _, rfl, fun c hc => ?_⟩
  obtain ⟨j, hj, hc⟩ := List.mem_filterMap.1 hc
  obtain ⟨b, -, hc⟩ := Option.bind_eq_some_iff.1 hc
  obtain ⟨g, -, rfl⟩ := Option.map_eq_some_iff.1 hc
  exact ⟨j, fun heq => hother (heq ▸ hj), _, rfl⟩

/-- A cycle leaves homing mode once, and says whether it ended well. -/
theorem CycleRun.exitHoming_mem_iff {m : MachineSettings α} {axes S : AxisSet} {x : σ}
    {r : Except Failure Unit} {cs : List (Call α)} {success : Bool} (h : CycleRun m axes x r cs) :
    .exitHoming S success ∈ cs ↔ S = axes ∧ (success = true ↔ r = .ok ()) := by
  cases h with
  | @intro moves hphases =>
      have hmoves : .exitHoming S success ∉ moves := by
        intro hmem
        cases inPhase_of_phasesRun hphases _ hmem with
        | loop hc => cases hc
      have hcommit : .exitHoming S success ∉ committing m axes := by
        intro hmem
        obtain ⟨_, _, _, -, -, -, hc⟩ := mem_committing.1 hmem
        cases hc
      cases r with
      | error f => cases success <;> simp [closing, hmoves]
      | ok v => cases success <;> simp [closing, hmoves, hcommit]

/-- A run that fails is one of cycles that ended well and then the failed one. -/
theorem NumberedRun.exists_failed {m : MachineSettings α} {ks : List Nat} {x : σ} {f : Failure}
    {cs : List (Call α)} (h : NumberedRun m ks x (.error f) cs) :
    ∃ pre k ds es, ks = pre ++ [k] ∧ cs = ds ++ es ∧ NumberedRun m pre x (.ok ()) ds ∧
      CycleRun m (m.axesInCycle k) (Machine.after ds x) (.error f) es := by
  generalize hr : Except.error f = r at h
  induction h with
  | nil => cases hr
  | @cons k _ x _ cs _ hstate hcycle _ ih =>
      obtain ⟨pre, last, ds, es, rfl, rfl, hrun, hlast⟩ := ih hr
      rw [← Machine.after_append] at hlast
      exact ⟨k :: pre, last, cs ++ ds, es, rfl, (List.append_assoc _ _ _).symm,
        .cons hstate hcycle hrun, hlast⟩
  | @fail k _ _ cs hstate hcycle =>
      cases hr
      exact ⟨[], k, [], cs, rfl, rfl, .nil, hcycle⟩

/-- Cycles that ended well never leave homing mode for a failure. -/
theorem NumberedRun.exitHoming_false_not_mem {m : MachineSettings α} {ks : List Nat} {x : σ}
    {cs : List (Call α)} (h : NumberedRun m ks x (.ok ()) cs) (S : AxisSet) :
    .exitHoming S false ∉ cs := by
  generalize hr : Except.ok () = r at h
  induction h with
  | nil => exact List.not_mem_nil
  | cons _ hcycle _ ih =>
      intro hmem
      rcases List.mem_append.1 hmem with hmem | hmem
      · simpa using (hcycle.exitHoming_mem_iff.1 hmem).2
      · exact ih hr hmem
  | fail => cases hr

/-! ## Homing as a whole -/

/-- The calls of `home` after its request. -/
def concluding : Except HomingError Unit → List (Call α)
  | .ok () => [.setState .idle]
  | .error _ => []

omit [Scalar α] in
theorem machine_begin (x : σ) : ((Session.begin x).call (.setState .homing)).machine =
    (Machine.apply (.setState .homing) x).1 :=
  Session.machine_call _ _

theorem exists_runRequest_of_home {budget : Nat} {m : MachineSettings α} {request : Request} {x : σ}
    {t : Session σ α} {e : Except HomingError Unit} (h : home budget m request x = some (e, t)) :
    ∃ u, runRequest budget m request ((Session.begin x).call (.setState .homing)) = some (e, u) ∧
      u.Makes (concluding e) t := by
  obtain ⟨⟨e', u⟩, hrequest, hend⟩ := Option.map_eq_some_iff.1 h
  cases e' with
  | error f =>
      obtain ⟨rfl, rfl⟩ := Prod.mk.inj hend
      exact ⟨u, hrequest, .refl u⟩
  | ok v =>
      obtain ⟨rfl, rfl⟩ := Prod.mk.inj hend
      exact ⟨u, hrequest, (Session.Makes.call (.setState .idle) u).snoc_note .homingComplete⟩

/-- Homing chosen axes is one cycle of them, where no motor reports both its limits. -/
theorem home_of_runCycle {budget : Nat} {m : MachineSettings α} {axes : AxisSet} {x : σ}
    {u : Session σ α}
    (hlimits : (Machine.limits (Machine.after [.setState .homing] x)).ambiguous = ∅)
    (h : runCycle budget m axes ((Session.begin x).call (.setState .homing)) = some (.ok (), u)) :
    home budget m (.axes axes) x =
      some (.ok (), (u.call (.setState .idle)).note .homingComplete) := by
  have hbegin : ((Session.begin x).call (.setState .homing)).machine =
      Machine.after [.setState .homing] x := (Session.Makes.call _ _).machine
  rw [← hbegin, ← MotorSet.isEmpty_iff] at hlimits
  unfold home runRequest
  dsimp only
  rw [if_pos hlimits, h]
  rfl

/-- What `home` does around a request. -/
theorem requestRun_of_home {budget : Nat} {m : MachineSettings α} {request : Request} {x : σ}
    {t : Session σ α} {e : Except HomingError Unit} (h : home budget m request x = some (e, t)) :
    ∃ cs, RequestRun m request (Machine.after [.setState .homing] x) e cs ∧
      (Session.begin x).Makes ([.setState .homing] ++ cs ++ concluding e) t := by
  obtain ⟨u, hrequest, hend⟩ := exists_runRequest_of_home h
  obtain ⟨cs, hrun, hmakes⟩ := requestRun_of_runRequest hrequest
  have hbegin := Session.Makes.call (.setState .homing) (Session.begin x : Session σ α)
  rw [hbegin.machine] at hrun
  exact ⟨cs, hrun, (hbegin.trans hmakes).trans hend⟩

end Homing
