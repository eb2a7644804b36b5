import Homing.Proofs.Engine.CycleRun
import Homing.Scripted

/-!
# The calls of a request come in blocks

`CycleRun` and its kin say where in a run the machine was looked at. Here the looks
are forgotten, and what is left is the shape of the calls: a request makes one
complete block for each cycle that it runs, in ascending order, and only the last
block can be that of a failed cycle. A block opens with `enterHoming`, has one group
of calls for each move, and closes with the reference positions or with the alarm of
the failure.

A request that the engine refuses makes no block. `RequestCalls` tells by the machine and
the configuration alone which requests these are: one on a machine with a motor that reports
both its limits, and one for every cycle on a machine in alarm or without a cycle.
-/

namespace Homing

variable {σ : Type u} {α : Type v} [Scalar α]

/-- The calls of one move of a cycle, which ends with `r`. When it ends well it is
followed by one halt and one wait for the longest settle time. -/
inductive MoveCalls (m : MachineSettings α) (motors : MotorSet) (phase : Phase) :
    Except Failure Unit → List (Call α) → Prop
  | intro {mv : Move α} {loop : List (Call α)} {ms : Nat} (r : Except Failure Unit)
      (htarget : ∀ n ∈ (planMove m motors phase).axes,
        mv.target[n]? = (planMove m motors phase).target[n]?)
      (hrate : mv.feedRate = (planMove m motors phase).feedRate) (hflags : mv.flags = .homing)
      (happroach : mv.approach = phase.isApproach)
      (hoverrides : mv.overrides = (planMove m motors phase).overrides)
      (hloop : ∀ c ∈ loop, c.InLoop) (hsettle : LongestSettle m motors ms) :
      MoveCalls m motors phase r (starting (planMove m motors phase) mv ++ loop ++ settling ms r)

/-- The calls of the moves of these phases in order, of which only the last may
fail. -/
inductive MovesCalls (m : MachineSettings α) (motors : MotorSet) :
    List Phase → Except Failure Unit → List (Call α) → Prop
  | nil : MovesCalls m motors [] (.ok ()) []
  | cons {phase : Phase} {rest : List Phase} {r : Except Failure Unit} {cs ds : List (Call α)} :
      MoveCalls m motors phase (.ok ()) cs → MovesCalls m motors rest r ds →
      MovesCalls m motors (phase :: rest) r (cs ++ ds)
  | fail {phase : Phase} {rest : List Phase} {f : Failure} {cs : List (Call α)} :
      MoveCalls m motors phase (.error f) cs → MovesCalls m motors (phase :: rest) (.error f) cs

/-- The phases that move in a cycle. `pre` says whether a motor had to leave its
switch first. -/
def movingPhases (m : MachineSettings α) (motors : MotorSet) (pre : Bool) : List Phase :=
  (if pre then [.prePulloff] else []) ++ [.fastApproach, .pulloff0, .slowApproach, .pulloff1] ++
    if needsSquaring m motors then [.pulloff2] else []

/-- The block of a cycle of axes, for the motors that the machine has for them. -/
inductive Block (m : MachineSettings α) (axes : AxisSet) (motors : MotorSet) :
    Except Failure Unit → List (Call α) → Prop
  | idle (hmotors : motors = ∅) :
      Block m axes motors (.ok ()) (.enterHoming axes :: closing m axes (.ok ()))
  | moved (pre : Bool) {r : Except Failure Unit} {cs : List (Call α)} (hmotors : motors ≠ ∅)
      (hmoves : MovesCalls m motors (movingPhases m motors pre) r cs) :
      Block m axes motors r (.enterHoming axes :: cs ++ closing m axes r)

variable [Machine σ α]

/-- The blocks of numbered cycles, from the machine before the first of them. No cycle begins
in the alarm state. -/
inductive Blocks (m : MachineSettings α) :
    List Nat → σ → Except Failure Unit → List (Call α) → Prop
  | nil {x : σ} : Blocks m [] x (.ok ()) []
  | cons {k : Nat} {ks : List Nat} {x : σ} {r : Except Failure Unit} {cs ds : List (Call α)}
      (hstate : Machine.state x ≠ .alarm)
      (hblock : Block m (m.axesInCycle k) (Machine.homeable x (m.axesInCycle k)) (.ok ()) cs)
      (hrest : Blocks m ks (Machine.after cs x) r ds) : Blocks m (k :: ks) x r (cs ++ ds)
  | fail {k : Nat} {x : σ} {f : Failure} {cs : List (Call α)} (hstate : Machine.state x ≠ .alarm)
      (hblock : Block m (m.axesInCycle k) (Machine.homeable x (m.axesInCycle k)) (.error f) cs) :
      Blocks m [k] x (.error f) cs

/-- The calls of a request are complete blocks: one for each number of an ascending
list of cycles, or one for the chosen axes that home. -/
inductive RequestBlocks (m : MachineSettings α) :
    Request → σ → Except Failure Unit → List (Call α) → Prop
  | nothing {axes : AxisSet} {x : σ} (hnone : axes ∩ m.homingAxes = ∅) :
      RequestBlocks m (.axes axes) x (.ok ()) []
  | one {axes : AxisSet} {x : σ} {r : Except Failure Unit} {cs : List (Call α)}
      (hsome : axes ∩ m.homingAxes ≠ ∅)
      (hblock : Block m (axes ∩ m.homingAxes) (Machine.homeable x (axes ∩ m.homingAxes)) r cs) :
      RequestBlocks m (.axes axes) x r cs
  | numbered {ks : List Nat} {x : σ} {r : Except Failure Unit} {cs : List (Call α)}
      (hascending : ks.Pairwise (· < ·)) (hcycles : ks <+: m.cycles)
      (hblocks : Blocks m ks x r cs) : RequestBlocks m .all x r cs

/-- The calls of a request that ends with `e`. Which way it ends where no cycle fails is settled
by the machine and the cycles that there are. -/
inductive RequestCalls (m : MachineSettings α) (request : Request) (x : σ) :
    Except HomingError Unit → List (Call α) → Prop
  /-- A motor reports both its limits. -/
  | ambiguous (hlimits : (Machine.limits x).ambiguous ≠ ∅) :
      RequestCalls m request x (.error .ambiguousLimit) [.raiseAlarm .hardLimit]
  /-- Every cycle was asked for and there is none. -/
  | noCycles (hlimits : (Machine.limits x).ambiguous = ∅) (hrequest : request = .all)
      (hstate : Machine.state x ≠ .alarm) (hnone : m.cycles = []) :
      RequestCalls m request x (.error .noCycles) [.setState .alarm]
  /-- Every cycle was asked for, and after some of them the machine is in alarm. -/
  | alarm {cs : List (Call α)} (hlimits : (Machine.limits x).ambiguous = ∅)
      (hrequest : request = .all) (hblocks : RequestBlocks m request x (.ok ()) cs)
      (hstate : Machine.state (Machine.after cs x) = .alarm) :
      RequestCalls m request x (.error .alarmActive) cs
  | failed {f : Failure} {cs : List (Call α)} (hlimits : (Machine.limits x).ambiguous = ∅)
      (hblocks : RequestBlocks m request x (.error f) cs) :
      RequestCalls m request x (.error (.failed f)) cs
  /-- If every cycle was asked for, there are some and all of them have run. -/
  | ended {cs : List (Call α)} (hlimits : (Machine.limits x).ambiguous = ∅)
      (hblocks : RequestBlocks m request x (.ok ()) cs)
      (hall : request = .all → m.cycles ≠ [] ∧ Blocks m m.cycles x (.ok ()) cs) :
      RequestCalls m request x (.ok ()) cs

section Moves

variable {m : MachineSettings α} {motors : MotorSet} {r : Except Failure Unit} {x : σ}

/-- Phases of which none can be left out make one group of calls each. -/
theorem movesCalls_of_phasesRun {phases : List Phase} {cs : List (Call α)} (hmotors : motors ≠ ∅)
    (hmust : ∀ phase ∈ phases, phase = .prePulloff → (Machine.limits x).active ∩ motors ≠ ∅)
    (honce : .prePulloff ∉ phases.tail) (h : PhasesRun m motors phases x r cs) :
    MovesCalls m motors phases r cs := by
  have single {phase : Phase} {x : σ} {r : Except Failure Unit} {cs : List (Call α)}
      (hmust : phase = .prePulloff → (Machine.limits x).active ∩ motors ≠ ∅)
      (h : PhaseRun m motors phase x r cs) : MoveCalls m motors phase r cs := by
    cases h with
    | idle hempty => exact absurd hempty hmotors
    | skipped _ hphase hoff => exact absurd hoff (hmust hphase)
    | moved _ _ hcarries hloop =>
        exact .intro r hcarries.along hcarries.feedRate hcarries.flags hcarries.approach
          hcarries.overrides (inLoop_of_loopRun hloop) longestSettle_planMove
  induction h with
  | nil => exact .nil
  | @cons phase rest x r cs ds hphase hrest ih =>
      refine .cons (single (hmust phase List.mem_cons_self) hphase) (ih ?_ ?_)
      · rintro _ hmem rfl
        exact absurd hmem honce
      · exact fun hmem => honce (List.mem_of_mem_tail hmem)
  | fail hphase => exact .fail (single (hmust _ List.mem_cons_self) hphase)

theorem phasePlan_eq_cons :
    phasePlan m motors = .prePulloff :: movingPhases m motors false := by
  rw [phasePlan_eq]
  rfl

theorem not_mem_movingPhases : .prePulloff ∉ movingPhases m motors false := by
  unfold movingPhases
  cases needsSquaring m motors <;> decide

/-- Where no motor stands on its switch the first phase is left out, and the others start
from the same machine. -/
theorem phasesRun_of_off {cs : List (Call α)} (hmotors : motors ≠ ∅)
    (hoff : (Machine.limits x).active ∩ motors = ∅)
    (h : PhasesRun m motors (phasePlan m motors) x r cs) :
    PhasesRun m motors (movingPhases m motors false) x r cs := by
  rw [phasePlan_eq_cons] at h
  cases h with
  | cons hpre hrest =>
      cases hpre with
      | idle hempty => exact absurd hempty hmotors
      | moved _ hmust => exact absurd hoff (hmust rfl)
      | skipped _ _ _ => exact hrest
  | fail hpre =>
      cases hpre with
      | moved _ hmust => exact absurd hoff (hmust rfl)

theorem movesCalls_of_movingPhases {cs : List (Call α)} (hmotors : motors ≠ ∅)
    (h : PhasesRun m motors (movingPhases m motors false) x r cs) :
    MovesCalls m motors (movingPhases m motors false) r cs := by
  have hnever : .prePulloff ∉ movingPhases m motors false := not_mem_movingPhases
  refine movesCalls_of_phasesRun hmotors ?_ (fun hmem => hnever (List.mem_of_mem_tail hmem)) h
  rintro _ hmem rfl
  exact absurd hmem hnever

/-- The phases of a cycle make the calls of its moves, the first one only if a motor
stands on its switch. -/
theorem movesCalls_of_phasePlan {cs : List (Call α)} (hmotors : motors ≠ ∅)
    (h : PhasesRun m motors (phasePlan m motors) x r cs) :
    ∃ pre, MovesCalls m motors (movingPhases m motors pre) r cs := by
  by_cases hon : (Machine.limits x).active ∩ motors = ∅
  · exact ⟨false, movesCalls_of_movingPhases hmotors (phasesRun_of_off hmotors hon h)⟩
  · rw [phasePlan_eq_cons] at h
    exact ⟨true, movesCalls_of_phasesRun hmotors (fun _ _ _ => hon) not_mem_movingPhases h⟩

theorem block_of_cycleRun {axes : AxisSet} {cs : List (Call α)} (h : CycleRun m axes x r cs) :
    Block m axes (Machine.homeable x axes) r cs := by
  cases h with
  | intro hphases =>
      by_cases hmotors : Machine.homeable x axes = ∅
      · obtain ⟨rfl, rfl⟩ := hphases.idle hmotors
        exact .idle hmotors
      · obtain ⟨pre, hmoves⟩ := movesCalls_of_phasePlan hmotors hphases
        exact .moved pre hmotors hmoves

end Moves

theorem blocks_of_numberedRun {m : MachineSettings α} {ks : List Nat} {x : σ}
    {r : Except Failure Unit} {cs : List (Call α)} (h : NumberedRun m ks x r cs) :
    Blocks m ks x r cs := by
  induction h with
  | nil => exact .nil
  | cons hstate hcycle _ ih => exact .cons hstate (block_of_cycleRun hcycle) ih
  | fail hstate hcycle => exact .fail hstate (block_of_cycleRun hcycle)

/-- A request for every cycle that finds none did not find the machine in alarm. -/
theorem state_of_runRequest_noCycles {budget : Nat} {m : MachineSettings α} {s t : Session σ α}
    (hlimits : (Machine.limits s.machine).ambiguous = ∅)
    (h : runRequest budget m .all s = some (.error .noCycles, t)) :
    Machine.state s.machine ≠ .alarm := by
  intro hstate
  rw [runRequest_all hlimits] at h
  have halarm : runNumbered budget m false cycleNumbers s = some (.error .alarmActive, s) :=
    runNumbered_of_alarm hstate
  rw [halarm] at h
  cases h

section Refusals

variable {m : MachineSettings α} {request : Request} {x : σ} {e : Except HomingError Unit}
  {cs : List (Call α)}

/-- Without a cycle there is no block, and in the alarm state there is none either. -/
theorem RequestBlocks.eq_nil {r : Except Failure Unit} (h : RequestBlocks m .all x r cs)
    (hnone : Machine.state x = .alarm ∨ m.cycles = []) : r = .ok () ∧ cs = [] := by
  cases h with
  | numbered _ hcycles hblocks =>
      rcases hnone with hstate | hnone
      · cases hblocks with
        | nil => exact ⟨rfl, rfl⟩
        | cons hnot => exact absurd hstate hnot
        | fail hnot => exact absurd hstate hnot
      · rw [hnone] at hcycles
        obtain rfl := List.prefix_nil.1 hcycles
        cases hblocks
        exact ⟨rfl, rfl⟩

theorem RequestCalls.of_ambiguous (h : RequestCalls m request x e cs)
    (hlimits : (Machine.limits x).ambiguous ≠ ∅) :
    e = .error .ambiguousLimit ∧ cs = [.raiseAlarm .hardLimit] := by
  cases h with
  | ambiguous => exact ⟨rfl, rfl⟩
  | noCycles hnot | alarm hnot | failed hnot | ended hnot => exact absurd hnot hlimits

theorem RequestCalls.of_alarm (h : RequestCalls m .all x e cs)
    (hlimits : (Machine.limits x).ambiguous = ∅) (hstate : Machine.state x = .alarm) :
    e = .error .alarmActive ∧ cs = [] := by
  cases h with
  | ambiguous hnot => exact absurd hlimits hnot
  | noCycles _ _ hnot => exact absurd hstate hnot
  | alarm _ _ hblocks => exact ⟨rfl, (hblocks.eq_nil (.inl hstate)).2⟩
  | failed _ hblocks => cases (hblocks.eq_nil (.inl hstate)).1
  | ended _ _ hall =>
      obtain ⟨hsome, hblocks⟩ := hall rfl
      generalize m.cycles = ks at hsome hblocks
      cases hblocks with
      | nil => exact absurd rfl hsome
      | cons hnot => exact absurd hstate hnot

theorem RequestCalls.of_noCycles (h : RequestCalls m .all x e cs)
    (hlimits : (Machine.limits x).ambiguous = ∅) (hstate : Machine.state x ≠ .alarm)
    (hnone : m.cycles = []) : e = .error .noCycles ∧ cs = [.setState .alarm] := by
  cases h with
  | ambiguous hnot => exact absurd hlimits hnot
  | noCycles => exact ⟨rfl, rfl⟩
  | alarm _ _ hblocks halarm =>
      obtain rfl := (hblocks.eq_nil (.inr hnone)).2
      exact absurd halarm hstate
  | failed _ hblocks => cases (hblocks.eq_nil (.inr hnone)).1
  | ended _ _ hall => exact absurd hnone (hall rfl).1

end Refusals

/-- A request makes complete blocks in ascending order, unless it is refused. A motor that reports
both its limits refuses it with the alarm of the hard limit alone. A request for every cycle makes
no call on a machine in alarm, and otherwise, where there is no cycle, only puts it into alarm. -/
theorem requestCalls_of_runRequest {budget : Nat} {m : MachineSettings α} {request : Request}
    {s t : Session σ α} {e : Except HomingError Unit}
    (h : runRequest budget m request s = some (e, t)) :
    ∃ cs, t.calls = s.calls ++ cs ∧ RequestCalls m request s.machine e cs ∧
      ((Machine.limits s.machine).ambiguous ≠ ∅ →
        e = .error .ambiguousLimit ∧ cs = [.raiseAlarm .hardLimit]) ∧
      ((Machine.limits s.machine).ambiguous = ∅ → request = .all →
        (Machine.state s.machine = .alarm → e = .error .alarmActive ∧ cs = []) ∧
        (Machine.state s.machine ≠ .alarm → m.cycles = [] →
          e = .error .noCycles ∧ cs = [.setState .alarm])) := by
  obtain ⟨cs, hrun, hmakes⟩ := requestRun_of_runRequest h
  have hcalls : RequestCalls m request s.machine e cs := by
    cases hrun with
    | ambiguous hlimits => exact .ambiguous hlimits
    | nothing hlimits hnone => exact .ended hlimits (.nothing hnone) nofun
    | @cycle _ _ r _ hlimits hsome hcycle =>
        have hblock := RequestBlocks.one hsome (block_of_cycleRun hcycle)
        cases r with
        | error f => exact .failed hlimits hblock
        | ok v => exact .ended hlimits hblock nofun
    | wildcard hlimits hpre hrun hend =>
        have hnumbered := blocks_of_numberedRun hrun
        have hblocks := RequestBlocks.numbered ((cycles_ascending m).sublist hpre.sublist) hpre
          hnumbered
        cases hend with
        | failed f => simpa using RequestCalls.failed hlimits hblocks
        | alarm hstate => simpa using RequestCalls.alarm hlimits rfl hblocks hstate
        | homed hall hsome =>
            rw [hall] at hnumbered
            have hcycles := hsome.resolve_left Bool.false_ne_true
            simpa using RequestCalls.ended hlimits hblocks fun _ => ⟨hcycles, hnumbered⟩
        | none _ hnone =>
            have hstate := state_of_runRequest_noCycles hlimits h
            obtain rfl := (hblocks.eq_nil (.inr hnone)).2
            exact .noCycles hlimits rfl hstate hnone
  refine ⟨cs, hmakes.calls, hcalls, hcalls.of_ambiguous, ?_⟩
  rintro hlimits rfl
  exact ⟨hcalls.of_alarm hlimits, hcalls.of_noCycles hlimits⟩

/-- Two axes that home one after the other. -/
def twoCycles : MachineSettings Float where
  logLevel := .info
  axes :=
    [{ name := "X", maxTravel := 100.0, stepsPerMm := 80.0,
       homing := some { HomingSettings.default with cycle := some 1 }, motors := [.default] },
     { name := "Y", maxTravel := 100.0, stepsPerMm := 80.0,
       homing := some { HomingSettings.default with cycle := some 2 }, motors := [.default] }]

/-- A machine that finds the switches of axis 0 twice and is reset while axis 1 leaves
its switches. -/
def Scripted.resetAfterOneCycle : Scripted Float where
  script :=
    let x := MotorSet.ofAxesBothSides (.single 0)
    let y := MotorSet.ofAxesBothSides (.single 1)
    { positive := [(1, x), (3, ∅), (5, x), (7, ∅), (9, y), (11, ∅)]
      signals := [(4, .stop), (8, .stop), (12, { reset := true })] }
  refills := 0
  state := .homing
  pending := ∅
  steps := [0, 0]

/-- One complete block and one of a failed cycle. -/
theorem requestCalls_resetAfterOneCycle :
    ∃ t, runRequest 2 twoCycles .all (Session.begin Scripted.resetAfterOneCycle) =
        some (.error (.failed .reset), t) ∧
      ∃ cs, t.calls = [] ++ cs ∧
        RequestCalls twoCycles .all Scripted.resetAfterOneCycle (.error (.failed .reset)) cs := by
  have hrun : (runRequest 2 twoCycles .all (Session.begin Scripted.resetAfterOneCycle)).map (·.1) =
      some (.error (.failed .reset)) := rfl
  obtain ⟨⟨e, t⟩, h, he⟩ := Option.map_eq_some_iff.1 hrun
  cases he
  obtain ⟨cs, hcs, hcalls, -⟩ := requestCalls_of_runRequest h
  exact ⟨t, h, cs, hcs, hcalls⟩

/-- A machine with a motor that is wired to both limits. -/
def Scripted.bothLimits : Scripted Float where
  script :=
    let x := MotorSet.ofAxes (.single 0) .primary
    { positive := [(0, x)], negative := [(0, x)] }
  refills := 0
  state := .idle
  pending := ∅
  steps := [0, 0]

/-- A refused request calls the machine outside of any block, even when no axis is
asked for. -/
theorem not_requestBlocks_bothLimits :
    ∃ t, runRequest 2 twoCycles (.axes ∅) (Session.begin Scripted.bothLimits) =
        some (.error .ambiguousLimit, t) ∧
      ¬ ∃ r, RequestBlocks twoCycles (.axes ∅) Scripted.bothLimits r t.calls := by
  refine ⟨_, rfl, ?_⟩
  rintro ⟨r, hblocks⟩
  generalize hcalls : Session.calls _ = cs at hblocks
  have hcalls' : cs = [.raiseAlarm .hardLimit] := hcalls.symm
  cases hblocks with
  | nothing _ => cases hcalls'
  | one hsome _ => exact hsome rfl

end Homing
