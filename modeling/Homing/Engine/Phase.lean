import Homing.Engine.Session
import Homing.Plan

/-!
# Running a phase

A phase is planned, handed to the machine and started; then the engine goes
round a loop until the phase has ended. `turn` is one time round: it looks at the
limit switches during an approach, refills the step buffer, serves the signals
that wait and polls the channels. A phase ends well when no motor is left to wait
for, and badly at a reset, at an open door, or at a motion that stopped too soon
or too late.

Nothing here can know how long a machine takes, so the loop is given a number of
turns, and `runPhase` answers `none` when they do not suffice. More turns never
change an answer (`turns_mono`).
-/

namespace Homing

variable {σ : Type u} {α : Type v} [Machine σ α]

/-- How a run of the engine ended and the session it left, or `none` if it was
not given turns enough. -/
abbrev Outcome (ε : Type) (σ : Type u) (α : Type v) := Option (Except ε Unit × Session σ α)

namespace Session

/-- Tell the machine where the axes of a move start. The step counters of the
axes that take part are set to zero; every other axis gets the position it
already has as its target. -/
def placeAxes [Scalar α] (planned : PlannedMove α) :
    List (AxisSettings α × Nat) → PerAxis α → Session σ α → PerAxis α × Session σ α
  | [], target, s => (target, s)
  | (a, n) :: rest, target, s =>
    if n ∈ planned.axes then placeAxes planned rest target (s.call (.setSteps n 0))
    else
      placeAxes planned rest (target.setIfInBounds n (a.positionAt (Machine.steps s.machine n))) s

/-- Plan a phase, hand the move over and start it. -/
def startPhase [Scalar α] (m : MachineSettings α) (motors : MotorSet) (phase : Phase)
    (s : Session σ α) : Session σ α :=
  let planned := planMove m motors phase
  let s := s.noteAll (planNotes m motors phase)
  let (target, s) := s.placeAxes planned (m.axes.zipIdx.take maxAxes) planned.target
  let s := s.call <| .submit {
    target
    feedRate := planned.feedRate
    flags := .homing
    approach := phase.isApproach
    overrides := planned.overrides }
  (s.call .refill).call .start

end Session

/-- What one time round the loop comes to. -/
inductive Turn (σ : Type u) (α : Type v) where
  /-- The phase goes on, and waits for these motors. -/
  | more (remaining : MotorSet) (s : Session σ α)
  /-- The phase has ended. -/
  | ended (result : Except Failure Unit) (s : Session σ α)

/-- Strike out the motors that have reached their switches. -/
def seeSwitches (remaining : MotorSet) (s : Session σ α) : MotorSet × Session σ α :=
  if s.approaching then
    let active := (Machine.limits s.machine).active
    let reached := remaining ∩ active
    if reached.isEmpty then (remaining, s)
    else (remaining \ active, s.note (.switchesReached reached))
  else (remaining, s)

/-- Answer a request for a status report. -/
def serveStatus (pending : Signals) (s : Session σ α) : Session σ α :=
  if pending.statusReport then (s.call (.acknowledge .status)).call .reportStatus else s

/-- Take the end of the motion as the end of the phase. An approach must not come
to the end of its move, and a pull-off must leave every switch. -/
def motionStopped (remaining : MotorSet) (s : Session σ α) : Turn σ α :=
  let s := s.call (.acknowledge .stop)
  if s.approaching then .ended (.error .approach) s
  else if ((Machine.limits s.machine).active ∩ remaining).isEmpty then
    .ended (.ok ()) (s.call .poll)
  else .ended (.error .pulloff) s

/-- One time round the loop, waiting for the motors that remain. -/
def turn (remaining : MotorSet) (s : Session σ α) : Turn σ α :=
  let (remaining, s) := seeSwitches remaining s
  let s := s.call .refill
  let pending := Machine.pending s.machine
  let s := serveStatus pending s
  if pending.reset then .ended (.error .reset) s
  else if pending.safetyDoor then .ended (.error .door) s
  else if pending.cycleStop then motionStopped remaining s
  else
    let s := s.call .poll
    if remaining.isEmpty then .ended (.ok ()) s else .more remaining s

/-- Go round the loop until the phase ends, at most the given number of times. -/
def turns : Nat → MotorSet → Session σ α → Outcome Failure σ α
  | 0, _, _ => none
  | n + 1, remaining, s =>
    match turn remaining s with
    | .ended result s => some (result, s)
    | .more remaining s => turns n remaining s

theorem turns_mono {n k : Nat} (h : n ≤ k) {remaining : MotorSet} {s : Session σ α}
    {r : Except Failure Unit × Session σ α} (hr : turns n remaining s = some r) :
    turns k remaining s = some r := by
  induction n generalizing k remaining s with
  | zero => simp [turns] at hr
  | succ n ih =>
    obtain ⟨k, rfl⟩ : ∃ j, k = j + 1 := ⟨k - 1, by omega⟩
    unfold turns at hr ⊢
    split at hr
    · exact hr
    · exact ih (by omega) hr

/-- Run a phase for a set of motors. The pull-off that comes first is left out
where no motor stands on its switch. -/
def runPhase [Scalar α] (budget : Nat) (m : MachineSettings α) (motors : MotorSet) (phase : Phase)
    (s : Session σ α) : Outcome Failure σ α :=
  if motors.isEmpty then some (.ok (), s)
  else if phase = .prePulloff ∧ ((Machine.limits s.machine).active ∩ motors).isEmpty = true then
    some (.ok (), s.note .prePulloffSkipped)
  else
    let settle := (planMove m motors phase).settle
    (turns budget motors ((s.setApproaching phase.isApproach).startPhase m motors phase)).map
      fun (result, s) =>
        match result with
        | .error f => (.error f, s.setApproaching false)
        | .ok () =>
          (.ok (), (((s.call .halt).call (.dwell settle)).note
            (.phaseDone phase settle)).setApproaching false)

/-- Run phases in order and stop at the first that fails. -/
def runPhases [Scalar α] (budget : Nat) (m : MachineSettings α) (motors : MotorSet) :
    List Phase → Session σ α → Outcome Failure σ α
  | [], s => some (.ok (), s)
  | phase :: rest, s =>
    match runPhase budget m motors phase (s.note (.phaseBegins phase)) with
    | some (.ok (), s) => runPhases budget m motors rest s
    | stopped => stopped

end Homing
