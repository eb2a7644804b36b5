import Homing.Proofs.Engine.Iterations
import Homing.Proofs.Exact.Scalar
import Homing.Settings.Fault
import Homing.Simulator.Basic

/-!
# Approaches that miss a switch

An approach ends as missed when it sees the end of its motion, and by then it has waited for a
motor that no earlier iteration saw on a switch. Whether a switch is really missing (`Missed`)
depends on what the engine does not ask at that point: which motors the last look at the switches
has left over, and where they stand once the end of the motion is acknowledged. A pull-off does
look once more. A machine that finds its last switch in the tick in which its move ends is
reported as one without that switch.
-/

namespace Homing

section

variable {σ : Type u} {α : Type v} [Machine σ α]

/-- The motor was looked for in vain: no iteration up to `i` saw it on a limit switch, and it does
not stand on one in the state `y` in which the phase has left the machine. -/
structure Missed (motors : MotorSet) (x : σ) (i : Nat) (y : σ) (id : Motor) : Prop where
  mem : id ∈ motors
  unseen : ∀ k ≤ i, id ∉ (Machine.limits (atTop x k)).active
  off : id ∉ (Machine.limits y).active

variable {motors : MotorSet} {x y : σ} {i : Nat} {id : Motor}

/-- A motor is missed when the last look has left it over and it is not on its switch either once
the end of the motion is acknowledged. -/
theorem missed_iff (hy : (Machine.limits y).active ∩ motors = stillOn motors x i) :
    Missed motors x i y id ↔ id ∈ leftAfter true motors x (i + 1) \ stillOn motors x i := by
  rw [MotorSet.mem_sdiff, mem_leftAfter, ← hy, MotorSet.mem_inter]
  constructor
  · rintro ⟨hmem, hunseen, hoff⟩
    exact ⟨⟨hmem, fun k hk => hunseen k (Nat.le_of_lt_succ hk)⟩, fun hon => hoff hon.1⟩
  · rintro ⟨⟨hmem, hunseen⟩, hoff⟩
    exact ⟨hmem, fun k hk => hunseen k (Nat.lt_succ_of_le hk), fun hon => hoff ⟨hon, hmem⟩⟩

variable [Scalar α] {m : MachineSettings α} {phase : Phase} {budget : Nat} {s t : Session σ α}

/-- Only an approach ends as missed, in the first iteration that stops it, which sees the end of
the motion and neither a reset nor an open door. A motor is then waited for that no earlier
iteration saw on a switch. A switch is really missing exactly when the motors that the last look
left over do not all stand on a switch once the end of the motion is acknowledged. -/
theorem missed_of_runPhase (h : runPhase budget m motors phase s = some (.error .approach, t)) :
    phase.isApproach = true ∧ ∃ mv x, mv.Carries m (planMove m motors phase) s.machine ∧
      x = Machine.after (starting (planMove m motors phase) mv) s.machine ∧
      ∃ i < budget, FirstStop true motors x i ∧ (seen (atTop x i)).reset = false ∧
        (seen (atTop x i)).safetyDoor = false ∧ (seen (atTop x i)).cycleStop = true ∧
        leftAfter true motors x i ≠ ∅ ∧
        ((∃ id, Missed motors x i t.machine id) ↔
          leftAfter true motors x (i + 1) \ stillOn motors x i ≠ ∅) := by
  obtain ⟨hmotors, hon⟩ := moves_of_runPhase_error h
  obtain ⟨mv, x, hcarries, hx, hcases⟩ := runPhase_cases (m := m) hmotors hon
  obtain ⟨hnone, -⟩ | ⟨i, hlt, hfirst, u, hrun, hmakes⟩ := hcases budget
  · rw [hnone] at h
    cases h
  rw [hrun] at h
  obtain ⟨hresult, rfl⟩ := Prod.mk.inj (Option.some.inj h)
  obtain ⟨happroach, hreset, hdoor, hstop⟩ := verdict_eq_approach hresult
  rw [happroach] at hfirst hresult hmakes
  have hend : (Machine.limits u.machine).active ∩ motors = stillOn motors x i := by
    rw [hmakes.machine, loopCalls, hresult, lastCalls, settling, List.append_nil,
      Machine.after_append, ← hx, Machine.after_append, after_earlierCalls, stillOn]
  refine ⟨happroach, mv, x, hcarries, hx, i, hlt, hfirst, hreset, hdoor, hstop,
    hfirst.leftAfter_ne_empty hmotors, ?_⟩
  simp only [missed_iff hend]
  constructor
  · rintro ⟨id, hid⟩ hnone
    rw [hnone] at hid
    exact MotorSet.not_mem_empty id hid
  · exact MotorSet.exists_mem_of_ne_empty

end

/-- A machine that finds the switch of one axis and comes to the end of its move before the
other. -/
def Scripted.endsBeforeSwitch : Scripted Float where
  script := { positive := [(1, .ofAxes (.single 0) .primary)], signals := [(2, .stop)] }
  refills := 0
  state := .homing
  pending := ∅
  steps := [0, 0]

theorem missed_endsBeforeSwitch :
    ∃ t, runPhase 1 twoCycles (.ofAxes (.first 2) .primary) .fastApproach
        (.begin Scripted.endsBeforeSwitch) = some (.error .approach, t) ∧
      ∃ id, Missed (.ofAxes (.first 2) .primary) { Scripted.endsBeforeSwitch with refills := 1 } 0
        t.machine id := by
  have hrun : (runPhase 1 twoCycles (.ofAxes (.first 2) .primary) .fastApproach
      (.begin Scripted.endsBeforeSwitch)).map (·.1) = some (.error .approach) := rfl
  obtain ⟨⟨r, t⟩, h, rfl⟩ := Option.map_eq_some_iff.1 hrun
  obtain ⟨-, mv, x, -, hx, i, hlt, -, -, -, -, -, hmissed⟩ := missed_of_runPhase h
  obtain rfl : i = 0 := by omega
  have hstart : x = { Scripted.endsBeforeSwitch with refills := 1 } := hx
  subst hstart
  exact ⟨t, h, hmissed.2 (by decide)⟩

/-- An axis whose fast approach takes one long tick and ends on the switch. -/
def oneTick : MachineSettings ℚ where
  logLevel := .info
  axes :=
    [{ name := "X", maxTravel := 100, stepsPerMm := 80,
       homing := some { HomingSettings.default with seekScaler := 1 / 2 },
       motors := [.default] }]

/-- The only motor comes onto its switch in the tick in which the move ends. -/
theorem not_missed_lastTick :
    Phase.fastApproach.isApproach = true ∧ MotorSet.ofAxes (.single 0) .primary ≠ ∅ ∧
      oneTick.validate = .ok () ∧
      ∃ t, runPhase 1 oneTick (.ofAxes (.single 0) .primary) .fastApproach
          (.begin ((Simulator.ofSettings oneTick).withTickMs 15000)) =
          some (.error .approach, t) ∧
        ∀ id ∈ MotorSet.ofAxes (.single 0) .primary, id ∈ (Machine.limits t.machine).active := by
  have hrun : (runPhase 1 oneTick (.ofAxes (.single 0) .primary) .fastApproach
      (.begin ((Simulator.ofSettings oneTick).withTickMs 15000))).map
        (fun e => (e.1, (Machine.limits e.2.machine).active)) =
      some (.error .approach, .ofAxes (.single 0) .primary) := by decide +kernel
  obtain ⟨⟨r, t⟩, h, hend⟩ := Option.map_eq_some_iff.1 hrun
  obtain ⟨rfl, hactive⟩ := Prod.mk.inj hend
  refine ⟨rfl, by decide, MachineSettings.validate_eq_ok_iff.2 (by decide +kernel), t, h, ?_⟩
  rw [hactive]
  exact fun id hid => hid

end Homing
