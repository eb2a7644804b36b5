import Homing.Proofs.Engine.Alarms
import Homing.Proofs.Engine.Tally
import Homing.Proofs.Simulator.Wildcard

/-!
# Which alarm a request raises

Every error of a request has an alarm of its own, or none: a failed cycle has that of its
failure, a motor at both its limits a hard limit, and the other two errors only name a state
that the machine is in. `alarms` reads off the calls of a run the alarms that they raise, and
they are those of the error and no others, however many cycles ended well before it.

What state this leaves depends on the machine. `ObeysAlarms` asks that raising an alarm
enters the alarm state and that nothing but setting the state leaves it; the simulator and
the scripted machines are of this kind. On such a machine a request that fails ends in the
alarm state, and one that succeeds ends idle.
-/

namespace Homing

/-- The alarm that a call raises. -/
def Call.raised? {α : Type v} : Call α → Option Alarm
  | raiseAlarm alarm => some alarm
  | _ => none

/-- The alarms that are raised, in order. -/
def alarms {α : Type v} (cs : List (Call α)) : List Alarm := cs.filterMap Call.raised?

/-- The alarm of an error. Without a cycle to run the alarm state is entered with no alarm, and
an error that met the alarm state has nothing to add to it. -/
def HomingError.alarm? : HomingError → Option Alarm
  | failed f => some f.alarm
  | ambiguousLimit => some .hardLimit
  | noCycles | alarmActive => none

/-- The alarm of a result. -/
def alarmOf : Except HomingError Unit → Option Alarm
  | .ok () => none
  | .error e => e.alarm?

variable {σ : Type u} {α : Type v}

section

variable {cs ds : List (Call α)} {motors : MotorSet}

@[simp] theorem alarms_append : alarms (cs ++ ds) = alarms cs ++ alarms ds := List.filterMap_append

theorem alarms_of_inPhase (h : ∀ c ∈ cs, c.InPhase motors) : alarms cs = [] := by
  refine List.filterMap_eq_nil_iff.2 fun c hc => ?_
  cases h c hc with
  | loop hloop => cases hloop <;> rfl
  | _ => rfl

theorem alarms_closing [Scalar α] (m : MachineSettings α) (axes : AxisSet)
    (r : Except Failure Unit) :
    alarms (closing m axes r) = (alarmOf (r.mapError .failed)).toList := by
  cases r with
  | error f => rfl
  | ok v =>
      rw [closing, alarms_append, alarms, filterMap_committing m axes fun _ _ => rfl]
      rfl

end

variable [Machine σ α]

/-- From the machine `x` on, raising an alarm enters the alarm state, and nothing but setting
the state leaves it. -/
structure ObeysAlarms (x : σ) : Prop extends LatchesAlarm x where
  raise : ∀ (cs : List (Call α)) (alarm : Alarm),
    Machine.state (Machine.after (cs ++ [.raiseAlarm alarm]) x) = .alarm

theorem ObeysAlarms.after {x : σ} (hx : ObeysAlarms x) (cs : List (Call α)) :
    ObeysAlarms (Machine.after cs x) where
  toLatchesAlarm := hx.toLatchesAlarm.after cs
  raise ds alarm := by
    rw [← Machine.after_append, ← List.append_assoc]
    exact hx.raise _ alarm

variable [Scalar α] {m : MachineSettings α} {axes : AxisSet} {x : σ} {r : Except Failure Unit}
  {e : Except HomingError Unit} {cs : List (Call α)}

/-! ## The alarms of a run -/

theorem CycleRun.alarms_eq (h : CycleRun m axes x r cs) :
    alarms cs = (alarmOf (r.mapError .failed)).toList := by
  cases h with
  | intro hphases =>
      rw [alarms_append, alarms_append, alarms_of_inPhase (inPhase_of_phasesRun hphases),
        alarms_closing]
      rfl

/-- The cycles before the last one raise nothing. -/
theorem NumberedRun.alarms_eq {ks : List Nat} (h : NumberedRun m ks x r cs) :
    alarms cs = (alarmOf (r.mapError .failed)).toList := by
  induction h with
  | nil => rfl
  | cons _ hcycle _ ih => rw [alarms_append, hcycle.alarms_eq, ih]; rfl
  | fail _ hcycle => exact hcycle.alarms_eq

theorem RequestRun.alarms_eq {request : Request} (h : RequestRun m request x e cs) :
    alarms cs = (alarmOf e).toList := by
  cases h with
  | ambiguous _ => rfl
  | nothing _ _ => rfl
  | cycle _ _ hcycle => exact hcycle.alarms_eq
  | wildcard _ _ hrun hend =>
      rw [alarms_append, hrun.alarms_eq]
      cases hend <;> rfl

/-! ## The state after a run -/

/-- The calls after the alarm of a failed cycle do not set the state. -/
theorem CycleRun.state_of_error {f : Failure} (hx : ObeysAlarms x)
    (h : CycleRun m axes x (.error f) cs) : Machine.state (Machine.after cs x) = .alarm := by
  generalize hr : Except.error f = r at h
  cases h with
  | @intro moves _ =>
      subst hr
      have hraised := hx.raise ([.enterHoming axes] ++ moves) f.alarm
      have hset : ∀ state, .setState state ∉
          [.exitHoming axes false, .resetMotion, (.dispatch : Call α)] := by simp
      have hkept := (hx.toLatchesAlarm.after _).state_after hraised hset
      rw [← Machine.after_append, List.append_assoc] at hkept
      exact hkept

theorem NumberedRun.state_of_error {ks : List Nat} {f : Failure} (hx : ObeysAlarms x)
    (h : NumberedRun m ks x (.error f) cs) : Machine.state (Machine.after cs x) = .alarm := by
  obtain ⟨_, _, ds, es, -, rfl, -, hfailed⟩ := h.exists_failed
  rw [Machine.after_append]
  exact hfailed.state_of_error (hx.after ds)

theorem RequestRun.state_of_error {request : Request} (hx : ObeysAlarms x)
    (h : RequestRun m request x e cs) (he : e ≠ .ok ()) :
    Machine.state (Machine.after cs x) = .alarm := by
  cases h with
  | ambiguous _ => exact hx.raise [] .hardLimit
  | nothing _ _ => exact absurd rfl he
  | @cycle _ _ r _ _ _ hcycle =>
      cases r with
      | error f => exact hcycle.state_of_error hx
      | ok v => exact absurd rfl he
  | wildcard _ _ hrun hend =>
      cases hend with
      | failed f =>
          rw [List.append_nil]
          exact hrun.state_of_error hx
      | alarm hstate =>
          rw [List.append_nil]
          exact hstate
      | none _ _ => exact hx.set _ .alarm
      | homed _ _ => exact absurd rfl he

/-! ## Homing as a whole -/

/-- The result of a request, the alarms that it raised and the state that it left fit
together. -/
structure Answers (e : Except HomingError Unit) (t : Session σ α) : Prop where
  alarms : alarms t.calls = (alarmOf e).toList
  idle : e = .ok () → Machine.state t.machine = .idle
  alarm : e ≠ .ok () → Machine.state t.machine = .alarm

variable {budget : Nat} {request : Request} {t : Session σ α}

theorem answers_of_home (hx : ObeysAlarms x) (h : home budget m request x = some (e, t)) :
    Answers e t := by
  obtain ⟨cs, hrun, hmakes⟩ := requestRun_of_home h
  refine ⟨?_, ?_, fun he => ?_⟩
  · have hnone : alarms (concluding e : List (Call α)) = [] := by cases e <;> rfl
    have hcalls : t.calls = [.setState .homing] ++ cs ++ concluding e := hmakes.calls
    rw [hcalls, alarms_append, alarms_append, hrun.alarms_eq, hnone, List.append_nil]
    rfl
  · rintro rfl
    rw [hmakes.machine]
    exact hx.set ([.setState .homing] ++ cs) .idle
  · have hnone : (concluding e : List (Call α)) = [] := by
      cases e with
      | error f => rfl
      | ok v => exact absurd rfl he
    rw [hmakes.machine, hnone, List.append_nil, Machine.after_append]
    exact hrun.state_of_error (hx.after [.setState .homing]) he

omit [Scalar α] in
theorem Scripted.obeysAlarms (y : Scripted α) : ObeysAlarms y where
  toLatchesAlarm := latchesAlarm y
  raise cs alarm := by
    rw [Machine.after_append]
    rfl

namespace Simulator

theorem obeysAlarms (y : Simulator α) : ObeysAlarms y where
  set cs state := by
    rw [Machine.after_append]
    rfl
  latch cs c hc halarm := by
    rw [Machine.after_append]
    by_cases hraise : ∀ alarm, c ≠ .raiseAlarm alarm
    · exact (state_apply hc hraise _).trans halarm
    · push Not at hraise
      obtain ⟨alarm, rfl⟩ := hraise
      rfl
  raise cs alarm := by
    rw [Machine.after_append]
    rfl

theorem alarm_apply (c : Call α) (y : Simulator α) :
    (apply c y).1.alarm = c.raised?.or y.alarm := by
  cases c with
  | refill =>
      obtain ⟨_, _, _, _, h⟩ := refill_frame y
      rw [h]
      rfl
  | _ => rfl

/-- A simulator keeps the alarm that was raised last. -/
theorem alarm_after (cs : List (Call α)) (y : Simulator α) :
    (Machine.after cs y).alarm = (alarms cs).getLast?.or y.alarm := by
  induction cs generalizing y with
  | nil => rfl
  | cons c cs ih =>
      have hcall : (Machine.apply c y).1.alarm = c.raised?.or y.alarm := alarm_apply c y
      rw [Machine.after_cons, ih, hcall, alarms, alarms, List.filterMap_cons]
      cases c.raised? with
      | none => rfl
      | some alarm =>
          rw [List.getLast?_cons]
          cases (cs.filterMap Call.raised?).getLast? <;> rfl

/-- A request raises the alarm of its error, once, and no other, and whether it ends idle or in
the alarm state goes by its result: on a simulator, which then keeps that alarm, on a scripted
machine, and on every machine that obeys its alarms. -/
theorem alarms_of_home {σ : Type v} [Machine σ α] (budget : Nat) (m : MachineSettings α)
    (request : Request) :
    (∀ (x : Simulator α) e t, home budget m request x = some (e, t) →
      Answers e t ∧ t.machine.alarm = (alarmOf e).or x.alarm) ∧
    (∀ (x : Scripted α) e t, home budget m request x = some (e, t) → Answers e t) ∧
    ∀ (x : σ) e t, ObeysAlarms x → home budget m request x = some (e, t) → Answers e t := by
  refine ⟨fun x e t h => ?_, fun x e t => answers_of_home x.obeysAlarms,
    fun x e t => answers_of_home⟩
  have hanswers := answers_of_home x.obeysAlarms h
  refine ⟨hanswers, ?_⟩
  obtain ⟨cs, -, hmakes⟩ := requestRun_of_home h
  have hmachine : t.machine = Machine.after t.calls x := by
    rw [hmakes.calls]
    exact hmakes.machine
  rw [hmachine, alarm_after, hanswers.alarms]
  cases alarmOf e <;> rfl

/-- A cycle that fails after one that ended well, and a request that meets the alarm state. -/
theorem alarms_of_home_gantry :
    (∃ t, home 20 gantry .all (skewedGantry.withSignalAt 6 { safetyDoor := true }) =
        some (.error (.failed .door), t) ∧ Answers (.error (.failed .door)) t ∧
      t.machine.alarm = some .homingFailDoor) ∧
    ObeysAlarms Scripted.alarmOnExit ∧
    ∃ t, home 2 twoCycles .all Scripted.alarmOnExit = some (.error .alarmActive, t) ∧
      Answers (.error .alarmActive) t := by
  have hdoor : (home 20 gantry .all (skewedGantry.withSignalAt 6 { safetyDoor := true })).map
      (·.1) = some (.error (.failed .door)) := by decide +kernel
  have hactive : (home 2 twoCycles .all Scripted.alarmOnExit).map (·.1) =
      some (.error .alarmActive) := rfl
  obtain ⟨⟨e, t⟩, ht, rfl⟩ := Option.map_eq_some_iff.1 hdoor
  obtain ⟨⟨e, u⟩, hu, rfl⟩ := Option.map_eq_some_iff.1 hactive
  obtain ⟨hanswers, halarm⟩ :=
    (alarms_of_home (σ := Simulator ℚ) 20 gantry .all).1 _ _ _ ht
  have hobeys := Scripted.obeysAlarms Scripted.alarmOnExit
  exact ⟨⟨t, ht, hanswers, halarm⟩, hobeys, u, hu,
    (alarms_of_home 2 twoCycles .all).2.2 _ _ _ hobeys hu⟩

end Simulator

end Homing
