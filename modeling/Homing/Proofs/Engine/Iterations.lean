import Homing.Proofs.Engine.Alike
import Homing.Proofs.Engine.Blocks

/-!
# The iterations of a loop

The calls of an iteration after which the loop of a phase goes on depend on its signals alone.
So the machine at the top of every iteration (`atTop`) and the motors that are still waited for
(`leftAfter`) are known in advance, whether or not the loop gets there. The loop ends in the
first iteration that stops it (`FirstStop`), and the signals of that one iteration decide how
(`verdict`): earlier ones were all quiet but for requests for a status report, which each
iteration serves at its front.
-/

namespace Homing

variable {σ : Type u} {α : Type v} [Machine σ α]

/-- The calls of an iteration after which the loop goes on. -/
def goingCalls (x : σ) : List (Call α) := service (seen x).statusReport ++ [.poll]

/-- The machine at the top of iteration `i`, counted from 0, of a loop that begins with `x`. -/
def atTop (x : σ) : Nat → σ
  | 0 => x
  | i + 1 => Machine.after (goingCalls (atTop x i)) (atTop x i)

/-- The calls of the iterations before `i`. -/
def earlierCalls (x : σ) (i : Nat) : List (Call α) :=
  (List.range i).flatMap fun k => goingCalls (atTop x k)

/-- The motors that the iterations before `i` saw on a limit switch. -/
def shownBefore (x : σ) : Nat → MotorSet
  | 0 => ∅
  | i + 1 => shownBefore x i ∪ (Machine.limits (atTop x i)).active

/-- The motors that are waited for once `i` iterations have looked at the switches. A pull-off
waits for all its motors. -/
def leftAfter (approach : Bool) (motors : MotorSet) (x : σ) (i : Nat) : MotorSet :=
  if approach then motors \ shownBefore x i else motors

/-- The motors that stand on a limit switch once iteration `i` has acknowledged the end of the
motion. -/
def stillOn (motors : MotorSet) (x : σ) (i : Nat) : MotorSet :=
  (Machine.limits (Machine.after (service (seen (atTop x i)).statusReport ++ [.acknowledge .stop])
    (atTop x i))).active ∩ motors

/-- Iteration `i` stops the loop: it sees a reset, an open door or the end of the motion, or no
motor is left. -/
def StopsAt (approach : Bool) (motors : MotorSet) (x : σ) (i : Nat) : Prop :=
  (seen (atTop x i)).reset = true ∨ (seen (atTop x i)).safetyDoor = true ∨
    (seen (atTop x i)).cycleStop = true ∨ leftAfter approach motors x (i + 1) = ∅

/-- Iteration `i` stops the loop, and none before it does. -/
structure FirstStop (approach : Bool) (motors : MotorSet) (x : σ) (i : Nat) : Prop where
  stops : StopsAt approach motors x i
  before : ∀ k < i, ¬ StopsAt approach motors x k

/-- How a loop ends that sees the signals `p` in its last iteration, where `on` are the motors
on a switch once the end of the motion is acknowledged. -/
def verdict (approach : Bool) (p : Signals) (on : MotorSet) : Except Failure Unit :=
  if p.reset then .error .reset
  else if p.safetyDoor then .error .door
  else if p.cycleStop then
    if approach then .error .approach else if on = ∅ then .ok () else .error .pulloff
  else .ok ()

/-- The result of a loop that ends in iteration `i`. -/
def resultAt (approach : Bool) (motors : MotorSet) (x : σ) (i : Nat) : Except Failure Unit :=
  verdict approach (seen (atTop x i)) (stillOn motors x i)

/-- The calls of the last iteration of a loop that ends with `r`. -/
def lastCalls (p : Signals) (r : Except Failure Unit) : List (Call α) :=
  service p.statusReport ++ match r with
    | .error .reset | .error .door => []
    | .error .approach | .error .pulloff => [.acknowledge .stop]
    | .ok () => if p.cycleStop then [.acknowledge .stop, .poll] else [.poll]

/-- The calls of a loop that ends in iteration `i`. -/
def loopCalls (approach : Bool) (motors : MotorSet) (x : σ) (i : Nat) : List (Call α) :=
  earlierCalls x i ++ lastCalls (seen (atTop x i)) (resultAt approach motors x i)

theorem earlierCalls_succ (x : σ) (i : Nat) :
    earlierCalls x (i + 1) = earlierCalls x i ++ goingCalls (atTop x i) := by
  rw [earlierCalls, List.range_succ, List.flatMap_append, List.flatMap_singleton, ← earlierCalls]

theorem after_earlierCalls (x : σ) (i : Nat) : Machine.after (earlierCalls x i) x = atTop x i := by
  induction i with
  | zero => rfl
  | succ i ih => rw [earlierCalls_succ, Machine.after_append, ih, atTop]

theorem mem_shownBefore {x : σ} {i : Nat} {id : Motor} :
    id ∈ shownBefore x i ↔ ∃ k < i, id ∈ (Machine.limits (atTop x k)).active := by
  induction i with
  | zero => simp [shownBefore]
  | succ i ih =>
      rw [shownBefore, MotorSet.mem_union, ih]
      constructor
      · rintro (⟨k, hk, hid⟩ | hid)
        · exact ⟨k, by omega, hid⟩
        · exact ⟨i, by omega, hid⟩
      · rintro ⟨k, hk, hid⟩
        rcases Nat.lt_succ_iff_lt_or_eq.1 hk with hk | rfl
        · exact .inl ⟨k, hk, hid⟩
        · exact .inr hid

theorem verdict_eq_approach {approach : Bool} {p : Signals} {on : MotorSet}
    (h : verdict approach p on = .error .approach) :
    approach = true ∧ p.reset = false ∧ p.safetyDoor = false ∧ p.cycleStop = true := by
  unfold verdict at h
  split at h
  · cases h
  rename_i hreset
  split at h
  · cases h
  rename_i hdoor
  split at h
  · rename_i hstop
    split at h
    · rename_i happroach
      exact ⟨happroach, Bool.eq_false_iff.2 hreset, Bool.eq_false_iff.2 hdoor, hstop⟩
    · split at h <;> cases h
  · cases h

/-! ## One iteration -/

section

variable {approach : Bool} {motors : MotorSet} {x : σ} {i : Nat}

@[simp] theorem leftAfter_zero : leftAfter approach motors x 0 = motors := by
  unfold leftAfter
  split
  · ext id
    simp [shownBefore]
  · rfl

theorem mem_leftAfter {id : Motor} : id ∈ leftAfter true motors x i ↔
    id ∈ motors ∧ ∀ k < i, id ∉ (Machine.limits (atTop x k)).active := by
  rw [leftAfter, if_pos rfl, MotorSet.mem_sdiff, mem_shownBefore]
  simp only [not_exists, not_and]

/-- Each iteration strikes out what it sees. -/
theorem awaited_leftAfter : awaited approach (leftAfter approach motors x i) (atTop x i) =
    leftAfter approach motors x (i + 1) := by
  unfold awaited leftAfter
  cases approach with
  | false => rfl
  | true =>
      ext id
      simp only [if_true, MotorSet.mem_sdiff, shownBefore, MotorSet.mem_union, not_or, and_assoc]

/-- A loop with a motor to wait for still waits for one when its last iteration begins. -/
theorem FirstStop.leftAfter_ne_empty (h : FirstStop approach motors x i)
    (hmotors : motors ≠ ∅) : leftAfter approach motors x i ≠ ∅ := by
  cases i with
  | zero => rwa [leftAfter_zero]
  | succ i => exact fun hnone => h.before i (Nat.lt_succ_self i) (.inr (.inr (.inr hnone)))

theorem turnGoes_of_not_stopsAt (h : ¬ StopsAt approach motors x i) :
    TurnGoes approach (leftAfter approach motors x i) (atTop x i)
      (leftAfter approach motors x (i + 1)) (goingCalls (atTop x i)) := by
  simp only [StopsAt, not_or, Bool.not_eq_true] at h
  obtain ⟨hreset, hdoor, hstop, hleft⟩ := h
  exact ⟨awaited_leftAfter.symm, hleft, ⟨hreset, hdoor, hstop⟩, rfl⟩

theorem turnEnds_of_stopsAt (h : StopsAt approach motors x i) :
    TurnEnds approach (leftAfter approach motors x i) (atTop x i)
      (resultAt approach motors x i)
      (lastCalls (seen (atTop x i)) (resultAt approach motors x i)) := by
  unfold StopsAt at h
  rw [resultAt]
  by_cases hreset : (seen (atTop x i)).reset = true
  · rw [verdict, if_pos hreset, lastCalls, List.append_nil]
    exact .reset hreset
  rw [verdict, if_neg hreset]
  rw [Bool.not_eq_true] at hreset
  by_cases hdoor : (seen (atTop x i)).safetyDoor = true
  · rw [if_pos hdoor, lastCalls, List.append_nil]
    exact .door hreset hdoor
  rw [if_neg hdoor]
  rw [Bool.not_eq_true] at hdoor
  by_cases hstop : (seen (atTop x i)).cycleStop = true
  · rw [if_pos hstop]
    cases happroach : approach with
    | true => exact .missed hreset hdoor hstop rfl
    | false =>
        by_cases hoff : stillOn motors x i = ∅
        · rw [if_neg Bool.false_ne_true, if_pos hoff, lastCalls]
          rw [if_pos hstop, ← List.singleton_append, ← List.append_assoc]
          exact .cleared hreset hdoor hstop rfl hoff
        · rw [if_neg Bool.false_ne_true, if_neg hoff]
          exact .held hreset hdoor hstop rfl hoff
  · rw [if_neg hstop, lastCalls, if_neg hstop]
    rw [Bool.not_eq_true] at hstop
    simp only [hreset, hdoor, hstop, Bool.false_eq_true, false_or] at h
    exact .found ⟨hreset, hdoor, hstop⟩ (awaited_leftAfter.trans h)

end

/-! ## The loop -/

section

variable {motors : MotorSet} {s : Session σ α}

/-- As long as no iteration stops it, a loop is at the top of the next one. -/
theorem turns_add {d : Nat} (n : Nat)
    (h : ∀ k < d, ¬ StopsAt s.approaching motors s.machine k) :
    ∃ u, turns (d + n) motors s = turns n (leftAfter s.approaching motors s.machine d) u ∧
      s.Makes (earlierCalls s.machine d) u ∧ u.approaching = s.approaching := by
  induction d generalizing n with
  | zero => exact ⟨s, by rw [Nat.zero_add, leftAfter_zero], .refl s, rfl⟩
  | succ d ih =>
      obtain ⟨u, hturns, hmakes, happ⟩ := ih (n + 1) fun k hk => h k (by omega)
      have hu : u.machine = atTop s.machine d := by rw [hmakes.machine, after_earlierCalls]
      have hgoes := turnGoes_of_not_stopsAt (h d (by omega))
      rw [← hu, ← happ] at hgoes
      obtain ⟨v, hturn, hmakes', happ'⟩ := turn_of_goes hgoes
      rw [hu] at hmakes'
      refine ⟨v, ?_, ?_, happ'.trans happ⟩
      · rw [Nat.add_right_comm, Nat.add_assoc, hturns, turns, ← happ, hturn]
      · rw [earlierCalls_succ]
        exact hmakes.trans hmakes'

/-- A loop ends in the first iteration that stops it. -/
theorem turns_of_firstStop {n i : Nat} (h : FirstStop s.approaching motors s.machine i)
    (hlt : i < n) :
    ∃ t, turns n motors s = some (resultAt s.approaching motors s.machine i, t) ∧
      s.Makes (loopCalls s.approaching motors s.machine i) t := by
  obtain ⟨k, rfl⟩ : ∃ k, n = i + (k + 1) := ⟨n - i - 1, by omega⟩
  obtain ⟨u, hturns, hmakes, happ⟩ := turns_add (k + 1) h.before
  have hu : u.machine = atTop s.machine i := by rw [hmakes.machine, after_earlierCalls]
  have hends := turnEnds_of_stopsAt h.stops
  rw [← hu, ← happ] at hends
  obtain ⟨t, hturn, hmakes'⟩ := turn_of_ends hends
  rw [hu] at hmakes'
  refine ⟨t, ?_, ?_⟩
  · rw [hturns, turns, ← happ, hturn]
  · rw [loopCalls, ← happ]
    exact hmakes.trans hmakes'

/-- A loop that no iteration stops does not end. -/
theorem turns_eq_none {n : Nat} (h : ∀ k < n, ¬ StopsAt s.approaching motors s.machine k) :
    turns n motors s = none := by
  obtain ⟨u, hturns, -, -⟩ := turns_add 0 h
  rw [← Nat.add_zero n, hturns, turns]

end

theorem StopsAt.exists_firstStop {approach : Bool} {motors : MotorSet} {x : σ} {i : Nat}
    (h : StopsAt approach motors x i) : ∃ k ≤ i, FirstStop approach motors x k := by
  induction i using Nat.strongRecOn with
  | _ i ih =>
      by_cases hbefore : ∃ k < i, StopsAt approach motors x k
      · obtain ⟨k, hk, hstops⟩ := hbefore
        obtain ⟨j, hj, hfirst⟩ := ih k hk hstops
        exact ⟨j, by omega, hfirst⟩
      · exact ⟨i, Nat.le_refl i, h, fun k hk hstops => hbefore ⟨k, hk, hstops⟩⟩

/-- With `n` turns a loop ends exactly when one of the first `n` iterations stops it. -/
theorem turns_cases (n : Nat) (motors : MotorSet) (s : Session σ α) :
    (turns n motors s = none ∧ ∀ k < n, ¬ StopsAt s.approaching motors s.machine k) ∨
    ∃ i < n, FirstStop s.approaching motors s.machine i ∧
      ∃ t, turns n motors s = some (resultAt s.approaching motors s.machine i, t) ∧
        s.Makes (loopCalls s.approaching motors s.machine i) t := by
  by_cases h : ∃ k < n, StopsAt s.approaching motors s.machine k
  · obtain ⟨k, hk, hstops⟩ := h
    obtain ⟨i, hi, hfirst⟩ := hstops.exists_firstStop
    have hlt : i < n := by omega
    exact .inr ⟨i, hlt, hfirst, turns_of_firstStop hfirst hlt⟩
  · have hnone : ∀ k < n, ¬ StopsAt s.approaching motors s.machine k :=
      fun k hk hstops => h ⟨k, hk, hstops⟩
    exact .inl ⟨turns_eq_none hnone, hnone⟩

/-! ## The phase -/

section

variable [Scalar α] {m : MachineSettings α} {motors : MotorSet} {phase : Phase} {s : Session σ α}

/-- A phase that fails was not left out. -/
theorem moves_of_runPhase_error {budget : Nat} {f : Failure} {t : Session σ α}
    (h : runPhase budget m motors phase s = some (.error f, t)) :
    motors ≠ ∅ ∧ (phase = .prePulloff → (Machine.limits s.machine).active ∩ motors ≠ ∅) := by
  have hmoves : ¬ (motors = ∅ ∨
      phase = .prePulloff ∧ (Machine.limits s.machine).active ∩ motors = ∅) := by
    intro hnone
    obtain ⟨u, hrun, -⟩ := runPhase_of_none budget m phase s hnone
    rw [hrun] at h
    cases h
  rw [not_or, not_and] at hmoves
  exact hmoves

/-- A phase with a motor runs its loop unless it is a pull-off that comes first and is left out:
it ends in the first iteration that stops the loop, and it does not end when there is none. -/
theorem runPhase_cases (hmotors : motors ≠ ∅)
    (hon : phase = .prePulloff → (Machine.limits s.machine).active ∩ motors ≠ ∅) :
    ∃ mv x, mv.Carries m (planMove m motors phase) s.machine ∧
      x = Machine.after (starting (planMove m motors phase) mv) s.machine ∧
      ∀ n, (runPhase n m motors phase s = none ∧
          ∀ k < n, ¬ StopsAt phase.isApproach motors x k) ∨
        ∃ i < n, FirstStop phase.isApproach motors x i ∧
          ∃ t, runPhase n m motors phase s = some (resultAt phase.isApproach motors x i, t) ∧
            s.Makes (starting (planMove m motors phase) mv ++
              loopCalls phase.isApproach motors x i ++ settling (planMove m motors phase).settle
                (resultAt phase.isApproach motors x i)) t := by
  obtain ⟨mv, hcarries, hbegin, happ⟩ := Session.beginPhase_spec m motors phase s
  refine ⟨mv, _, hcarries, rfl, fun n => ?_⟩
  rw [runPhase_eq_map hmotors hon, ← hbegin.machine, ← happ]
  rcases turns_cases n motors (s.beginPhase m motors phase) with ⟨hnone, hnever⟩ |
    ⟨i, hlt, hfirst, u, hturns, hloop⟩
  · exact .inl ⟨by rw [hnone]; rfl, hnever⟩
  · refine .inr ⟨i, hlt, hfirst, _, by rw [hturns]; rfl, ?_⟩
    exact (hbegin.trans hloop).trans (u.settle_makes phase _ _)

/-- A phase that moves ends in the first iteration of its loop that sees a reset, an open door or
the end of the motion or that has no motor left, and it ends only if there is such an iteration.
The signals of that iteration decide the result. Every iteration up to it serves a request for a
status report once, at its front, and no other signal is acknowledged than the end of a motion. -/
theorem firstStop_of_runPhase (hmotors : motors ≠ ∅)
    (hon : phase = .prePulloff → (Machine.limits s.machine).active ∩ motors ≠ ∅) :
    ∃ mv x, mv.Carries m (planMove m motors phase) s.machine ∧
      x = Machine.after (starting (planMove m motors phase) mv) s.machine ∧
      (∀ budget, (runPhase budget m motors phase s).isSome = true ↔
        ∃ i < budget, StopsAt phase.isApproach motors x i) ∧
      ∀ budget r t, runPhase budget m motors phase s = some (r, t) →
        ∃ i < budget, FirstStop phase.isApproach motors x i ∧
          r = resultAt phase.isApproach motors x i ∧
          ∃ cs, cs = starting (planMove m motors phase) mv ++
              loopCalls phase.isApproach motors x i ++
              settling (planMove m motors phase).settle r ∧
            s.Makes cs t ∧
            ∀ signals, .acknowledge signals ∈ cs → signals = .status ∨ signals = .stop := by
  obtain ⟨mv, x, hcarries, hx, hcases⟩ := runPhase_cases (m := m) hmotors hon
  refine ⟨mv, x, hcarries, hx, fun budget => ?_, fun budget r t h => ?_⟩
  · obtain ⟨hnone, hnever⟩ | ⟨i, hlt, hfirst, t, hrun, -⟩ := hcases budget
    · rw [hnone]
      exact ⟨nofun, fun ⟨k, hk, hstops⟩ => absurd hstops (hnever k hk)⟩
    · rw [hrun]
      exact ⟨fun _ => ⟨i, hlt, hfirst.stops⟩, fun _ => rfl⟩
  · obtain ⟨hnone, -⟩ | ⟨i, hlt, hfirst, t', hrun, hmakes⟩ := hcases budget
    · rw [hnone] at h
      cases h
    · rw [hrun] at h
      obtain ⟨rfl, rfl⟩ := Prod.mk.inj (Option.some.inj h)
      obtain ⟨cs, hphase, hmakes'⟩ := phaseRun_of_runPhase hrun
      obtain rfl := hmakes.calls_unique hmakes'
      refine ⟨i, hlt, hfirst, rfl, _, rfl, hmakes, fun signals hmem => ?_⟩
      cases inPhase_of_phaseRun hphase _ hmem with
      | loop hloop =>
          cases hloop with
          | status => exact .inl rfl
          | stop => exact .inr rfl

end

/-- A machine that finds one switch after the other, and is asked for a report in both iterations
and reset in the second one. -/
def Scripted.resetAtLastSwitch : Scripted Float where
  script :=
    { positive := [(1, .ofAxes (.single 0) .primary), (2, .ofAxes (.first 2) .primary)]
      signals := [(2, .status), (3, { statusReport := true, reset := true, cycleStop := true })] }
  refills := 0
  state := .homing
  pending := ∅
  steps := [0, 0]

/-- The second iteration stops the loop for three reasons, of which the reset counts. -/
theorem firstStop_resetAtLastSwitch :
    MotorSet.ofAxes (.first 2) .primary ≠ ∅ ∧
      ∃ t, runPhase 2 twoCycles (.ofAxes (.first 2) .primary) .fastApproach
          (.begin Scripted.resetAtLastSwitch) = some (.error .reset, t) ∧
        ∃ x : Scripted Float, FirstStop true (.ofAxes (.first 2) .primary) x 1 ∧
          resultAt true (.ofAxes (.first 2) .primary) x 1 = .error .reset := by
  have hmotors : MotorSet.ofAxes (.first 2) .primary ≠ ∅ := by decide
  have hrun : (runPhase 2 twoCycles (.ofAxes (.first 2) .primary) .fastApproach
      (.begin Scripted.resetAtLastSwitch)).map (·.1) = some (.error .reset) := rfl
  obtain ⟨⟨r, t⟩, h, rfl⟩ := Option.map_eq_some_iff.1 hrun
  obtain ⟨mv, x, -, hx, hends, hall⟩ :=
    @firstStop_of_runPhase _ _ _ _ twoCycles _ .fastApproach (.begin Scripted.resetAtLastSwitch)
      hmotors nofun
  obtain ⟨i, hlt, hfirst, hresult, -⟩ := hall 2 _ t h
  have hone : (runPhase 1 twoCycles (.ofAxes (.first 2) .primary) .fastApproach
      (.begin Scripted.resetAtLastSwitch)).isSome = false := rfl
  obtain rfl : i = 1 := by
    rcases Nat.eq_zero_or_pos i with rfl | hpos
    · have hsome := (hends 1).2 ⟨0, by decide, hfirst.stops⟩
      rw [hone] at hsome
      cases hsome
    · omega
  exact ⟨hmotors, t, h, x, hfirst, hresult.symm⟩

end Homing
