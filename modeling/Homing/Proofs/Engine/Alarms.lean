import Homing.Proofs.Engine.Blocks
import Mathlib.Data.List.Induction

/-!
# Where an alarm falls

A machine that latches its alarm stays in the alarm state until its state is set. The
engine looks at the state before each numbered cycle and nowhere else, so no cycle begins
after an alarm, whatever raised it, and every way of ending but the good one leaves the
alarm in place. Only where the alarm falls into a cycle that ends well and after which the
engine does not look again, which is the cycle of an explicit request and the one with the
largest number, `home` takes the request for a success and sets the state to idle.
-/

namespace Homing

variable {σ : Type u} {α : Type v} [Machine σ α]

/-- From the machine `x` on, the global state is what it is set to, and the alarm state is
left by setting the state alone. -/
structure LatchesAlarm (x : σ) : Prop where
  set : ∀ (cs : List (Call α)) (state : MachineState),
    Machine.state (Machine.after (cs ++ [.setState state]) x) = state
  latch : ∀ (cs : List (Call α)) (c : Call α), (∀ state, c ≠ .setState state) →
    Machine.state (Machine.after cs x) = .alarm →
    Machine.state (Machine.after (cs ++ [c]) x) = .alarm

namespace LatchesAlarm

variable {x : σ}

theorem after (hx : LatchesAlarm x) (cs : List (Call α)) : LatchesAlarm (Machine.after cs x) := by
  constructor
  · intro ds state
    rw [← Machine.after_append, ← List.append_assoc]
    exact hx.set _ state
  · intro ds c hc halarm
    rw [← Machine.after_append] at halarm
    rw [← Machine.after_append, ← List.append_assoc]
    exact hx.latch _ c hc halarm

theorem state_after (hx : LatchesAlarm x) (halarm : Machine.state x = .alarm) {cs : List (Call α)}
    (hnot : ∀ state, .setState state ∉ cs) : Machine.state (Machine.after cs x) = .alarm := by
  induction cs using List.reverseRecOn with
  | nil => exact halarm
  | append_singleton cs c ih =>
      refine hx.latch cs c (fun state hc => hnot state ?_) (ih fun state hmem => hnot state ?_)
      · exact List.mem_append_right _ (by rw [hc]; exact List.mem_cons_self)
      · exact List.mem_append_left _ hmem

end LatchesAlarm

/-- The alarm state is entered by one of the calls that lead to it. -/
theorem exists_alarm_call {x : σ} {cs : List (Call α)} (hbefore : Machine.state x ≠ .alarm)
    (hafter : Machine.state (Machine.after cs x) = .alarm) :
    ∃ p c rest, cs = p ++ c :: rest ∧ Machine.state (Machine.after p x) ≠ .alarm ∧
      Machine.state (Machine.after (p ++ [c]) x) = .alarm := by
  induction cs generalizing x with
  | nil => exact absurd hafter hbefore
  | cons c cs ih =>
      by_cases hc : Machine.state (Machine.after [c] x) = .alarm
      · exact ⟨[], c, cs, rfl, hbefore, hc⟩
      · obtain ⟨p, d, rest, rfl, hp, hd⟩ := ih hc hafter
        exact ⟨c :: p, d, rest, rfl, hp, hd⟩

section

variable {β : Type v} {front back p rest : List β} {c d : β}

/-- A list that is put together of two is cut behind the first part or within it. -/
theorem cut_append (h : p ++ c :: rest = front ++ back) :
    (∃ q, p = front ++ q ∧ back = q ++ c :: rest) ∨
      ∃ q, front = p ++ c :: q ∧ rest = q ++ back := by
  obtain ⟨q, hfront, hcut⟩ | hbehind := List.append_eq_append_iff.1 h
  · cases q with
    | nil =>
        rw [List.append_nil] at hfront
        exact .inl ⟨[], by rw [hfront, List.append_nil], hcut.symm⟩
    | cons d q =>
        obtain ⟨rfl, hrest⟩ := List.cons.inj hcut
        exact .inr ⟨q, hfront, hrest⟩
  · exact .inl hbehind

/-- What a list that is cut in two begins with is not behind the cut. -/
theorem mem_of_cons_eq_append (h : d :: front = p ++ c :: rest) :
    d ∈ p ++ [c] ∧ ∀ b ∈ rest, b ∈ front := by
  cases p with
  | nil =>
      obtain ⟨rfl, rfl⟩ := List.cons.inj h
      exact ⟨List.mem_cons_self, fun b hb => hb⟩
  | cons a p =>
      obtain ⟨rfl, rfl⟩ := List.cons.inj h
      exact ⟨List.mem_cons_self, fun b hb => List.mem_append_right _ (List.mem_cons_of_mem _ hb)⟩

theorem mem_of_concat_eq_append (h : front ++ [d] = p ++ c :: rest) : d ∈ c :: rest := by
  have hlast : [d] <:+ c :: rest := List.suffix_of_suffix_length_le ⟨front, h⟩ ⟨p, rfl⟩ (by simp)
  exact hlast.subset List.mem_cons_self

end

variable [Scalar α] {m : MachineSettings α} {x : σ} {p rest : List (Call α)} {c : Call α}

/-! ## One cycle -/

/-- A call that a cycle of axes makes after its first one. -/
inductive Call.InCycle (axes : AxisSet) (motors : MotorSet) : Call α → Prop
  | phase {c : Call α} (hc : c.InPhase motors) : InCycle axes motors c
  | setSteps {n : Nat} (steps : Int) (hn : n ∈ axes) : InCycle axes motors (.setSteps n steps)
  | exitHoming (success : Bool) : InCycle axes motors (.exitHoming axes success)
  | raiseAlarm (alarm : Alarm) : InCycle axes motors (.raiseAlarm alarm)
  | resetMotion : InCycle axes motors .resetMotion
  | dispatch : InCycle axes motors .dispatch

theorem inCycle_of_mem_closing {axes : AxisSet} {motors : MotorSet} {r : Except Failure Unit}
    (hc : c ∈ closing m axes r) : c.InCycle axes motors := by
  cases r with
  | error f =>
      simp only [closing, List.mem_cons, List.not_mem_nil, or_false] at hc
      rcases hc with rfl | rfl | rfl | rfl
      · exact .raiseAlarm _
      · exact .exitHoming _
      · exact .resetMotion
      · exact .dispatch
  | ok v =>
      rcases List.mem_append.1 hc with hc | hc
      · obtain ⟨n, a, h, hn, -, -, rfl⟩ := mem_committing.1 hc
        exact .setSteps _ hn
      · rw [List.mem_singleton.1 hc]
        exact .exitHoming _

section

variable {axes : AxisSet} {r : Except Failure Unit} {cs : List (Call α)}

theorem CycleRun.exists_cons (h : CycleRun m axes x r cs) :
    ∃ tail, cs = .enterHoming axes :: tail ∧
      ∀ c ∈ tail, c.InCycle axes (Machine.homeable x axes) := by
  cases h with
  | @intro moves hphases =>
      refine ⟨moves ++ closing m axes r, by simp, fun c hc => ?_⟩
      rcases List.mem_append.1 hc with hc | hc
      · exact .phase (inPhase_of_phasesRun hphases c hc)
      · exact inCycle_of_mem_closing hc

theorem CycleRun.setState_not_mem (h : CycleRun m axes x r cs) (state : MachineState) :
    .setState state ∉ cs := by
  obtain ⟨tail, rfl, htail⟩ := h.exists_cons
  intro hmem
  rcases List.mem_cons.1 hmem with hmem | hmem
  · cases hmem
  · cases htail _ hmem with
    | phase hc =>
        cases hc with
        | loop hc => cases hc

/-- An alarm is raised by the call `c` of a run and stays to its end. No cycle begins after
it, and the cycle that it falls into ends with `r`. -/
structure Latched (x : σ) (r : Except Failure Unit) (p : List (Call α)) (c : Call α)
    (rest : List (Call α)) : Prop where
  state : Machine.state (Machine.after (p ++ c :: rest) x) = .alarm
  enterHoming : ∀ S, .enterHoming S ∉ rest
  exitHoming : (∃ S, .exitHoming S true ∈ c :: rest) ↔ r = .ok ()

theorem CycleRun.enterHoming_of_cut (h : CycleRun m axes x r (p ++ c :: rest)) :
    .enterHoming axes ∈ p ++ [c] := by
  obtain ⟨tail, hcons, -⟩ := h.exists_cons
  exact (mem_of_cons_eq_append hcons.symm).1

theorem CycleRun.latched (hx : LatchesAlarm x) (h : CycleRun m axes x r (p ++ c :: rest))
    (halarm : Machine.state (Machine.after (p ++ [c]) x) = .alarm) : Latched x r p c rest := by
  refine ⟨?_, ?_, ?_⟩
  · rw [List.append_cons, Machine.after_append]
    refine (hx.after _).state_after halarm fun state hmem => h.setState_not_mem state ?_
    rw [List.append_cons]
    exact List.mem_append_right _ hmem
  · obtain ⟨tail, hcons, htail⟩ := h.exists_cons
    intro S hmem
    cases htail _ ((mem_of_cons_eq_append hcons.symm).2 _ hmem) with
    | phase hc =>
        cases hc with
        | loop hc => cases hc
  · constructor
    · rintro ⟨S, hmem⟩
      exact (h.exitHoming_mem_iff.1 (List.mem_append_right p hmem)).2.1 rfl
    · rintro rfl
      generalize hcs : p ++ c :: rest = cs at h
      cases h with
      | intro _ =>
          rw [closing, ← List.append_assoc] at hcs
          exact ⟨axes, mem_of_concat_eq_append hcs.symm⟩

end

/-! ## Numbered cycles -/

/-- An alarm that is raised in a run of cycles is raised in the last one of them. -/
theorem NumberedRun.latched {ks : List Nat} {r : Except Failure Unit} (hx : LatchesAlarm x)
    (h : NumberedRun m ks x r (p ++ c :: rest))
    (halarm : Machine.state (Machine.after (p ++ [c]) x) = .alarm) :
    Latched x r p c rest ∧
      ∃ pre k, ks = pre ++ [k] ∧ .enterHoming (m.axesInCycle k) ∈ p ++ [c] := by
  generalize hcs : p ++ c :: rest = cs at h
  induction h generalizing p with
  | nil => exact absurd hcs (List.append_ne_nil_of_right_ne_nil p (List.cons_ne_nil c rest))
  | @cons k ks x r cs ds _ hcycle hrest ih =>
      obtain ⟨q, rfl, rfl⟩ | ⟨q, rfl, rfl⟩ := cut_append hcs
      · rw [List.append_assoc, Machine.after_append] at halarm
        obtain ⟨hlatched, pre, j, rfl, hmem⟩ := ih (hx.after cs) halarm rfl
        refine ⟨⟨?_, hlatched.enterHoming, hlatched.exitHoming⟩, k :: pre, j, rfl, ?_⟩
        · rw [List.append_assoc, Machine.after_append]
          exact hlatched.state
        · rw [List.append_assoc]
          exact List.mem_append_right _ hmem
      · -- The alarm is still there after its cycle, so none follows.
        have hlatched := hcycle.latched hx halarm
        cases hrest with
        | nil =>
            rw [List.append_nil]
            exact ⟨hlatched, [], k, rfl, hcycle.enterHoming_of_cut⟩
        | cons hnext => exact absurd hlatched.state hnext
        | fail hnext => exact absurd hlatched.state hnext
  | @fail k x f cs hstate hcycle =>
      subst hcs
      exact ⟨hcycle.latched hx halarm, [], k, rfl, hcycle.enterHoming_of_cut⟩

/-- Only the cycles of a run enter homing mode. -/
theorem NumberedRun.exists_of_enterHoming {ks : List Nat} {r : Except Failure Unit}
    {cs : List (Call α)} (h : NumberedRun m ks x r cs) {S : AxisSet} (hmem : .enterHoming S ∈ cs) :
    ∃ k ∈ ks, S = m.axesInCycle k := by
  have single {k : Nat} {x : σ} {r : Except Failure Unit} {cs : List (Call α)}
      (h : CycleRun m (m.axesInCycle k) x r cs) (hmem : .enterHoming S ∈ cs) :
      S = m.axesInCycle k := by
    obtain ⟨tail, rfl, htail⟩ := h.exists_cons
    rcases List.mem_cons.1 hmem with hmem | hmem
    · exact Call.enterHoming.inj hmem
    · cases htail _ hmem with
      | phase hc =>
          cases hc with
          | loop hc => cases hc
  induction h with
  | nil => exact absurd hmem List.not_mem_nil
  | @cons k ks _ _ _ _ _ hcycle _ ih =>
      rcases List.mem_append.1 hmem with hmem | hmem
      · exact ⟨k, List.mem_cons_self, single hcycle hmem⟩
      · obtain ⟨j, hj, hS⟩ := ih hmem
        exact ⟨j, List.mem_cons_of_mem k hj, hS⟩
  | @fail k _ _ _ _ hcycle => exact ⟨k, List.mem_cons_self, single hcycle hmem⟩

/-! ## The last number -/

section

variable {budget : Nat} {found : Bool} {ns : List Nat} {j : Nat} {s t : Session σ α}

/-- The state is looked at before the last number, so an alarm that is overlooked was raised
in its cycle. -/
theorem axesInCycle_ne_of_alarm (h : runNumbered budget m found (ns ++ [j]) s = some (.ok (), t))
    (halarm : Machine.state t.machine = .alarm) : m.axesInCycle j ≠ ∅ := by
  induction ns generalizing found s with
  | nil =>
      cases firstNumber_of_runNumbered h with
      | empty hstate _ hrest =>
          cases found with
          | false => simp [runNumbered] at hrest
          | true =>
              obtain rfl : s = t := by simpa [runNumbered] using hrest
              exact absurd halarm hstate
      | run _ hsome _ _ _ => exact hsome
  | cons k ns ih =>
      cases firstNumber_of_runNumbered h with
      | empty _ _ hrest => exact ih hrest
      | run _ _ _ _ hrest => exact ih hrest

/-- Where the alarm state is met, the cycle of the last number has not run. -/
theorem exists_run_of_alarmActive
    (h : runNumbered budget m found (ns ++ [j]) s = some (.error .alarmActive, t)) :
    ∃ ks cs, ks <+: m.withAxes ns ∧ NumberedRun m ks s.machine (.ok ()) cs ∧ s.Makes cs t := by
  induction ns generalizing found s with
  | nil =>
      cases firstNumber_of_runNumbered h with
      | alarm _ heq =>
          subst heq
          exact ⟨[], [], List.nil_prefix, .nil, .refl _⟩
      | empty _ _ hrest => cases found <;> simp [runNumbered] at hrest
      | run _ _ _ _ hrest => simp [runNumbered] at hrest
  | cons k ns ih =>
      cases firstNumber_of_runNumbered h with
      | alarm _ heq =>
          subst heq
          exact ⟨[], [], List.nil_prefix, .nil, .refl _⟩
      | empty _ hempty hrest =>
          rw [withAxes_cons, if_pos (AxisSet.isEmpty_iff.2 hempty)]
          exact ih hrest
      | run hstate hsome hcycle hmakes hrest =>
          rw [withAxes_cons, if_neg fun he => hsome (AxisSet.isEmpty_iff.1 he)]
          obtain ⟨ks, cs, hpre, hrun, hmakes'⟩ := ih hrest
          rw [hmakes.machine] at hrun
          exact ⟨k :: ks, _, List.cons_prefix_cons.2 ⟨rfl, hpre⟩, .cons hstate hcycle hrun,
            hmakes.trans hmakes'⟩

end

/-! ## Requests -/

/-- The call `c` of a request falls into a cycle that ends well and after which the engine
does not look at the state again. -/
structure Overlooked (m : MachineSettings α) (request : Request) (p : List (Call α)) (c : Call α)
    (rest : List (Call α)) : Prop where
  last : request = .all → .enterHoming (m.axesInCycle maxAxes) ∈ p ++ [c]
  endsWell : ∃ S, .exitHoming S true ∈ c :: rest

section

variable {budget : Nat} {s t : Session σ α} {e : Except HomingError Unit}

omit [Machine σ α] [Scalar α] in
theorem eq_nil_of_cut {d : Call α} (h : [d] = p ++ c :: rest) : p = [] ∧ d = c ∧ rest = [] := by
  cases p with
  | nil => simpa using h
  | cons a p => simp at h

theorem runNumbered_of_runRequest (hlimits : (Machine.limits s.machine).ambiguous = ∅)
    (h : runRequest budget m .all s = some (e, t)) :
    runNumbered budget m false (List.range' 1 5 ++ [maxAxes]) s = some (e, t) := by
  unfold runRequest at h
  dsimp only at h
  rw [if_pos (MotorSet.isEmpty_iff.2 hlimits)] at h
  exact h

/-- The alarm state is only met before a number, so not after the cycle of the last one. -/
theorem enterHoming_not_mem_of_alarmActive
    (hlimits : (Machine.limits s.machine).ambiguous = ∅) {cs : List (Call α)}
    (h : runRequest budget m .all s = some (.error .alarmActive, t))
    (hcalls : t.calls = s.calls ++ cs) : .enterHoming (m.axesInCycle maxAxes) ∉ cs := by
  obtain ⟨ks, ds, hpre, hrun, hmakes⟩ :=
    exists_run_of_alarmActive (runNumbered_of_runRequest hlimits h)
  obtain rfl := List.append_cancel_left (hmakes.calls.symm.trans hcalls)
  intro hmem
  obtain ⟨k, hk, hS⟩ := hrun.exists_of_enterHoming hmem
  obtain ⟨hrange, hsome⟩ := mem_withAxes_iff.1 (hpre.subset hk)
  obtain ⟨n, hn⟩ := AxisSet.exists_mem_of_ne_empty hsome
  have hlast : n ∈ m.axesInCycle maxAxes := by rwa [hS]
  obtain rfl := cycle_unique hlast hn
  exact absurd (List.mem_range'_1.1 hrange).2 (by decide)

omit [Scalar α] in
/-- The largest number is the last one of the cycles if it has an axis. -/
theorem eq_maxAxes_of_last {pre : List Nat} {k : Nat} (hcycles : m.cycles = pre ++ [k])
    (hsome : m.axesInCycle maxAxes ≠ ∅) : k = maxAxes := by
  have hk : k ∈ m.cycles := by
    rw [hcycles]
    exact List.mem_append_right _ List.mem_cons_self
  have hlt := (List.mem_range'_1.1 (mem_withAxes_iff.1 hk).1).2
  have hlast : maxAxes ∈ pre ++ [k] := by
    rw [← hcycles]
    exact mem_withAxes_iff.2 ⟨by decide, hsome⟩
  rcases List.mem_append.1 hlast with hpre | hlast
  · have hascending := cycles_ascending m
    rw [hcycles] at hascending
    have := (List.pairwise_append.1 hascending).2.2 maxAxes hpre k List.mem_cons_self
    omega
  · exact (List.mem_singleton.1 hlast).symm

/-- A request during which an alarm is raised leaves the alarm in place and begins no cycle
after it. It succeeds exactly when it overlooks the alarm. -/
theorem latched_of_runRequest {request : Request} (hx : LatchesAlarm s.machine)
    (h : runRequest budget m request s = some (e, t))
    (hcalls : t.calls = s.calls ++ (p ++ c :: rest))
    (halarm : Machine.state (Machine.after (p ++ [c]) s.machine) = .alarm) :
    Machine.state t.machine = .alarm ∧ (∀ S, .enterHoming S ∉ rest) ∧
      (e = .ok () ↔ Overlooked m request p c rest) := by
  obtain ⟨cs, hrun, hmakes⟩ := requestRun_of_runRequest h
  have hcut : cs = p ++ c :: rest := List.append_cancel_left (hmakes.calls.symm.trans hcalls)
  cases hrun with
  | ambiguous _ =>
      obtain ⟨rfl, rfl, rfl⟩ := eq_nil_of_cut hcut
      refine ⟨by rw [hmakes.machine]; exact halarm, fun _ => List.not_mem_nil, ?_⟩
      exact ⟨fun he => (by cases he), fun hover => (by simpa using hover.endsWell)⟩
  | nothing _ _ => exact absurd hcut.symm (by simp)
  | @cycle axes _ r _ _ _ hcycle =>
      subst hcut
      have hlatched := hcycle.latched hx halarm
      refine ⟨by rw [hmakes.machine]; exact hlatched.state, hlatched.enterHoming, ?_⟩
      have hok : r.mapError HomingError.failed = .ok () ↔ r = .ok () := by
        cases r <;> simp [Except.mapError]
      rw [hok, ← hlatched.exitHoming]
      exact ⟨fun hend => ⟨fun hall => (by cases hall), hend⟩, Overlooked.endsWell⟩
  | @wildcard _ ks r _ _ _ hlimits hpre hnumbered hend =>
      cases hend with
      | failed f =>
          rw [List.append_nil] at hcut hmakes
          subst hcut
          obtain ⟨hlatched, -⟩ := hnumbered.latched hx halarm
          refine ⟨by rw [hmakes.machine]; exact hlatched.state, hlatched.enterHoming, ?_⟩
          exact ⟨fun he => (by cases he),
            fun hover => (by cases hlatched.exitHoming.1 hover.endsWell)⟩
      | alarm _ =>
          rw [List.append_nil] at hcut hmakes
          subst hcut
          obtain ⟨hlatched, -⟩ := hnumbered.latched hx halarm
          refine ⟨by rw [hmakes.machine]; exact hlatched.state, hlatched.enterHoming, ?_⟩
          refine ⟨fun he => (by cases he), fun hover => ?_⟩
          refine absurd (hover.last rfl) fun hmem => ?_
          refine enterHoming_not_mem_of_alarmActive hlimits h hcalls ?_
          rw [List.append_cons]
          exact List.mem_append_left _ hmem
      | none _ hnone =>
          rw [hnone] at hpre
          obtain rfl := List.prefix_nil.1 hpre
          cases hnumbered with
          | nil =>
              rw [List.nil_append] at hcut hmakes
              obtain ⟨rfl, rfl, rfl⟩ := eq_nil_of_cut hcut
              refine ⟨by rw [hmakes.machine]; exact halarm, fun _ => List.not_mem_nil, ?_⟩
              exact ⟨fun he => (by cases he), fun hover => (by simpa using hover.endsWell)⟩
      | homed hall _ =>
          rw [List.append_nil] at hcut hmakes
          subst hcut
          obtain ⟨hlatched, pre, k, hks, hmem⟩ := hnumbered.latched hx halarm
          have hstate : Machine.state t.machine = .alarm := by
            rw [hmakes.machine]
            exact hlatched.state
          refine ⟨hstate, hlatched.enterHoming, ?_⟩
          refine ⟨fun _ => ⟨fun _ => ?_, hlatched.exitHoming.2 rfl⟩, fun _ => rfl⟩
          -- The last cycle that ran is the one with the largest number.
          have hne := axesInCycle_ne_of_alarm (runNumbered_of_runRequest hlimits h) hstate
          rwa [eq_maxAxes_of_last (hall.symm.trans hks) hne] at hmem

omit [Machine σ α] [Scalar α] in
theorem overlooked_snoc_iff {request : Request} :
    Overlooked m request p c (rest ++ [.setState .idle]) ↔ Overlooked m request p c rest := by
  have hmem (S : AxisSet) : .exitHoming S true ∈ c :: (rest ++ [.setState .idle]) ↔
      .exitHoming S true ∈ c :: rest := by simp
  constructor
  · rintro ⟨hlast, S, hS⟩
    exact ⟨hlast, S, (hmem S).1 hS⟩
  · rintro ⟨hlast, S, hS⟩
    exact ⟨hlast, S, (hmem S).2 hS⟩

/-- After an alarm that is raised while `home` runs no cycle begins, and if `home` fails the
machine is still in the alarm state. It succeeds, and leaves the machine idle, exactly when the
alarm is overlooked. -/
theorem latched_of_home {request : Request} {y : σ} (hy : LatchesAlarm y)
    (h : home budget m request y = some (e, t))
    (hcalls : t.calls = .setState .homing :: (p ++ c :: rest))
    (halarm : Machine.state (Machine.after (.setState .homing :: (p ++ [c])) y) = .alarm) :
    (∀ S, .enterHoming S ∉ rest) ∧ (e ≠ .ok () → Machine.state t.machine = .alarm) ∧
      (e = .ok () ↔ Overlooked m request p c rest) ∧
      (e = .ok () → Machine.state t.machine = .idle) := by
  obtain ⟨u, hrequest, hend⟩ := exists_runRequest_of_home h
  obtain ⟨cs, -, hmakes⟩ := requestRun_of_runRequest hrequest
  have hbegin := Session.Makes.call (.setState .homing) (Session.begin y : Session σ α)
  have hlatches :
      LatchesAlarm ((Session.begin y : Session σ α).call (.setState .homing)).machine := by
    rw [hbegin.machine]
    exact hy.after _
  have hall := ((hbegin.trans hmakes).trans hend).calls
  rw [hcalls] at hall
  have hcut : p ++ c :: rest = cs ++ concluding e := by simpa using hall
  have hafter : Machine.state (Machine.after (p ++ [c])
      ((Session.begin y : Session σ α).call (.setState .homing)).machine) = .alarm := by
    rw [hbegin.machine]
    exact halarm
  cases e with
  | error f =>
      rw [concluding, List.append_nil] at hcut
      rw [← hcut] at hmakes
      obtain ⟨hstate, henter, hiff⟩ := latched_of_runRequest hlatches hrequest hmakes.calls hafter
      refine ⟨henter, fun _ => ?_, hiff, fun he => (by cases he)⟩
      rw [hend.machine]
      exact hstate
  | ok v =>
      obtain ⟨q, rfl, hq⟩ | ⟨q, rfl, rfl⟩ := cut_append hcut
      · obtain ⟨rfl, rfl, rfl⟩ := eq_nil_of_cut hq
        have hidle := hlatches.set (cs ++ []) .idle
        rw [hafter] at hidle
        cases hidle
      · obtain ⟨-, henter, hiff⟩ := latched_of_runRequest hlatches hrequest hmakes.calls hafter
        refine ⟨fun S hmem => ?_, fun hne => absurd rfl hne, ?_, fun _ => ?_⟩
        · rcases List.mem_append.1 hmem with hmem | hmem
          · exact henter S hmem
          · cases List.mem_singleton.1 hmem
        · exact hiff.trans overlooked_snoc_iff.symm
        · rw [hend.machine, hmakes.machine]
          exact (hlatches.after _).set [] .idle

end

omit [Scalar α] in
theorem Scripted.latchesAlarm (y : Scripted α) : LatchesAlarm y := by
  constructor
  · intro cs state
    rw [Machine.after_append]
    rfl
  · intro cs c hc halarm
    rw [Machine.after_append]
    cases c with
    | setState state => exact absurd rfl (hc state)
    | raiseAlarm _ => rfl
    | exitHoming axes success =>
        simp only [Machine.after_cons, Machine.after_nil, Machine.apply, Scripted.apply]
        split
        · rfl
        · exact halarm
    | _ => exact halarm

/-- A machine that finds the switches of axis 0 twice, and enters the alarm state when
homing mode is left. -/
def Scripted.alarmOnExit : Scripted Float where
  script :=
    let x := MotorSet.ofAxesBothSides (.single 0)
    { positive := [(1, x), (3, ∅), (5, x), (7, ∅)], signals := [(4, .stop), (8, .stop)],
      alarmOnExit := true }
  refills := 0
  state := .idle
  pending := ∅
  steps := [0, 0]

/-- A run of `home` that ends in the alarm state after its request has a call by which the
state was entered. -/
theorem exists_alarm_call_of_home {budget : Nat} {request : Request} {y : σ}
    {s t : Session σ α} {e : Except HomingError Unit} (hy : LatchesAlarm y)
    (hrequest : runRequest budget m request ((Session.begin y).call (.setState .homing)) =
      some (e, s)) (hstate : Machine.state s.machine = .alarm) (hend : s.Makes (concluding e) t) :
    ∃ p c rest, t.calls = .setState .homing :: (p ++ c :: rest) ∧
      Machine.state (Machine.after (.setState .homing :: p) y) ≠ .alarm ∧
      Machine.state (Machine.after (.setState .homing :: (p ++ [c])) y) = .alarm := by
  obtain ⟨cs, -, hmakes⟩ := requestRun_of_runRequest hrequest
  have hbegin := Session.Makes.call (.setState .homing) (Session.begin y : Session σ α)
  have hhoming : Machine.state (Machine.after [.setState .homing] y) = .homing := hy.set [] .homing
  rw [hmakes.machine, hbegin.machine] at hstate
  have hbefore : Machine.state (Machine.after [.setState .homing] y) ≠ .alarm := by
    rw [hhoming]
    decide
  obtain ⟨p, c, rest, rfl, hp, hc⟩ := exists_alarm_call hbefore hstate
  refine ⟨p, c, rest ++ concluding e, ?_, hp, hc⟩
  rw [((hbegin.trans hmakes).trans hend).calls]
  simp

/-- In the alarm state after the first of two cycles the second one is not begun. -/
theorem latched_alarmOnExit :
    LatchesAlarm Scripted.alarmOnExit ∧
      ∃ t p c rest, home 2 twoCycles .all Scripted.alarmOnExit = some (.error .alarmActive, t) ∧
        t.calls = .setState .homing :: (p ++ c :: rest) ∧
        Machine.state (Machine.after (.setState .homing :: (p ++ [c])) Scripted.alarmOnExit) =
          .alarm ∧
        (∀ S, .enterHoming S ∉ rest) ∧ Machine.state t.machine = .alarm := by
  have hlatch := Scripted.latchesAlarm Scripted.alarmOnExit
  have hrun : (home 2 twoCycles .all Scripted.alarmOnExit).map
      (fun e => (e.1, Machine.state e.2.machine)) = some (.error .alarmActive, .alarm) := rfl
  obtain ⟨⟨e, t⟩, h, he⟩ := Option.map_eq_some_iff.1 hrun
  obtain ⟨he, hstate⟩ := Prod.mk.inj he
  dsimp only at he hstate
  subst he
  obtain ⟨u, hrequest, hend⟩ := exists_runRequest_of_home h
  have hu : t.machine = u.machine := hend.machine
  rw [hu] at hstate
  obtain ⟨p, c, rest, hcalls, -, hc⟩ := exists_alarm_call_of_home hlatch hrequest hstate hend
  obtain ⟨henter, herror, -⟩ := latched_of_home hlatch h hcalls hc
  exact ⟨hlatch, t, p, c, rest, h, hcalls, hc, henter, herror (by simp)⟩

/-- A single cycle that ends in the alarm state is taken for a success. -/
theorem not_latched_alarmOnExit :
    ∃ t p c rest, home 2 twoCycles (.axes (.single 0)) Scripted.alarmOnExit = some (.ok (), t) ∧
      t.calls = .setState .homing :: (p ++ c :: rest) ∧
      Machine.state (Machine.after (.setState .homing :: p) Scripted.alarmOnExit) ≠ .alarm ∧
      Machine.state (Machine.after (.setState .homing :: (p ++ [c])) Scripted.alarmOnExit) =
        .alarm ∧
      Machine.state t.machine = .idle := by
  have hlatch := Scripted.latchesAlarm Scripted.alarmOnExit
  have hrun : (runRequest 2 twoCycles (.axes (.single 0))
      ((Session.begin Scripted.alarmOnExit).call (.setState .homing))).map
      (fun e => (e.1, Machine.state e.2.machine)) = some (.ok (), .alarm) := rfl
  obtain ⟨⟨e, u⟩, h, he⟩ := Option.map_eq_some_iff.1 hrun
  obtain ⟨he, hstate⟩ := Prod.mk.inj he
  dsimp only at he hstate
  subst he
  have hend := (Session.Makes.call (.setState .idle) u).snoc_note .homingComplete
  obtain ⟨p, c, rest, hcalls, hp, hc⟩ := exists_alarm_call_of_home hlatch h hstate hend
  refine ⟨_, p, c, rest, ?_, hcalls, hp, hc, ?_⟩
  · rw [home, h]
    rfl
  · rfl

end Homing
