import Homing.Proofs.Simulator.Squaring

/-!
# Phases that cannot fail

A phase fails at a signal from outside, or because its motion stops too soon or too late.
Without a schedule no signal comes from outside (`Undisturbed`). An approach stops too soon
if its move ends while a motor is still off its switch. `Seeking` rules this out: the way
that is left of the move is longer, by at least one tick, than that of each motor which has
not found its switch. A pull-off stops too late if a motor is still on its switch, which
cannot be once the whole move has carried it off.
-/

namespace Homing

namespace Simulator

/-- No signal from outside waits, and none is scheduled. -/
structure Undisturbed {α : Type u} (s : Simulator α) : Prop where
  scheduled : s.scheduled = []
  reset : s.pending.reset = false
  safetyDoor : s.pending.safetyDoor = false

section

variable {α : Type u} [Scalar α] {s : Simulator α}

omit [Scalar α] in
theorem raised_of_scheduled (hs : s.scheduled = []) (mv : ActiveMove α) :
    s.raised mv = s.pending := by
  unfold raised raiseScheduled
  rw [hs]
  split <;> rfl

theorem Undisturbed.apply (hs : Undisturbed s) (c : Call α) : Undisturbed (apply c s).1 := by
  have htick (mv : ActiveMove α) : Undisturbed (s.tick mv).1 := by
    refine ⟨(fixed_tick s mv).2.1.trans hs.scheduled, ?_, ?_⟩
    · rw [pending_tick, raised_of_scheduled hs.scheduled]
      split
      · rw [Signals.union_def, Signals.union, hs.reset]
        rfl
      · exact hs.reset
    · rw [pending_tick, raised_of_scheduled hs.scheduled]
      split
      · rw [Signals.union_def, Signals.union, hs.safetyDoor]
        rfl
      · exact hs.safetyDoor
  cases c with
  | refill =>
      rcases apply_refill_cases s with h | ⟨mv, -, h⟩
      · rw [h]
        exact hs
      · rw [h]
        exact htick mv
  | acknowledge signals =>
      have hpending : (Simulator.apply (.acknowledge signals) s).1.pending = s.pending \ signals :=
        rfl
      refine ⟨hs.scheduled, ?_, ?_⟩
      · rw [hpending, Signals.sdiff_def, Signals.diff, hs.reset, Bool.false_and]
      · rw [hpending, Signals.sdiff_def, Signals.diff, hs.safetyDoor, Bool.false_and]
  | dispatch => exact ⟨hs.scheduled, rfl, rfl⟩
  | _ => exact ⟨hs.scheduled, hs.reset, hs.safetyDoor⟩

theorem Undisturbed.after (hs : Undisturbed s) (cs : List (Call α)) :
    Undisturbed (Machine.after cs s) :=
  Machine.after_induction hs fun c _ _ hy => hy.apply c

theorem Undisturbed.seen (hs : Undisturbed s) :
    (seen s).reset = false ∧ (seen s).safetyDoor = false :=
  ⟨(hs.after [.refill]).reset, (hs.after [.refill]).safetyDoor⟩

/-- A tick in which all motors of an axis stand on their switches steps none of them. -/
theorem step_of_limitActive {a : SimAxis α} {overrides : Overrides} {delta fraction : α} {n : Nat}
    (hon : ∀ side p, a.motor? side = some p → p.limitActive = true) :
    (a.step overrides true delta fraction n).2 = false := by
  unfold SimAxis.step
  split
  · rfl
  · dsimp only
    rw [List.any_map, List.any_eq_false]
    rintro ⟨side, p⟩ hmem
    have htravel : SimAxis.motorTravel overrides true (delta * fraction) ⟨n, side⟩ p = none := by
      unfold SimAxis.motorTravel
      rw [hon side p (SimAxis.mem_sides.1 hmem)]
      simp
    simp [htravel]

end

variable {K : Type u} [Field K] [LinearOrder K] [FloorRing K] [SquareRoot K]

/-! ## Approaches -/

/-- A motor that an approach can bring to its switch with a tick to spare. -/
structure InReach (mv : ActiveMove K) (n : Nat) (y : Simulator K) (q : SimMotor K) : Prop where
  hasSwitch : q.hasSwitch = true
  way : mv.deltaOn n = q.towardSwitch mv.length
  enough : ∃ mv', y.active = some mv' ∧
    q.distanceToSwitch + stride y.tickMs mv.feedRate ≤ mv.length - mv'.travelled

/-- The move `mv` of axis `n` is in progress or done, and each motor of the axis is on its
switch or in reach of it. -/
structure Seeking (mv : ActiveMove K) (n : Nat) (y : Simulator K) : Prop where
  scheduled : y.scheduled = []
  cycleStop : y.pending.cycleStop = false
  goes : ∀ mv', y.active = some mv' →
    ∃ travelled ticks, mv' = { mv with travelled := travelled, ticks := ticks }
  motor : ∀ side q, y.motor? ⟨n, side⟩ = some q → q.limitActive = true ∨ InReach mv n y q

/-- A move along axis `n` that an approach makes, with every motor stepping. -/
structure ApproachOn (mv : ActiveMove K) (n : Nat) : Prop where
  approach : mv.approach = true
  free : mv.overrides.blocked = ∅
  still : ∀ k ≠ n, mv.deltaOn k = 0
  length : 0 < mv.length

variable [IsStrictOrderedRing K] {mv mv' : ActiveMove K} {n : Nat} {y : Simulator K}
  {q : SimMotor K}

omit [IsStrictOrderedRing K] in
/-- An approach along one axis steps no motor once all motors of the axis are on their
switches. -/
theorem stepped_of_limitActive (happroach : mv.approach = true)
    (hstill : ∀ k ≠ n, mv.deltaOn k = 0)
    (hon : ∀ side q, y.motor? ⟨n, side⟩ = some q → q.limitActive = true) :
    (y.stepped mv).any (·.2) = false := by
  rw [stepped, List.any_map, List.any_eq_false]
  rintro ⟨a, k⟩ hmem
  have ha : y.axes[k]? = some a := List.mk_mem_zipIdx_iff_getElem?.1 hmem
  dsimp only [Function.comp]
  rw [Bool.not_eq_true, happroach]
  by_cases hk : k = n
  · subst hk
    refine step_of_limitActive fun side p hp => hon side p ?_
    rw [motor?, ha]
    exact hp
  · rw [hstill k hk]
    simp [SimAxis.step]

theorem InReach.goes_on (h : InReach mv n y q) (hoff : q.limitActive = false)
    (hactive : y.active = some mv') : stride y.tickMs mv.feedRate < mv.length - mv'.travelled := by
  obtain ⟨mv'', hactive', hle⟩ := h.enough
  obtain rfl : mv' = mv'' := Option.some.inj (hactive.symm.trans hactive')
  have hfar : 0 < q.distanceToSwitch := by
    by_contra hle
    have hon := (limitActive_iff q).2 (.inr ⟨h.hasSwitch, not_lt.1 hle⟩)
    rw [hoff] at hon
    cases hon
  linarith

/-- A tick that does not end its move takes a motor that is off its switch one stride
toward it. -/
theorem InReach.tick (h : InReach mv n y q) (hmv : ApproachOn mv n) {travelled : K} {ticks : Nat}
    (hactive : y.active = some { mv with travelled := travelled, ticks := ticks })
    (hgoes : stride y.tickMs mv.feedRate < mv.length - travelled) :
    InReach mv n (y.tick { mv with travelled := travelled, ticks := ticks }).1
      (q.advance
        (mv.deltaOn n * y.fraction { mv with travelled := travelled, ticks := ticks })) := by
  have hfraction : y.fraction { mv with travelled := travelled, ticks := ticks } =
      stride y.tickMs mv.feedRate / mv.length := by
    rw [fraction_exact, if_pos hmv.length, min_eq_right hgoes.le]
  have hstep : mv.deltaOn n * y.fraction { mv with travelled := travelled, ticks := ticks } =
      q.towardSwitch (stride y.tickMs mv.feedRate) := by
    rw [h.way, towardSwitch_mul, hfraction, mul_div_cancel₀ _ hmv.length.ne']
  obtain ⟨mv', hactive', hle⟩ := h.enough
  rw [hactive] at hactive'
  obtain rfl := Option.some.inj hactive'
  rw [hstep]
  refine ⟨h.hasSwitch, h.way, ?_⟩
  rcases tick_cases (s := y) { mv with travelled := travelled, ticks := ticks } with
    ⟨hend, -, -⟩ | ⟨-, -, hsome⟩
  · rw [tickLength_exact, decide_eq_true_eq] at hend
    exact absurd hend (not_le.2 hgoes)
  · refine ⟨_, hsome, ?_⟩
    rw [tickLength_exact]
    dsimp only at hle ⊢
    rw [min_eq_right hgoes.le, distanceToSwitch_advance, (fixed_tick _ _).1]
    linarith

/-- A tick that ends its move finds every motor on its switch. -/
theorem Seeking.limitActive (h : Seeking mv n y) (hactive : y.active = some mv')
    (hend : (tickLength y.tickMs mv').2 = true) {side : Side} (hq : y.motor? ⟨n, side⟩ = some q) :
    q.limitActive = true := by
  obtain ⟨travelled, ticks, rfl⟩ := h.goes mv' hactive
  rw [tickLength_exact, decide_eq_true_eq] at hend
  rcases h.motor side q hq with hon | hreach
  · exact hon
  · by_contra hoff
    rw [Bool.not_eq_true] at hoff
    exact absurd (hreach.goes_on hoff hactive) (not_lt.2 hend)

/-- A tick of an approach raises no signal, as it ends the move only when every motor is
on its switch. -/
theorem Seeking.tick (h : Seeking mv n y) (hmv : ApproachOn mv n) (hactive : y.active = some mv') :
    Seeking mv n (y.tick mv').1 := by
  obtain ⟨travelled, ticks, rfl⟩ := h.goes mv' hactive
  have happroach := hmv.approach
  have hsched : ∀ e ∈ y.scheduled, e.2.cycleStop = false := by
    rw [h.scheduled]
    exact fun e he => absurd he List.not_mem_nil
  have htick (id : Motor) :
      (y.tick { mv with travelled := travelled, ticks := ticks }).1.motor? id =
      (y.motor? id).map fun p =>
        if id ∈ mv.overrides.blocked ∨ (mv.approach = true ∧ p.limitActive = true) then p
        else p.advance (mv.deltaOn id.axis *
          y.fraction { mv with travelled := travelled, ticks := ticks }) := motor?_tick id
  rcases tick_cases (s := y) { mv with travelled := travelled, ticks := ticks } with
    ⟨hend, hnone, -⟩ | ⟨hend, -, hsome⟩
  · have hon : ∀ side q, y.motor? ⟨n, side⟩ = some q → q.limitActive = true :=
      fun _ _ => h.limitActive hactive hend
    refine ⟨(fixed_tick _ _).2.1.trans h.scheduled, ?_, fun mv' h => ?_, fun side q hq => .inl ?_⟩
    · have hstill :
          (y.stepped { mv with travelled := travelled, ticks := ticks }).any (·.2) = false :=
        stepped_of_limitActive happroach hmv.still hon
      rw [pending_tick, hstill, if_neg (by simp [happroach]), raised_of_scheduled h.scheduled]
      exact h.cycleStop
    · rw [hnone] at h
      cases h
    · rw [htick] at hq
      obtain ⟨p, hp, rfl⟩ := Option.map_eq_some_iff.1 hq
      rw [if_pos (.inr ⟨happroach, hon side p hp⟩)]
      exact hon side p hp
  · refine ⟨(fixed_tick _ _).2.1.trans h.scheduled, ?_, fun mv' h => ?_, fun side q hq => ?_⟩
    · rw [cycleStop_tick_of_goes hend hsched]
      exact h.cycleStop
    · rw [hsome] at h
      exact ⟨_, _, (Option.some.inj h).symm⟩
    · rw [tickLength_exact, decide_eq_false_iff_not, not_le] at hend
      rw [htick] at hq
      obtain ⟨p, hp, rfl⟩ := Option.map_eq_some_iff.1 hq
      by_cases hon : p.limitActive = true
      · rw [if_pos (.inr ⟨happroach, hon⟩)]
        exact .inl hon
      · have hmoves : ¬ ((⟨n, side⟩ : Motor) ∈ mv.overrides.blocked ∨
            (mv.approach = true ∧ p.limitActive = true)) := by
          rintro (hblocked | ⟨-, hactive⟩)
          · rw [hmv.free] at hblocked
            exact MotorSet.not_mem_empty _ hblocked
          · exact hon hactive
        rw [if_neg hmoves]
        exact .inr (((h.motor side p hp).resolve_left hon).tick hmv hactive hend)

theorem Seeking.after {cs : List (Call K)} (h : Seeking mv n y) (hmv : ApproachOn mv n)
    (hcs : ∀ c ∈ cs, c.InMove) : Seeking mv n (Machine.after cs y) := by
  refine after_inMove hcs h (fun s mv' hs hactive => hs.tick hmv hactive) ?_
  intro s t hs hkeep
  refine ⟨hkeep.scheduled.trans hs.scheduled, ?_, fun mv' hactive => hs.goes mv' ?_, ?_⟩
  · by_contra hstop
    rw [Bool.not_eq_false] at hstop
    have hstop' := hkeep.cycleStop hstop
    rw [hs.cycleStop] at hstop'
    cases hstop'
  · rw [← hkeep.active, hactive]
  · intro side q hq
    rw [hkeep.motor?] at hq
    rcases hs.motor side q hq with hon | hreach
    · exact .inl hon
    · refine .inr ⟨hreach.hasSwitch, hreach.way, ?_⟩
      rw [hkeep.active, hkeep.tickMs]
      exact hreach.enough

variable {m : MachineSettings K} {motors : MotorSet} {phase : Phase} {x z : Simulator K}
  {r : Except Failure Unit} {cs loop : List (Call K)} {tk : ActiveMove K}

omit [IsStrictOrderedRing K] in
/-- The start of a phase raises no signal. -/
theorem Moved.undisturbed (h : Moved m motors phase x r cs z tk loop) (hx : Undisturbed x) :
    Undisturbed z := by
  refine ⟨h.launch.fixed.2.1.trans hx.scheduled, ?_, ?_⟩
  · rw [h.launch.pending]
    exact hx.reset
  · rw [h.launch.pending]
    exact hx.safetyDoor

/-- An approach that has its switches in reach finds them. -/
theorem Moved.ok_of_seeking (h : Moved m motors phase x r cs z tk loop) (hz : Undisturbed z)
    (hmv : ApproachOn tk n) (hseeking : Seeking tk n z) : r = .ok () := by
  cases r with
  | ok v => rfl
  | error f =>
      have hinMove := h.inMove
      obtain ⟨pre, last, rest, rfl, hends, -⟩ := h.run.exists_last
      rw [← Machine.after_append] at hends
      rw [← List.append_assoc] at hinMove
      have hpre := hseeking.after hmv fun c hc => hinMove c (List.mem_append_left last hc)
      have hrefill : Seeking tk n (Machine.after [.refill] (Machine.after (launching ++ pre) z)) :=
        hpre.after hmv fun c hc => List.mem_singleton.1 hc ▸ .inl .refill
      obtain ⟨hreset, hdoor⟩ := (hz.after (launching ++ pre)).seen
      have hstop := (hends.of_error hreset hdoor).1
      exact absurd (hrefill.cycleStop.symm.trans hstop) Bool.false_ne_true

/-! ## Pull-offs -/

/-- A pull-off that carries every motor off its switch ends well. -/
theorem Moved.ok_of_clear (h : Moved m motors phase x r cs z tk loop) (hx : Ready m x)
    (hz : Undisturbed z) (hpull : phase.isApproach = false)
    (hclear : ∀ id ∈ motors, ∀ p, x.motor? id = some p → (p.advance
      (if id ∈ tk.overrides.blocked then 0 else tk.deltaOn id.axis)).limitActive = false) :
    r = .ok () := by
  cases r with
  | ok v => rfl
  | error f =>
      have hinMove := h.inMove
      obtain ⟨pre, last, rest, rfl, hends, hall⟩ := h.run.exists_last
      rw [← Machine.after_append] at hends
      obtain ⟨hreset, hdoor⟩ := (hz.after (launching ++ pre)).seen
      obtain ⟨hstop, rfl, hon⟩ := hends.of_error hreset hdoor
      refine absurd ?_ (hon hpull)
      obtain rfl := hall hpull
      obtain ⟨tail, htail⟩ :=
        service_eq_cons (α := K) (seen (Machine.after (launching ++ pre) z)).statusReport
      rw [htail, List.cons_append] at hinMove ⊢
      have hcarried := h.carried_of_stop hx.built hx.rests hinMove hstop
      rw [← Machine.after_append, List.append_assoc]
      ext id
      refine ⟨fun hmem => ?_, fun hmem => absurd hmem (MotorSet.not_mem_empty id)⟩
      obtain ⟨hactive, hid⟩ := MotorSet.mem_inter.1 hmem
      rcases Simulator.mem_active.1 hactive with ⟨-, q, hq, hon⟩ | hmiswired
      · rw [hcarried.motor (h.launch.approach.trans hpull), h.launch.motor] at hq
        obtain ⟨p, hp, rfl⟩ := Option.map_eq_some_iff.1 hq
        rw [mul_one, hclear id hid p hp] at hon
        cases hon
      · rw [(fixed_after _ z).2.2, h.launch.fixed.2.2, hx.wired] at hmiswired
        exact hmiswired

end Simulator

end Homing
