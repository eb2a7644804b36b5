import Homing.Proofs.Simulator.Requests
import Mathlib.Algebra.Order.Floor.Semiring

/-!
# A move, tick by tick

Once a move was handed over and started, each refill is one tick of it until it ends. What the
simulator shows after `k` refills is then a function of `k` (`Ticked`): the move is `k` strides
along its line or at its end, each axis has gone the same part of its own way (`partDone`), and
each motor has gone along with its axis until it halted (`motorAfter`). One tick leads from `k`
to `k + 1`, and the rest is read off at the number of ticks that the length takes.

A motor that starts an approach off its switch is carried from one tick position to the next and
stands still from the first of them that is at or past the switch (`FirstPast`).
-/

namespace Homing

variable {K : Type u} [Field K] [LinearOrder K] [FloorRing K] [SquareRoot K]

namespace Simulator

/-- The number of ticks of a move. One that goes nowhere takes one tick too. -/
def ticksOf (tickMs : K) (mv : ActiveMove K) : Nat :=
  max 1 ⌈mv.length / stride tickMs mv.feedRate⌉₊

/-- The part of a move that is done after `k` of its ticks: that of `k` strides, but no more than
the whole of it. -/
def partDone (tickMs : K) (mv : ActiveMove K) (k : Nat) : K :=
  min (k * stride tickMs mv.feedRate) mv.length / mv.length

/-- A move after `k` of its ticks, as long as it goes on. -/
def atTick (tickMs : K) (mv : ActiveMove K) (k : Nat) : ActiveMove K :=
  { mv with travelled := k * stride tickMs mv.feedRate, ticks := k }

/-- A motor after `k` ticks of a move. It goes along with its axis, unless it is blocked or stands
on its switch in an approach. -/
def motorAfter (tickMs : K) (mv : ActiveMove K) (id : Motor) (p : SimMotor K) : Nat → SimMotor K
  | 0 => p
  | k + 1 =>
    if id ∈ mv.overrides.blocked ∨
        (mv.approach = true ∧ (motorAfter tickMs mv id p k).limitActive = true) then
      motorAfter tickMs mv id p k
    else (motorAfter tickMs mv id p k).advance
      (mv.deltaOn id.axis * (partDone tickMs mv (k + 1) - partDone tickMs mv k))

section

variable [IsStrictOrderedRing K] {tickMs : K} {mv : ActiveMove K} {id : Motor} {p : SimMotor K}
  {k : Nat}

/-! ## Ticks and strides -/

omit [IsStrictOrderedRing K] in
theorem ticksOf_pos : 0 < ticksOf tickMs mv := Nat.lt_of_lt_of_le Nat.one_pos (le_max_left _ _)

/-- A tick is not the last one exactly when the strides up to it fall short of the length. -/
theorem succ_lt_ticksOf (htick : 0 < tickMs) (hmv : mv.Sound) :
    k + 1 < ticksOf tickMs mv ↔ (k + 1) * stride tickMs mv.feedRate < mv.length := by
  have hcast : ((k + 1 : Nat) : K) = k + 1 := Nat.cast_succ k
  unfold ticksOf
  rw [lt_max_iff, Nat.lt_ceil, lt_div_iff₀ (stride_pos htick hmv.feedRate), hcast]
  exact or_iff_right (by omega)

/-- Before its last tick is done a move has gone one stride for each tick. -/
theorem strides_le (htick : 0 < tickMs) (hmv : mv.Sound) (hk : k < ticksOf tickMs mv) :
    k * stride tickMs mv.feedRate ≤ mv.length := by
  cases k with
  | zero => simpa using hmv.length
  | succ k =>
      rw [Nat.cast_succ]
      exact ((succ_lt_ticksOf htick hmv).1 hk).le

/-- With its last tick a move has gone its length. -/
theorem le_strides (htick : 0 < tickMs) (hmv : mv.Sound) (hk : ticksOf tickMs mv ≤ k) :
    mv.length ≤ k * stride tickMs mv.feedRate := by
  have hpos : 0 < ticksOf tickMs mv := ticksOf_pos
  obtain ⟨k, rfl⟩ : ∃ l, k = l + 1 := ⟨k - 1, by omega⟩
  rw [Nat.cast_succ]
  exact not_lt.1 fun hlt => absurd ((succ_lt_ticksOf htick hmv).2 hlt) (Nat.not_lt.2 hk)

omit [IsStrictOrderedRing K] in
theorem partDone_zero (hmv : mv.Sound) : partDone tickMs mv 0 = 0 := by
  unfold partDone
  rw [Nat.cast_zero, zero_mul, min_eq_left hmv.length, zero_div]

/-- At its end each axis has gone the whole of its way. A move without a length has no way. -/
theorem deltaOn_mul_partDone (htick : 0 < tickMs) (hmv : mv.Sound) (hk : ticksOf tickMs mv ≤ k)
    (n : Nat) : mv.deltaOn n * partDone tickMs mv k = mv.deltaOn n := by
  unfold partDone
  rw [min_eq_right (le_strides htick hmv hk)]
  rcases hmv.length.eq_or_lt with hzero | hpos
  · have hway := hmv.still hzero.symm n
    rw [hway, zero_mul]
  · rw [div_self hpos.ne', mul_one]

/-- The fraction of a tick is the part of the move that it adds. -/
theorem deltaOn_mul_fraction {y : Simulator K} (htick : 0 < y.tickMs) (hmv : mv.Sound)
    (hk : k < ticksOf y.tickMs mv) (n : Nat) :
    mv.deltaOn n * y.fraction (atTick y.tickMs mv k) =
      mv.deltaOn n * (partDone y.tickMs mv (k + 1) - partDone y.tickMs mv k) := by
  rcases hmv.length.eq_or_lt with hzero | hpos
  · rw [hmv.still hzero.symm n, zero_mul, zero_mul]
  · have hsum : ((k + 1 : Nat) : K) * stride y.tickMs mv.feedRate =
        stride y.tickMs mv.feedRate + k * stride y.tickMs mv.feedRate := by
      rw [Nat.cast_succ]
      ring
    have hadd : min (((k + 1 : Nat) : K) * stride y.tickMs mv.feedRate) mv.length -
        k * stride y.tickMs mv.feedRate =
          min (mv.length - k * stride y.tickMs mv.feedRate) (stride y.tickMs mv.feedRate) := by
      rw [min_comm, ← min_sub_sub_right, hsum, add_sub_cancel_right]
    rw [fraction_exact]
    unfold atTick partDone
    dsimp only
    rw [if_pos hpos, min_eq_left (strides_le htick hmv hk), ← sub_div, hadd]

/-! ## One tick and a run of ticks -/

/-- The simulator `y` is what `k` refills make of `z`, where the move `mv` has just begun. -/
structure Ticked (mv : ActiveMove K) (z : Simulator K) (k : Nat) (y : Simulator K) : Prop where
  tickMs : y.tickMs = z.tickMs
  scheduled : y.scheduled = z.scheduled
  goes : k < ticksOf z.tickMs mv → y.running = true ∧ y.active = some (atTick z.tickMs mv k)
  ended : ticksOf z.tickMs mv ≤ k → y.active = none
  position : ∀ n, y.axisPosition? n =
    (z.axisPosition? n).map (· + mv.deltaOn n * partDone z.tickMs mv k)
  motor : ∀ id, y.motor? id = (z.motor? id).map fun p => motorAfter z.tickMs mv id p k
  start : k = 0 → y.pending = z.pending
  waits : 0 < k → k < ticksOf z.tickMs mv → y.pending = z.raiseScheduled mv.index
  stopped : mv.approach = false → ticksOf z.tickMs mv ≤ k →
    y.pending = z.raiseScheduled mv.index ∪ .stop

variable {y z : Simulator K}

omit [IsStrictOrderedRing K] in
theorem ticked_zero (hmv : mv.Sound) (hrunning : z.running = true) (hactive : z.active = some mv)
    (htravelled : mv.travelled = 0) (hticks : mv.ticks = 0) : Ticked mv z 0 z := by
  have hnot : ¬ ticksOf z.tickMs mv ≤ 0 := Nat.not_le.2 ticksOf_pos
  refine ⟨rfl, rfl, fun _ => ⟨hrunning, ?_⟩, fun h => absurd h hnot, fun n => ?_, fun id => ?_,
    fun _ => rfl, fun h => absurd h (Nat.lt_irrefl 0), fun _ h => absurd h hnot⟩
  · rw [atTick, hactive, Nat.cast_zero, zero_mul, ← htravelled, ← hticks]
  · rw [partDone_zero hmv]
    simp
  · exact Option.map_id'.symm

omit [IsStrictOrderedRing K] in
/-- The signals that wait in a tick of a move are those that were there when it began and those
that are scheduled for it. -/
theorem Ticked.raised_eq (h : Ticked mv z k y) (hk : k < ticksOf z.tickMs mv) :
    y.raised (atTick z.tickMs mv k) = z.raiseScheduled mv.index := by
  unfold Simulator.raised atTick
  cases k with
  | zero =>
      unfold raiseScheduled
      rw [if_pos rfl, h.scheduled, h.start rfl]
  | succ k => rw [if_neg (by simp), h.waits k.succ_pos hk]

theorem Ticked.tickLength_eq (h : Ticked mv z k y) (htick : 0 < z.tickMs) (hmv : mv.Sound) :
    (tickLength y.tickMs (atTick z.tickMs mv k)).2 = decide (¬ k + 1 < ticksOf z.tickMs mv) := by
  unfold atTick
  rw [tickLength_exact, h.tickMs, decide_eq_decide, succ_lt_ticksOf htick hmv, not_lt,
    sub_le_iff_le_add', add_one_mul]

theorem motorAfter_succ_of_ended (htick : 0 < tickMs) (hmv : mv.Sound)
    (hk : ticksOf tickMs mv ≤ k) :
    motorAfter tickMs mv id p (k + 1) = motorAfter tickMs mv id p k := by
  have hend := deltaOn_mul_partDone htick hmv hk id.axis
  have hend' := deltaOn_mul_partDone htick hmv (hk.trans k.le_succ) id.axis
  rw [motorAfter, mul_sub, hend, hend', sub_self, advance_zero, ite_self]

/-- A tick of a move takes it from one tick position to the next. -/
theorem Ticked.tick (h : Ticked mv z k y) (htick : 0 < z.tickMs) (hmv : mv.Sound)
    (hk : k < ticksOf z.tickMs mv) : Ticked mv z (k + 1) (y.tick (atTick z.tickMs mv k)).1 := by
  have hfixed := fixed_tick y (atTick z.tickMs mv k)
  have hpending := pending_tick (s := y) (atTick z.tickMs mv k)
  rw [h.tickLength_eq htick hmv, h.raised_eq hk] at hpending
  have hcases := tick_cases (s := y) (atTick z.tickMs mv k)
  rw [h.tickLength_eq htick hmv, decide_eq_true_iff, decide_eq_false_iff_not, not_not] at hcases
  have hway (n : Nat) : (atTick z.tickMs mv k).deltaOn n * y.fraction (atTick z.tickMs mv k) =
      mv.deltaOn n * (partDone z.tickMs mv (k + 1) - partDone z.tickMs mv k) := by
    have hy := deltaOn_mul_fraction (y := y) (h.tickMs.symm ▸ htick) hmv (h.tickMs.symm ▸ hk) n
    rw [h.tickMs] at hy
    exact hy
  refine ⟨hfixed.1.trans h.tickMs, hfixed.2.1.trans h.scheduled, fun hgoes => ?_, fun hended => ?_,
    fun n => ?_, fun id => ?_, fun h0 => absurd h0 k.succ_ne_zero, fun _ hgoes => ?_,
    fun hpull hended => ?_⟩
  · obtain ⟨-, hruns, hsome⟩ := hcases.resolve_left fun hend => hend.1 hgoes
    refine ⟨hruns.trans (h.goes hk).1, hsome.trans ?_⟩
    have hlt := (succ_lt_ticksOf htick hmv).1 hgoes
    rw [add_one_mul] at hlt
    unfold atTick
    rw [tickLength_exact, h.tickMs]
    dsimp only
    rw [min_eq_right (le_sub_iff_add_le'.2 hlt.le), Nat.cast_succ, add_one_mul]
  · exact (hcases.resolve_right fun hgoes => absurd hgoes.1 (Nat.not_lt.2 hended)).2.1
  · rw [axisPosition?_tick, h.position, Option.map_map]
    refine congrFun (congrArg Option.map (funext fun a => ?_)) _
    dsimp only [Function.comp]
    rw [hway]
    ring
  · rw [motor?_tick, h.motor, Option.map_map]
    refine congrFun (congrArg Option.map (funext fun p => ?_)) _
    dsimp only [Function.comp]
    rw [hway]
    rfl
  · have hnot : decide (¬ k + 1 < ticksOf z.tickMs mv) = false := decide_eq_false (not_not.2 hgoes)
    exact hpending.trans (if_neg fun hend => Bool.false_ne_true (hnot.symm.trans hend.1))
  · have happroach : (atTick z.tickMs mv k).approach = false := hpull
    rw [happroach, Bool.false_and] at hpending
    exact hpending.trans (if_pos ⟨decide_eq_true (Nat.not_lt.2 hended), Bool.false_ne_true⟩)

/-- A refill takes the next tick, and changes nothing once the move has ended. -/
theorem Ticked.refill (h : Ticked mv z k y) (htick : 0 < z.tickMs) (hmv : mv.Sound) :
    Ticked mv z (k + 1) y.refill.1 := by
  by_cases hk : k < ticksOf z.tickMs mv
  · have hrefill : y.refill = y.tick (atTick z.tickMs mv k) := by
      unfold Simulator.refill
      rw [(h.goes hk).1, (h.goes hk).2]
    rw [hrefill]
    exact h.tick htick hmv hk
  · rw [Nat.not_lt] at hk
    have hsucc := hk.trans k.le_succ
    have hrefill : y.refill.1 = y := by
      unfold Simulator.refill
      rw [h.ended hk]
      cases y.running <;> rfl
    rw [hrefill]
    refine ⟨h.tickMs, h.scheduled, fun hgoes => absurd hsucc (Nat.not_le.2 hgoes),
      fun _ => h.ended hk, fun n => ?_, fun id => ?_, fun h0 => absurd h0 k.succ_ne_zero,
      fun _ hgoes => absurd hsucc (Nat.not_le.2 hgoes), fun hpull _ => h.stopped hpull hk⟩
    · rw [h.position, deltaOn_mul_partDone htick hmv hk, deltaOn_mul_partDone htick hmv hsucc]
    · rw [h.motor]
      exact congrFun (congrArg Option.map (funext fun p =>
        (motorAfter_succ_of_ended htick hmv hk).symm)) _

theorem Ticked.run (h : Ticked mv z 0 y) (htick : 0 < z.tickMs) (hmv : mv.Sound) (k : Nat) :
    Ticked mv z k (Machine.after (List.replicate k .refill) y) := by
  induction k with
  | zero => exact h
  | succ k ih =>
      rw [List.replicate_succ', Machine.after_append]
      exact ih.refill htick hmv

/-! ## A motor on its way -/

omit [IsStrictOrderedRing K] in
/-- A motor that nothing holds is where its axis has carried it. -/
theorem motorAfter_of_free (hmv : mv.Sound) (hfree : id ∉ mv.overrides.blocked)
    (hoff : mv.approach = true → ∀ j < k,
      (p.advance (mv.deltaOn id.axis * partDone tickMs mv j)).limitActive = false) :
    motorAfter tickMs mv id p k = p.advance (mv.deltaOn id.axis * partDone tickMs mv k) := by
  induction k with
  | zero => rw [partDone_zero hmv, mul_zero, advance_zero, motorAfter]
  | succ k ih =>
      have hk := ih fun happroach j hj => hoff happroach j (Nat.lt_succ_of_lt hj)
      have hgoes : ¬ (id ∈ mv.overrides.blocked ∨
          (mv.approach = true ∧ (motorAfter tickMs mv id p k).limitActive = true)) := by
        rintro (hblocked | ⟨happroach, hon⟩)
        · exact hfree hblocked
        · rw [hk, hoff happroach k k.lt_succ_self] at hon
          cases hon
      rw [motorAfter]
      rw [if_neg hgoes, hk, advance_advance]
      exact congrArg (fun d => p.advance d) (by ring)

omit [IsStrictOrderedRing K] in
theorem motorAfter_of_blocked (hblocked : id ∈ mv.overrides.blocked) (k : Nat) :
    motorAfter tickMs mv id p k = p := by
  induction k with
  | zero => rfl
  | succ k ih =>
      rw [motorAfter]
      rw [if_pos (.inl hblocked), ih]

omit [IsStrictOrderedRing K] in
/-- A motor that an approach has brought to its switch stands still. -/
theorem motorAfter_of_limitActive (happroach : mv.approach = true)
    (hon : (motorAfter tickMs mv id p k).limitActive = true) {j : Nat} (hj : k ≤ j) :
    motorAfter tickMs mv id p j = motorAfter tickMs mv id p k := by
  induction j, hj using Nat.le_induction with
  | base => rfl
  | succ j _ ih =>
      rw [motorAfter]
      rw [ih, if_pos (.inr ⟨happroach, hon⟩)]

/-- How far a position is past the switch of a motor, negative where it is not at the switch yet. -/
def pastSwitch (p : SimMotor K) (position : K) : K :=
  if p.positive then position - p.switchAt else p.switchAt - position

/-- A motor that has gone `way k` after `k` ticks is at or past its switch after the `k`-th of
them for the first time, and then by less than that tick has taken it. -/
structure FirstPast (p : SimMotor K) (way : Nat → K) (k : Nat) : Prop where
  past : 0 ≤ pastSwitch p (p.position + way k)
  before : ∀ j < k, pastSwitch p (p.position + way j) < 0
  overshoot : pastSwitch p (p.position + way k) < |way k - way (k - 1)|

/-- Going on from one position to another takes a motor past its switch by no more than that. -/
theorem pastSwitch_le_add (p : SimMotor K) (a b : K) :
    pastSwitch p b ≤ pastSwitch p a + |b - a| := by
  have habs := neg_abs_le (b - a)
  have hle := le_abs_self (b - a)
  unfold pastSwitch
  split <;> linarith

/-- A motor that starts off its switch and comes to be at or past it does so at a first tick. -/
theorem exists_firstPast {way : Nat → K} (hstart : pastSwitch p (p.position + way 0) < 0)
    (hpast : ∃ k, 0 ≤ pastSwitch p (p.position + way k)) : ∃ k, FirstPast p way k := by
  classical
  obtain ⟨k, hk, hfirst⟩ : ∃ k, 0 ≤ pastSwitch p (p.position + way k) ∧
      ∀ j < k, pastSwitch p (p.position + way j) < 0 :=
    ⟨Nat.find hpast, Nat.find_spec hpast, fun j hj => not_le.1 (Nat.find_min hpast hj)⟩
  have hpos : 0 < k := by
    by_contra hzero
    obtain rfl := Nat.eq_zero_of_not_pos hzero
    exact absurd hk (not_le.2 hstart)
  have hnear := hfirst (k - 1) (Nat.sub_one_lt hpos.ne')
  have hgone := pastSwitch_le_add p (p.position + way (k - 1)) (p.position + way k)
  rw [add_sub_add_left_eq_sub] at hgone
  exact ⟨k, hk, hfirst, by linarith⟩

theorem limitActive_iff_of_working (hswitch : p.hasSwitch = true)
    (hstuck : p.stuck = false) (d : K) :
    (p.advance d).limitActive = true ↔ 0 ≤ pastSwitch p (p.position + d) := by
  have hstuck' : (p.advance d).stuck = false := hstuck
  have hswitch' : (p.advance d).hasSwitch = true := hswitch
  have hpast : (p.advance d).distanceToSwitch = -pastSwitch p (p.position + d) := by
    unfold SimMotor.distanceToSwitch SimMotor.advance pastSwitch
    cases p.positive <;> simp
  rw [limitActive_iff, hstuck', hswitch', hpast]
  simp

/-- A motor that starts an approach off its switch halts at the first tick position at or past it.
If it comes to none, it goes the whole way of its axis. -/
theorem motorAfter_of_approach (htick : 0 < tickMs) (hmv : mv.Sound)
    (happroach : mv.approach = true) (hfree : id ∉ mv.overrides.blocked)
    (hswitch : p.hasSwitch = true) (hstuck : p.stuck = false) (hoff : p.limitActive = false) :
    (∃ k ≤ ticksOf tickMs mv,
      FirstPast p (fun j => mv.deltaOn id.axis * partDone tickMs mv j) k ∧
      ∀ j ≥ k, motorAfter tickMs mv id p j =
        p.advance (mv.deltaOn id.axis * partDone tickMs mv k)) ∨
    ((∀ k, pastSwitch p (p.position + mv.deltaOn id.axis * partDone tickMs mv k) < 0) ∧
      ∀ j ≥ ticksOf tickMs mv, motorAfter tickMs mv id p j = p.advance (mv.deltaOn id.axis)) := by
  have hiff := limitActive_iff_of_working hswitch hstuck
  have hclear {d : K} (hd : pastSwitch p (p.position + d) < 0) :
      (p.advance d).limitActive = false := by
    rw [← Bool.not_eq_true, hiff]
    exact not_le.2 hd
  by_cases hpast : ∃ k, 0 ≤ pastSwitch p (p.position + mv.deltaOn id.axis * partDone tickMs mv k)
  · have hstart : pastSwitch p (p.position + mv.deltaOn id.axis * partDone tickMs mv 0) < 0 := by
      rw [partDone_zero hmv, mul_zero, ← not_le, ← hiff, advance_zero, hoff]
      exact Bool.false_ne_true
    obtain ⟨k, hk⟩ : ∃ k, FirstPast p (fun j => mv.deltaOn id.axis * partDone tickMs mv j) k :=
      exists_firstPast hstart hpast
    have hhalt := motorAfter_of_free (p := p) (k := k) hmv hfree
      fun _ j hj => hclear (hk.before j hj)
    refine .inl ⟨k, ?_, hk, fun j hj => ?_⟩
    · -- All positions from the last tick on are the same one.
      by_contra hlate
      rw [not_le] at hlate
      have hlast := hk.before _ hlate
      have hend := hk.past
      rw [deltaOn_mul_partDone htick hmv le_rfl] at hlast
      rw [deltaOn_mul_partDone htick hmv hlate.le] at hend
      exact absurd hend (not_le.2 hlast)
    · rw [motorAfter_of_limitActive happroach (hhalt ▸ (hiff _).2 hk.past) hj, hhalt]
  · push Not at hpast
    refine .inr ⟨hpast, fun j hj => ?_⟩
    rw [motorAfter_of_free hmv hfree fun _ i _ => hclear (hpast i),
      deltaOn_mul_partDone htick hmv hj]

end

/-! ## A move that is handed over -/

/-- The simulator that takes over a move and starts, after `k` refills. -/
def played (move : Move K) (k : Nat) (s : Simulator K) : Simulator K :=
  Machine.after ([.submit move, .start] ++ List.replicate k .refill) s

/-- A move is carried out in `N` ticks from the simulator `s` on. It ends with the last of them
and not before, with each axis at its target. A move that is no approach takes the motors along
that are not blocked, and its end adds the cycle-stop signal to those that wait from its first tick
on. In an approach a motor with a working switch, which it starts off, halts at its first tick
position at or past it, or goes the whole way. -/
structure CarriedOut (move : Move K) (s : Simulator K) (N : Nat) : Prop where
  way : ∀ n a d, s.axes[n]? = some a → move.target[n]? = some d →
    (s.taken move).deltaOn n = d - a.position
  goes : ∀ k < N, (s.played move k).active.isSome = true
  ended : ∀ k ≥ N, (s.played move k).active = none
  arrives : ∀ k ≥ N, ∀ n d, (s.axes[n]?).isSome = true → move.target[n]? = some d →
    (s.played move k).axisPosition? n = some d
  carries : move.approach = false → ∀ k ≥ N, ∀ id p, s.motor? id = some p →
    (s.played move k).motor? id = some { p with
      position := p.position +
        if id ∈ move.overrides.blocked then 0 else (s.taken move).deltaOn id.axis }
  waits : ∀ k < N, (s.played move k).pending =
    if k = 0 then s.pending else s.raiseScheduled s.totals.moves.length
  stops : move.approach = false → ∀ k ≥ N,
    (s.played move k).pending = s.raiseScheduled s.totals.moves.length ∪ .stop
  halts : move.approach = true → ∀ id p, s.motor? id = some p → id ∉ move.overrides.blocked →
    p.hasSwitch = true → p.stuck = false → p.limitActive = false →
      (∃ k ≤ N,
        FirstPast p (fun j => (s.taken move).deltaOn id.axis *
          partDone s.tickMs (s.taken move) j) k ∧
        ∀ j ≥ k, (s.played move j).motor? id = some { p with
          position := p.position +
            (s.taken move).deltaOn id.axis * partDone s.tickMs (s.taken move) k }) ∨
      ((∀ k, pastSwitch p (p.position +
          (s.taken move).deltaOn id.axis * partDone s.tickMs (s.taken move) k) < 0) ∧
        ∀ j ≥ N, (s.played move j).motor? id =
          some { p with position := p.position + (s.taken move).deltaOn id.axis })

variable [IsStrictOrderedRing K] {s : Simulator K} {move : Move K}

theorem ticked_played (htick : 0 < s.tickMs) (hrate : 0 < move.feedRate) (k : Nat) :
    Ticked (s.taken move) (s.played move 0) k (s.played move k) := by
  have hsound := taken_sound (s := s) hrate
  have hstart : Ticked (s.taken move) (s.played move 0) 0 (s.played move 0) :=
    ticked_zero hsound rfl rfl Scalar.zero_exact rfl
  have hrun := hstart.run htick hsound k
  have hplayed : s.played move k =
      Machine.after (List.replicate k .refill) (s.played move 0) := by
    unfold played
    rw [Machine.after_append, Machine.after_append]
    rfl
  rw [hplayed]
  exact hrun

/-- Every move with a rate is carried out, in as many ticks as strides fit into its length. -/
theorem carriedOut_of_submit (htick : 0 < s.tickMs) (hrate : 0 < move.feedRate) :
    CarriedOut move s
      (max 1 ⌈lengthOf (s.taken move).delta / stride s.tickMs move.feedRate⌉₊) := by
  have hsound := taken_sound (s := s) hrate
  have hticked := ticked_played htick hrate
  have hN : max 1 ⌈lengthOf (s.taken move).delta / stride s.tickMs move.feedRate⌉₊ =
      ticksOf s.tickMs (s.taken move) := rfl
  have hway (n : Nat) (a : SimAxis K) (d : K) (ha : s.axes[n]? = some a)
      (hd : move.target[n]? = some d) : (s.taken move).deltaOn n = d - a.position := by
    rw [deltaOn_taken hd, ha, Option.elim_some]
  have hmotor (k : Nat) {id : Motor} {p : SimMotor K} (hp : s.motor? id = some p) :
      (s.played move k).motor? id = some (motorAfter s.tickMs (s.taken move) id p k) := by
    have h := (hticked k).motor id
    have hsame : (s.played move 0).motor? id = s.motor? id := rfl
    rw [hsame, hp] at h
    exact h
  rw [hN]
  refine ⟨hway, fun k hk => ?_, fun k hk => (hticked k).ended hk, fun k hk n d hsome hd => ?_,
    fun hpull k hk id p hp => ?_, fun k hk => ?_, fun hpull k hk => (hticked k).stopped hpull hk,
    fun happroach id p hp hfree hswitch hstuck hoff => ?_⟩
  · rw [((hticked k).goes hk).2]
    rfl
  · obtain ⟨a, ha⟩ := Option.isSome_iff_exists.1 hsome
    have hstart : (s.played move 0).axisPosition? n = some a.position := by
      unfold axisPosition?
      exact congrArg (Option.map (·.position)) ha
    have htickMs : (s.played move 0).tickMs = s.tickMs := rfl
    rw [(hticked k).position n, htickMs, deltaOn_mul_partDone htick hsound hk, hstart,
      Option.map_some, hway n a d ha hd, add_sub_cancel]
  · rw [hmotor k hp]
    by_cases hblocked : id ∈ move.overrides.blocked
    · rw [motorAfter_of_blocked hblocked, if_pos hblocked, add_zero]
    · have hnot : (s.taken move).approach ≠ true := fun h => Bool.false_ne_true (hpull.symm.trans h)
      rw [motorAfter_of_free hsound hblocked fun happroach => absurd happroach hnot,
        deltaOn_mul_partDone htick hsound hk, if_neg hblocked]
      rfl
  · by_cases hzero : k = 0
    · rw [if_pos hzero, (hticked k).start hzero]
      rfl
    · rw [if_neg hzero, (hticked k).waits (Nat.pos_of_ne_zero hzero) hk]
      rfl
  · refine (motorAfter_of_approach htick hsound happroach hfree hswitch hstuck hoff).imp ?_ ?_
    · rintro ⟨k, hk, hfirst, hall⟩
      exact ⟨k, hk, hfirst, fun j hj => (hmotor j hp).trans (congrArg some (hall j hj))⟩
    · rintro ⟨hclear, hall⟩
      exact ⟨hclear, fun j hj => (hmotor j hp).trans (congrArg some (hall j hj))⟩

/-- Nine millimetres toward the switches of the gantry are four ticks of two millimetres and a
shortened one. -/
def nineUp : Move ℚ where
  target := #v[9, 0, 0, 0, 0, 0]
  feedRate := 120
  flags := .homing
  approach := true
  overrides := {}

theorem carriedOut_nineUp :
    0 < skewedGantry.tickMs ∧ 0 < nineUp.feedRate ∧ CarriedOut nineUp skewedGantry 5 := by
  have htick : 0 < skewedGantry.tickMs := by decide +kernel
  have hrate : 0 < nineUp.feedRate := by decide +kernel
  have hcount : max 1 ⌈lengthOf (skewedGantry.taken nineUp).delta /
      stride skewedGantry.tickMs nineUp.feedRate⌉₊ = 5 := by decide +kernel
  exact ⟨htick, hrate, hcount ▸ carriedOut_of_submit htick hrate⟩

end Simulator

end Homing
