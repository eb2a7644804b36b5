import Homing.Proofs.Exact.Scalar
import Homing.Proofs.Simulator.Limits

/-!
# A move of the simulator, from its start to its end

In exact arithmetic a tick carries a move by a fraction of its length, and with it each
axis by the same fraction of its own way. `Carried mv y s l` says that the part `l` of
the move `mv` is done when the simulator, which was `y` when the move was handed over,
is `s`. A pull-off takes every motor along that does not stand still. In an approach a
motor stops on its switch, and `Near` bounds how far past the switch it can be.
-/

namespace Homing

variable {K : Type u} [Field K] [LinearOrder K] [FloorRing K] [SquareRoot K]

/-- A move that a simulator can carry out: it has a rate, and it goes somewhere unless
it has no length. -/
structure ActiveMove.Sound (mv : ActiveMove K) : Prop where
  feedRate : 0 < mv.feedRate
  length : 0 ≤ mv.length
  still : mv.length = 0 → ∀ n, mv.deltaOn n = 0

namespace Simulator

theorem motorTravel_exact [IsStrictOrderedRing K] (overrides : Overrides) (approach : Bool)
    (distance : K) (id : Motor) (p : SimMotor K) :
    SimAxis.motorTravel overrides approach distance id p =
      if id ∈ overrides.blocked ∨ (approach = true ∧ p.limitActive = true) then none
      else some distance := by
  unfold SimAxis.motorTravel Overrides.multiplier
  by_cases hblocked : id ∈ overrides.blocked
  · simp [hblocked]
  · by_cases hstop : approach = true ∧ p.limitActive = true
    · simp [hblocked, hstop]
    · have hstop' : ¬ (approach && p.limitActive) = true := by simpa using hstop
      simp only [hblocked, if_false, hstop', hstop, or_self, Scalar.eq_exact, Scalar.one_exact,
        Scalar.zero_exact, one_ne_zero, decide_false, Bool.false_eq_true]
      exact congrArg some (mul_one distance)

theorem advance_zero (p : SimMotor K) : p.advance 0 = p := by
  have h : p.position + 0 = p.position := add_zero p.position
  unfold SimMotor.advance
  rw [h]

theorem advance_advance (d e : K) (p : SimMotor K) :
    (p.advance d).advance e = p.advance (d + e) := by
  have h : p.position + d + e = p.position + (d + e) := add_assoc _ _ _
  unfold SimMotor.advance
  rw [h]

variable {s : Simulator K} {mv : ActiveMove K}

/-- A motor goes the way of its axis in a tick, unless it is blocked or stands on its
switch in an approach. -/
theorem motor?_tick [IsStrictOrderedRing K] (id : Motor) :
    (s.tick mv).1.motor? id = (s.motor? id).map fun p =>
      if id ∈ mv.overrides.blocked ∨ (mv.approach = true ∧ p.limitActive = true) then p
      else p.advance (mv.deltaOn id.axis * s.fraction mv) := by
  unfold Simulator.motor?
  rw [axes_tick]
  cases s.axes[id.axis]? with
  | none => rfl
  | some a =>
      simp only [Option.map_some, Option.bind_some, SimAxis.motor?_step]
      refine congrFun (congrArg Option.map (funext fun p => ?_)) _
      rw [motorTravel_exact]
      by_cases hdelta : mv.deltaOn id.axis = 0
      · simp [hdelta, advance_zero]
      · by_cases hstop : id ∈ mv.overrides.blocked ∨ (mv.approach = true ∧ p.limitActive = true)
        · simp [hstop]
        · simp [hdelta, hstop]

theorem axisPosition?_tick (n : Nat) : (s.tick mv).1.axisPosition? n =
    (s.axisPosition? n).map (· + mv.deltaOn n * s.fraction mv) := by
  unfold Simulator.axisPosition?
  rw [axes_tick, Option.map_map, Option.map_map]
  refine congrFun (congrArg Option.map (funext fun a => ?_)) _
  dsimp only [Function.comp]
  rw [SimAxis.position_step]
  by_cases hdelta : mv.deltaOn n = 0
  · simp [hdelta]
  · simp [hdelta]

/-- How far a move goes along its line in one tick. -/
def stride (tickMs feedRate : K) : K := feedRate * tickMs / 60000

theorem stride_pos [IsStrictOrderedRing K] {tickMs feedRate : K} (htick : 0 < tickMs)
    (hrate : 0 < feedRate) : 0 < stride tickMs feedRate := by
  have := mul_pos hrate htick
  unfold stride
  positivity

/-- A tick goes one stride, or what is left when that is not more. -/
theorem tickLength_exact [IsStrictOrderedRing K] (tickMs : K) (mv : ActiveMove K) :
    tickLength tickMs mv = (min (mv.length - mv.travelled) (stride tickMs mv.feedRate),
      decide (mv.length - mv.travelled ≤ stride tickMs mv.feedRate)) := by
  unfold tickLength stride
  simp only [Scalar.le_exact, Scalar.minute_exact, decide_eq_true_eq]
  split
  · rename_i hle
    rw [min_eq_left hle, decide_eq_true hle]
  · rename_i hle
    rw [min_eq_right (not_le.1 hle).le, decide_eq_false hle]

theorem fraction_exact [IsStrictOrderedRing K] (s : Simulator K) (mv : ActiveMove K) :
    s.fraction mv = if 0 < mv.length
      then min (mv.length - mv.travelled) (stride s.tickMs mv.feedRate) / mv.length else 0 := by
  unfold fraction
  rw [tickLength_exact]
  simp only [Scalar.lt_exact, Scalar.zero_exact, decide_eq_true_eq]

/-! ## A whole move -/

/-- The part `l` of a move is done that was handed over to `y`. -/
structure Carried (mv : ActiveMove K) (y s : Simulator K) (l : K) : Prop where
  tickMs : s.tickMs = y.tickMs
  position : ∀ n, s.axisPosition? n = (y.axisPosition? n).map (· + mv.deltaOn n * l)
  motor : mv.approach = false → ∀ id, s.motor? id = (y.motor? id).map
    (·.advance (if id ∈ mv.overrides.blocked then 0 else mv.deltaOn id.axis * l))
  goes : (s.active = none ∧ l = 1) ∨
    ∃ k, s.active = some { mv with travelled := l * mv.length, ticks := k }

theorem carried_start {y : Simulator K} (hactive : y.active = some mv) (hstart : mv.travelled = 0) :
    Carried mv y y 0 := by
  refine ⟨rfl, fun n => ?_, fun _ id => ?_, .inr ⟨mv.ticks, ?_⟩⟩
  · simp
  · simp [advance_zero]
  · rw [hactive, zero_mul, ← hstart]

/-- A tick carries the axes and the motors by its fraction of the whole move. -/
theorem Carried.step [IsStrictOrderedRing K] {y : Simulator K} {l l' travelled : K} {ticks : Nat}
    (h : Carried mv y s l)
    (hl : ∀ n, mv.deltaOn n * l +
      mv.deltaOn n * s.fraction { mv with travelled := travelled, ticks := ticks } =
        mv.deltaOn n * l')
    (hgoes :
      ((s.tick { mv with travelled := travelled, ticks := ticks }).1.active = none ∧ l' = 1) ∨
      ∃ k, (s.tick { mv with travelled := travelled, ticks := ticks }).1.active =
        some { mv with travelled := l' * mv.length, ticks := k }) :
    Carried mv y (s.tick { mv with travelled := travelled, ticks := ticks }).1 l' := by
  refine ⟨(fixed_tick _ _).1.trans h.tickMs, fun n => ?_, fun hpull id => ?_, hgoes⟩
  · rw [axisPosition?_tick, h.position, Option.map_map]
    refine congrFun (congrArg Option.map (funext fun p => ?_)) _
    have hsum := hl n
    dsimp only [Function.comp]
    rw [← hsum]
    exact add_assoc _ _ _
  · rw [motor?_tick, h.motor hpull, Option.map_map]
    refine congrFun (congrArg Option.map (funext fun p => ?_)) _
    by_cases hblocked : id ∈ mv.overrides.blocked
    · simp [hblocked]
    · have hsum := hl id.axis
      simp only [Function.comp, hblocked, hpull, Bool.false_eq_true, false_and, or_self, if_false,
        advance_advance]
      rw [← hsum]
      rfl

theorem Carried.tick [IsStrictOrderedRing K] {y : Simulator K} {l : K} (h : Carried mv y s l)
    (hsound : mv.Sound) (htick : 0 < y.tickMs) {mv' : ActiveMove K}
    (hactive : s.active = some mv') : ∃ l', Carried mv y (s.tick mv').1 l' := by
  obtain ⟨hnone, -⟩ | ⟨k, hgoes⟩ := h.goes
  · rw [hnone] at hactive
    cases hactive
  rw [hactive] at hgoes
  obtain rfl := Option.some.inj hgoes
  have hstride := stride_pos (h.tickMs ▸ htick) hsound.feedRate
  rcases tick_cases (s := s) { mv with travelled := l * mv.length, ticks := k } with
    ⟨hend, hnone, -⟩ | ⟨hend, -, hsome⟩
  · refine ⟨1, h.step (fun n => ?_) (.inl ⟨hnone, rfl⟩)⟩
    rcases hsound.length.eq_or_lt with hzero | hpos
    · rw [hsound.still hzero.symm n]
      simp
    · rw [tickLength_exact, decide_eq_true_eq] at hend
      rw [fraction_exact, if_pos hpos, min_eq_left hend]
      field_simp
      ring
  · rw [tickLength_exact, decide_eq_false_iff_not] at hend
    rw [tickLength_exact] at hsome
    dsimp only at hend hsome
    have hpos : 0 < mv.length := by
      rcases hsound.length.eq_or_lt with hzero | hpos
      · rw [← hzero, mul_zero, sub_zero] at hend
        exact absurd hstride.le hend
      · exact hpos
    rw [min_eq_right (not_le.1 hend).le] at hsome
    refine ⟨l + stride s.tickMs mv.feedRate / mv.length, h.step (fun n => ?_) (.inr ⟨k + 1, ?_⟩)⟩
    · rw [fraction_exact, if_pos hpos, min_eq_right (not_le.1 hend).le]
      ring
    · have hsum : l * mv.length + stride s.tickMs mv.feedRate =
          (l + stride s.tickMs mv.feedRate / mv.length) * mv.length := by
        field_simp
      rw [hsome, hsum]

/-- Some part of a move is done as long as its phase lasts. -/
theorem carried_after [IsStrictOrderedRing K] {y : Simulator K} {cs : List (Call K)}
    (hcs : ∀ c ∈ cs, c.InMove) (hactive : y.active = some mv) (hstart : mv.travelled = 0)
    (hsound : mv.Sound) (htick : 0 < y.tickMs) :
    ∃ l, Carried mv y (Machine.after cs y) l := by
  refine after_inMove (P := fun s => ∃ l, Carried mv y s l) hcs
    ⟨0, carried_start hactive hstart⟩ ?_ ?_
  · rintro s mv' ⟨l, h⟩ hs
    exact h.tick hsound htick hs
  · rintro s t ⟨l, h⟩ hkeep
    refine ⟨l, hkeep.tickMs.trans h.tickMs, fun n => ?_, fun hpull id => ?_, ?_⟩
    · rw [← h.position n]
      unfold axisPosition?
      rw [hkeep.axes]
    · rw [hkeep.motor?, h.motor hpull id]
    · rw [hkeep.active]
      exact h.goes

/-! ## The end of a motion -/

/-- The cycle-stop signal waits only where no move is in progress, and comes from no
other source than a move. -/
structure Calm (s : Simulator K) : Prop where
  scheduled : ∀ e ∈ s.scheduled, e.2.cycleStop = false
  stopped : s.pending.cycleStop = true → s.active = none

theorem Calm.after {cs : List (Call K)} (hcs : ∀ c ∈ cs, c.InMove) (hs : Calm s) :
    Calm (Machine.after cs s) := by
  refine after_inMove hcs hs ?_ ?_
  · intro y mv hy hactive
    have hfixed := (fixed_tick y mv).2.1
    rcases tick_cases (s := y) mv with ⟨-, hnone, -⟩ | ⟨hend, -, -⟩
    · exact ⟨by rw [hfixed]; exact hy.scheduled, fun _ => hnone⟩
    · refine ⟨by rw [hfixed]; exact hy.scheduled, fun hstop => ?_⟩
      rw [cycleStop_tick_of_goes hend hy.scheduled] at hstop
      rw [hy.stopped hstop] at hactive
      cases hactive
  · intro y z hy hkeep
    refine ⟨by rw [hkeep.scheduled]; exact hy.scheduled, fun hstop => ?_⟩
    rw [hkeep.active]
    exact hy.stopped (hkeep.cycleStop hstop)

/-! ## Approaches -/

theorem limitActive_iff [IsStrictOrderedRing K] (p : SimMotor K) : p.limitActive = true ↔
    p.stuck = true ∨ (p.hasSwitch = true ∧ p.distanceToSwitch ≤ 0) := by
  unfold SimMotor.limitActive SimMotor.distanceToSwitch
  cases p.positive with
  | true => simp
  | false => simp

theorem distanceToSwitch_advance (p : SimMotor K) (d : K) :
    (p.advance (p.towardSwitch d)).distanceToSwitch = p.distanceToSwitch - d := by
  unfold SimMotor.advance SimMotor.distanceToSwitch SimMotor.towardSwitch
  cases p.positive with
  | true =>
      simp only [if_true]
      ring
  | false =>
      simp only [Bool.false_eq_true, if_false]
      ring

theorem towardSwitch_mul (p : SimMotor K) (w f : K) :
    p.towardSwitch w * f = p.towardSwitch (w * f) := by
  unfold SimMotor.towardSwitch
  cases p.positive with
  | true => rfl
  | false => exact neg_mul w f

theorem fraction_le [IsStrictOrderedRing K] (s : Simulator K) (mv : ActiveMove K)
    (hlength : 0 ≤ mv.length) : s.fraction mv ≤ stride s.tickMs mv.feedRate / mv.length := by
  rw [fraction_exact]
  rcases hlength.eq_or_lt with hzero | hpos
  · rw [← hzero, if_neg (lt_irrefl 0)]
    exact (div_zero _).ge
  · rw [if_pos hpos]
    exact div_le_div_of_nonneg_right (min_le_right _ _) hpos.le

/-- A motor that is on its switch is less than `t` past it. -/
structure Near (t : K) (p q : SimMotor K) : Prop where
  positive : q.positive = p.positive
  stuck : q.stuck = false
  past : q.limitActive = true → -t < q.distanceToSwitch

/-- A motor that goes at most `t` toward its switch, from before it. -/
theorem Near.advance [IsStrictOrderedRing K] {t d : K} {p q : SimMotor K} (h : Near t p q)
    (hoff : q.limitActive = false) (hd : d ≤ t) : Near t p (q.advance (q.towardSwitch d)) := by
  refine ⟨h.positive, h.stuck, fun hon => ?_⟩
  have hstuck : (q.advance (q.towardSwitch d)).stuck = false := h.stuck
  rw [limitActive_iff, hstuck] at hon
  obtain hfalse | ⟨hswitch, -⟩ := hon
  · cases hfalse
  have hbefore : 0 < q.distanceToSwitch := by
    by_contra hle
    have hactive : q.limitActive = true := (limitActive_iff q).2 (.inr ⟨hswitch, not_lt.1 hle⟩)
    rw [hactive] at hoff
    cases hoff
  rw [distanceToSwitch_advance]
  linarith

/-- The move in progress is `mv`, begun when the simulator was `s`, and a motor that
was `p` at that time is near its switch. -/
structure Nearing (mv : ActiveMove K) (s : Simulator K) (id : Motor) (p : SimMotor K) (t : K)
    (y : Simulator K) : Prop where
  tickMs : y.tickMs = s.tickMs
  goes : ∀ mv', y.active = some mv' →
    ∃ travelled ticks, mv' = { mv with travelled := travelled, ticks := ticks }
  motor : ∃ q, y.motor? id = some q ∧ Near t p q

theorem Nearing.tick [IsStrictOrderedRing K] {y : Simulator K} {id : Motor} {p : SimMotor K}
    {w : K} (h : Nearing mv s id p (w * (stride s.tickMs mv.feedRate / mv.length)) y)
    (happroach : mv.approach = true) (hlength : 0 ≤ mv.length) (hw : 0 ≤ w)
    (hdelta : mv.deltaOn id.axis = p.towardSwitch w) {mv' : ActiveMove K}
    (hactive : y.active = some mv') :
    Nearing mv s id p (w * (stride s.tickMs mv.feedRate / mv.length)) (y.tick mv').1 := by
  obtain ⟨travelled, ticks, rfl⟩ := h.goes mv' hactive
  obtain ⟨q, hq, hnear⟩ := h.motor
  refine ⟨(fixed_tick _ _).1.trans h.tickMs, fun mv' h => ?_, ?_⟩
  · rcases tick_cases (s := y) { mv with travelled := travelled, ticks := ticks } with
      ⟨-, hnone, -⟩ | ⟨-, -, hsome⟩
    · rw [hnone] at h
      cases h
    · rw [hsome] at h
      obtain rfl := Option.some.inj h
      exact ⟨_, _, rfl⟩
  · rw [motor?_tick, hq, Option.map_some]
    refine ⟨_, rfl, ?_⟩
    split
    · exact hnear
    · rename_i hgo
      have hbefore : q.limitActive = false := by
        by_contra hon
        exact hgo (.inr ⟨happroach, by simpa using hon⟩)
      have hway : ({ mv with travelled := travelled, ticks := ticks } : ActiveMove K).deltaOn
          id.axis = q.towardSwitch w := by
        have htoward : q.towardSwitch w = p.towardSwitch w := by
          unfold SimMotor.towardSwitch
          rw [hnear.positive]
        exact hdelta.trans htoward.symm
      have hle := fraction_le y { mv with travelled := travelled, ticks := ticks } hlength
      rw [h.tickMs] at hle
      rw [hway, towardSwitch_mul]
      exact hnear.advance hbefore (mul_le_mul_of_nonneg_left hle hw)

/-- A motor that starts an approach off its switch ends it less than one tick of its
axis past the switch. -/
theorem near_after [IsStrictOrderedRing K] {cs : List (Call K)} (hcs : ∀ c ∈ cs, c.InMove)
    (hactive : s.active = some mv) (happroach : mv.approach = true) (hlength : 0 ≤ mv.length)
    {id : Motor} {p : SimMotor K} (hp : s.motor? id = some p) (hoff : p.limitActive = false) {w : K}
    (hw : 0 ≤ w) (hdelta : mv.deltaOn id.axis = p.towardSwitch w) :
    ∃ q, (Machine.after cs s).motor? id = some q ∧
      Near (w * (stride s.tickMs mv.feedRate / mv.length)) p q := by
  have hstuck : p.stuck = false := by
    unfold SimMotor.limitActive at hoff
    rw [Bool.or_eq_false_iff] at hoff
    exact hoff.1
  have hstart : Nearing mv s id p (w * (stride s.tickMs mv.feedRate / mv.length)) s := by
    refine ⟨rfl, fun mv' h => ⟨mv.travelled, mv.ticks, ?_⟩, p, hp, rfl, hstuck, fun hon => ?_⟩
    · rw [hactive] at h
      exact (Option.some.inj h).symm
    · rw [hon] at hoff
      cases hoff
  have hend : Nearing mv s id p (w * (stride s.tickMs mv.feedRate / mv.length))
      (Machine.after cs s) := by
    refine after_inMove hcs hstart ?_ ?_
    · intro y mv' hy h
      exact hy.tick happroach hlength hw hdelta h
    · intro y z hy hkeep
      refine ⟨hkeep.tickMs.trans hy.tickMs, fun mv' h => hy.goes mv' ?_, ?_⟩
      · rw [← hkeep.active, h]
      · rw [hkeep.motor?]
        exact hy.motor
  exact hend.motor

end Simulator

end Homing
