import Homing.Proofs.Exact.Scalar
import Homing.Proofs.Engine.Coupled
import Homing.Proofs.Plan.Turned
import Homing.Proofs.Simulator.Launch

/-!
# Simulators with reversed axes

Two simulators face each other (`Facing F A`) when the motors of the axes of `F` are
reflections of each other and all other motors are the same. The commanded positions are the
same where they matter: an axis that takes part in the current cycle, which is one of `A`, may
stand anywhere, as every phase zeroes it before it moves, and every other axis stands on the
same step in both and is not moved.

In exact arithmetic a tick keeps this, since a motor and its reflection reach their switches
together, and so does every call but the hand-over of a move. For that one the two moves have
to go opposite ways along the axes of `F` (`Facing.submit`).
-/

namespace Homing

variable {K : Type u} [Field K] [LinearOrder K] [FloorRing K] [SquareRoot K]

/-! ## Motors and axes -/

/-- The motor reflected at zero where `flip` says so. -/
def SimMotor.turned (flip : Bool) (p : SimMotor K) : SimMotor K :=
  { p with
    position := signed flip p.position
    switchAt := signed flip p.switchAt
    positive := p.positive ^^ flip }

namespace SimMotor

theorem towardSwitch_turned (flip : Bool) (p : SimMotor K) (distance : K) :
    (p.turned flip).towardSwitch distance = signed flip (p.towardSwitch distance) := by
  unfold towardSwitch turned
  cases flip <;> cases p.positive <;> simp [signed]

theorem advance_turned (flip : Bool) (p : SimMotor K) (distance : K) :
    (p.turned flip).advance (signed flip distance) = (p.advance distance).turned flip := by
  unfold advance turned
  rw [signed_add]

/-- A motor and its reflection stand on their switches together. -/
theorem limitActive_turned [IsStrictOrderedRing K] (flip : Bool) (p : SimMotor K) :
    (p.turned flip).limitActive = p.limitActive := by
  unfold limitActive turned
  cases flip <;> cases p.positive <;> simp [signed]

end SimMotor

namespace SimAxis

/-- Two axes with motors that are reflections of each other where `flip` says so. Unless the
axis is loose, both stand on the same step. -/
structure Facing (flip : Bool) (loose : Prop) (a b : SimAxis K) : Prop where
  stepsPerMm : b.stepsPerMm = a.stepsPerMm
  motors : b.motors = a.motors.map (·.turned flip)
  position : ¬ loose → b.position = a.position ∧ a.rest = a.position

variable {flip : Bool} {loose loose' : Prop} {a b : SimAxis K}

theorem Facing.sides (h : a.Facing flip loose b) :
    b.sides = a.sides.map fun e => (e.1, e.2.turned flip) := by
  unfold SimAxis.sides
  rw [h.motors, List.zip_map_right]
  rfl

theorem Facing.motor? (h : a.Facing flip loose b) (side : Side) :
    b.motor? side = (a.motor? side).map (·.turned flip) := by
  unfold SimAxis.motor?
  rw [h.motors, List.getElem?_map]

theorem Facing.rest (h : a.Facing flip loose b) (hfirm : ¬ loose) : b.rest = a.rest := by
  unfold SimAxis.rest steps
  rw [h.stepsPerMm, (h.position hfirm).1]

theorem Facing.weaken (h : a.Facing flip loose b) (hle : loose → loose') :
    a.Facing flip loose' b :=
  ⟨h.stepsPerMm, h.motors, fun hfirm => h.position fun hloose => hfirm (hle hloose)⟩

theorem Facing.setSteps (h : a.Facing flip loose b) (steps : Int)
    (hrest : ¬ loose' → (a.setSteps steps).rest = (a.setSteps steps).position) :
    (a.setSteps steps).Facing flip loose' (b.setSteps steps) := by
  refine ⟨h.stepsPerMm, h.motors, fun hfirm => ⟨?_, hrest hfirm⟩⟩
  unfold SimAxis.setSteps
  rw [h.stepsPerMm]

/-- What a tick does to the motor on a side of axis `n`, and whether the motor steps. -/
def carry (overrides : Overrides) (approach : Bool) (distance : K) (n : Nat)
    (e : Side × SimMotor K) : SimMotor K × Bool :=
  match motorTravel overrides approach distance ⟨n, e.1⟩ e.2 with
  | some d => (e.2.advance d, true)
  | none => (e.2, false)

theorem step_of_ne {overrides : Overrides} {approach : Bool} {delta : K} (hdelta : delta ≠ 0)
    (fraction : K) (n : Nat) (a : SimAxis K) :
    a.step overrides approach delta fraction n =
      ({ a with
          position := a.position + delta * fraction
          motors := (a.sides.map (carry overrides approach (delta * fraction) n)).map (·.1) },
        (a.sides.map (carry overrides approach (delta * fraction) n)).any (·.2)) := by
  unfold SimAxis.step
  rw [if_neg (by simpa using hdelta)]
  rfl

variable [IsStrictOrderedRing K] {overrides : Overrides} {approach : Bool} {n : Nat}

theorem carry_turned (distance : K) (side : Side) (flip : Bool) (p : SimMotor K) :
    carry overrides approach (signed flip distance) n (side, p.turned flip) =
      Prod.map (·.turned flip) id (carry overrides approach distance n (side, p)) := by
  have htravel : motorTravel overrides approach (signed flip distance) ⟨n, side⟩ (p.turned flip) =
      (motorTravel overrides approach distance ⟨n, side⟩ p).map (signed flip) := by
    rw [Simulator.motorTravel_exact, Simulator.motorTravel_exact, p.limitActive_turned]
    split <;> rfl
  unfold carry
  rw [htravel]
  cases motorTravel overrides approach distance ⟨n, side⟩ p with
  | none => rfl
  | some d => exact congrArg (·, true) (p.advance_turned flip d)

/-- A tick takes two facing axes opposite ways, and a motor steps in both or in none. -/
theorem Facing.step {delta : K} (h : a.Facing flip loose b) (hstill : ¬ loose → delta = 0)
    (fraction : K) :
    (a.step overrides approach delta fraction n).1.Facing flip loose
        (b.step overrides approach (signed flip delta) fraction n).1 ∧
      (b.step overrides approach (signed flip delta) fraction n).2 =
        (a.step overrides approach delta fraction n).2 := by
  by_cases hdelta : delta = 0
  · have hsigned : signed flip delta = 0 := (signed_eq_zero flip delta).2 hdelta
    unfold SimAxis.step
    rw [if_pos (by simp [hdelta]), if_pos (by simp [hsigned])]
    exact ⟨h, rfl⟩
  have hsigned : signed flip delta ≠ 0 := fun he => hdelta ((signed_eq_zero flip delta).1 he)
  have hloose : loose := not_not.1 fun hfirm => hdelta (hstill hfirm)
  have hcarried : b.sides.map (carry overrides approach (signed flip delta * fraction) n) =
      (a.sides.map (carry overrides approach (delta * fraction) n)).map
        (Prod.map (·.turned flip) id) := by
    rw [h.sides, List.map_map, List.map_map, signed_mul]
    exact List.map_congr_left fun e _ => carry_turned _ e.1 flip e.2
  rw [step_of_ne hdelta, step_of_ne hsigned, hcarried]
  refine ⟨⟨h.stepsPerMm, ?_, fun hfirm => absurd hloose hfirm⟩, ?_⟩
  · dsimp only
    rw [List.map_map, List.map_map, List.map_map, List.map_map]
    rfl
  · dsimp only
    rw [List.any_map]
    rfl

end SimAxis

/-! ## Moves -/

/-- Two moves in progress that go opposite ways along the axes of `F`, and nowhere along the axes
that are not in `A`. -/
structure ActiveMove.Facing (F A : AxisSet) (mv mv' : ActiveMove K) : Prop where
  eq : mv' = { mv with delta := mv'.delta }
  deltaOn : ∀ n, mv'.deltaOn n = signed (n ∈ F) (mv.deltaOn n)
  still : ∀ n ∉ A, mv.deltaOn n = 0

/-- Reversing displacements changes no length. -/
theorem lengthOf_signed {mv mv' : ActiveMove K} {flip : Nat → Bool}
    (h : ∀ n, mv'.deltaOn n = signed (flip n) (mv.deltaOn n)) :
    lengthOf mv'.delta = lengthOf mv.delta := by
  have hsquares : mv'.delta.toList.map (fun d => d * d) = mv.delta.toList.map fun d => d * d := by
    refine List.ext_getElem (by simp) fun n hn hn' => ?_
    have hlt : n < maxAxes := by simpa using hn
    have hn := h n
    unfold ActiveMove.deltaOn at hn
    rw [Vector.getElem?_eq_getElem hlt, Vector.getElem?_eq_getElem hlt, Option.getD_some,
      Option.getD_some] at hn
    rw [List.getElem_map, List.getElem_map, Vector.getElem_toList, Vector.getElem_toList, hn,
      signed_mul_self]
  unfold lengthOf
  rw [← List.foldl_map (f := fun d => d * d) (g := fun sum e => sum + e), hsquares, List.foldl_map]

/-- What a move has besides its target. -/
def Move.outline {α : Type u} (mv : Move α) : α × MotionFlags × Bool × Overrides :=
  (mv.feedRate, mv.flags, mv.approach, mv.overrides)

/-- A call that neither hands over a move nor sets a step counter. -/
def Call.Unaimed {α : Type u} (c : Call α) : Prop :=
  (∀ mv, c ≠ .submit mv) ∧ ∀ n steps, c ≠ .setSteps n steps

theorem unaimed_of_inLoop {α : Type u} {c : Call α} (hc : c.InLoop) : c.Unaimed := by
  cases hc <;> exact ⟨nofun, nofun⟩

namespace Simulator

/-- The simulator with other axes, another move in progress and other moves listed. -/
def recast (axes : List (SimAxis K)) (active : Option (ActiveMove K)) (moves : List (Move K))
    (x : Simulator K) : Simulator K :=
  { x with axes, active, totals := { x.totals with moves } }

/-- Two simulators that are reflections of each other on the axes of `F`, while those of `A` take
part in a cycle. -/
structure Facing (F A : AxisSet) (x y : Simulator K) : Prop where
  eq : ∃ axes active moves, y = x.recast axes active moves
  axes : ∀ n : Nat, Option.Rel (SimAxis.Facing (n ∈ F) (n ∈ A)) x.axes[n]? y.axes[n]?
  active : Option.Rel (ActiveMove.Facing F A) x.active y.active
  moves : y.totals.moves.map Move.outline = x.totals.moves.map Move.outline

variable {F A : AxisSet} {x y : Simulator K} {mv mv' : ActiveMove K}

theorem Facing.weaken {A' : AxisSet} (h : Facing F A x y) (hle : ∀ n ∈ A, n ∈ A') :
    Facing F A' x y :=
  ⟨h.eq, fun n => rel_mono (h.axes n) fun _ _ hab => hab.weaken (hle n),
    rel_mono h.active fun _ _ hmv => ⟨hmv.eq, hmv.deltaOn, fun n hn => hmv.still n (hn ∘ hle n)⟩,
    h.moves⟩

theorem Facing.motor? (h : Facing F A x y) (id : Motor) :
    y.motor? id = (x.motor? id).map (·.turned (id.axis ∈ F)) := by
  unfold Simulator.motor?
  have haxis := h.axes id.axis
  generalize x.axes[id.axis]? = o at haxis ⊢
  generalize y.axes[id.axis]? = o' at haxis ⊢
  cases haxis with
  | none => rfl
  | some hab => exact hab.motor? id.side

theorem Facing.homeable (h : Facing F A x y) (axes : AxisSet) :
    x.homeable axes = y.homeable axes := by
  ext id
  rw [mem_homeable, mem_homeable, h.motor?]
  refine and_congr_right fun _ => ⟨?_, ?_⟩
  · rintro ⟨p, hp, hhomes⟩
    exact ⟨p.turned _, by rw [hp, Option.map_some], hhomes⟩
  · rintro ⟨q, hq, hhomes⟩
    obtain ⟨p, hp, rfl⟩ := Option.map_eq_some_iff.1 hq
    exact ⟨p, hp, hhomes⟩

variable [IsStrictOrderedRing K]

theorem Facing.limits (h : Facing F A x y) :
    (Machine.limits x).active = (Machine.limits y).active := by
  have hmiswired : y.miswired = x.miswired := by
    obtain ⟨_, _, _, rfl⟩ := h.eq
    rfl
  ext id
  rw [Simulator.mem_active, Simulator.mem_active, h.motor?, hmiswired]
  refine or_congr_left (and_congr_right fun _ => ⟨?_, ?_⟩)
  · rintro ⟨p, hp, hon⟩
    exact ⟨p.turned _, by rw [hp, Option.map_some], (p.limitActive_turned _).trans hon⟩
  · rintro ⟨q, hq, hon⟩
    obtain ⟨p, hp, rfl⟩ := Option.map_eq_some_iff.1 hq
    exact ⟨p, hp, (p.limitActive_turned _).symm.trans hon⟩

/-! ## A tick -/

omit [IsStrictOrderedRing K] in
theorem tick_eq (x : Simulator K) (mv : ActiveMove K) : (x.tick mv).1 = { x with
    axes := (x.tick mv).1.axes
    active := (x.tick mv).1.active
    running := (x.tick mv).1.running
    pending := (x.tick mv).1.pending } := by
  unfold tick
  dsimp only
  split <;> rfl

omit [IsStrictOrderedRing K] in
/-- Facing moves are as long as each other and equally far on. -/
theorem Facing.tickLength (h : Facing F A x y) (hmv : mv.Facing F A mv') :
    Simulator.tickLength y.tickMs mv' = Simulator.tickLength x.tickMs mv ∧
      y.fraction mv' = x.fraction mv ∧ y.raised mv' = x.raised mv := by
  obtain ⟨_, _, _, rfl⟩ := h.eq
  rw [hmv.eq]
  exact ⟨rfl, rfl, rfl⟩

/-- A tick takes each two facing axes opposite ways. -/
theorem Facing.step_axes (h : Facing F A x y) (hmv : mv.Facing F A mv') (n : Nat) :
    Option.Rel (fun e f => e.1.Facing (n ∈ F) (n ∈ A) f.1 ∧ f.2 = e.2)
      ((x.axes[n]?).map fun a => a.step mv.overrides mv.approach (mv.deltaOn n) (x.fraction mv) n)
      ((y.axes[n]?).map fun b =>
        b.step mv'.overrides mv'.approach (mv'.deltaOn n) (y.fraction mv') n) := by
  refine rel_map (h.axes n) fun a b hab => ?_
  have hoverrides : mv'.overrides = mv.overrides := by rw [hmv.eq]
  have happroach : mv'.approach = mv.approach := by rw [hmv.eq]
  rw [hoverrides, happroach, hmv.deltaOn, (h.tickLength hmv).2.1]
  exact hab.step (hmv.still n) _

/-- In facing simulators a motor steps in both or in none. -/
theorem Facing.any_stepped (h : Facing F A x y) (hmv : mv.Facing F A mv') :
    (y.stepped mv').any (·.2) = (x.stepped mv).any (·.2) := by
  have hany (s : Simulator K) (mv : ActiveMove K) :
      (s.stepped mv).any (·.2) = ((s.stepped mv).map (·.2)).any id := by
    rw [List.any_map]
    rfl
  have hget (s : Simulator K) (mv : ActiveMove K) (n : Nat) : ((s.stepped mv).map (·.2))[n]? =
      ((s.axes[n]?).map fun a =>
        a.step mv.overrides mv.approach (mv.deltaOn n) (s.fraction mv) n).map (·.2) := by
    unfold stepped
    rw [List.getElem?_map, List.getElem?_map, List.getElem?_zipIdx, Option.map_map]
    simp [Function.comp_def]
  rw [hany, hany]
  refine congrArg (List.any · id) (List.ext_getElem? fun n => ?_)
  rw [hget, hget]
  have haxes := h.step_axes hmv n
  generalize (x.axes[n]?).map _ = o at haxes ⊢
  generalize (y.axes[n]?).map _ = o' at haxes ⊢
  cases haxes with
  | none => rfl
  | some hab => exact congrArg some hab.2

/-- The same signals are raised. -/
theorem Facing.pending_tick (h : Facing F A x y) (hmv : mv.Facing F A mv') :
    (y.tick mv').1.pending = (x.tick mv).1.pending := by
  obtain ⟨hlength, -, hraised⟩ := h.tickLength hmv
  have happroach : mv'.approach = mv.approach := by rw [hmv.eq]
  rw [Simulator.pending_tick, Simulator.pending_tick, hlength, hraised, happroach,
    h.any_stepped hmv]

omit [IsStrictOrderedRing K] in
/-- Facing moves come to their ends together. -/
theorem Facing.active_tick (h : Facing F A x y) (hmv : mv.Facing F A mv') :
    (y.tick mv').1.running = (x.tick mv).1.running ∧
      Option.Rel (ActiveMove.Facing F A) (x.tick mv).1.active (y.tick mv').1.active := by
  have hlength := (h.tickLength hmv).1
  have hrunning : y.running = x.running := by
    obtain ⟨_, _, _, rfl⟩ := h.eq
    rfl
  rcases tick_cases (s := x) mv with ⟨hend, hactive, hrun⟩ | ⟨hend, hrun, hactive⟩
  · rcases tick_cases (s := y) mv' with ⟨-, hactive', hrun'⟩ | ⟨hend', -, -⟩
    · rw [hactive, hactive', hrun, hrun']
      exact ⟨rfl, .none⟩
    · rw [hlength, hend] at hend'
      cases hend'
  · rcases tick_cases (s := y) mv' with ⟨hend', -, -⟩ | ⟨-, hrun', hactive'⟩
    · rw [hlength, hend] at hend'
      cases hend'
    · rw [hactive, hactive', hrun, hrun', hlength]
      refine ⟨hrunning, .some ⟨?_, hmv.deltaOn, hmv.still⟩⟩
      rw [hmv.eq]

theorem Facing.tick (h : Facing F A x y) (hmv : mv.Facing F A mv') :
    Facing F A (x.tick mv).1 (y.tick mv').1 := by
  obtain ⟨hrunning, hactive⟩ := h.active_tick hmv
  refine ⟨?_, fun n => ?_, hactive, ?_⟩
  · have hpending := h.pending_tick hmv
    obtain ⟨axes, active, moves, rfl⟩ := h.eq
    have hx := tick_eq x mv
    have hy := tick_eq (x.recast axes active moves) mv'
    rw [hpending, hrunning] at hy
    refine ⟨((x.recast axes active moves).tick mv').1.axes,
      ((x.recast axes active moves).tick mv').1.active, moves, hy.trans ?_⟩
    rw [hx]
    rfl
  · have haxes := rel_map (S := SimAxis.Facing (n ∈ F) (n ∈ A)) (h.step_axes hmv n)
      fun _ _ hab => hab.1
    rw [Option.map_map, Option.map_map] at haxes
    rw [axes_tick, axes_tick]
    exact haxes
  · rw [tick_eq y, tick_eq x]
    exact h.moves

/-! ## Calls -/

theorem Facing.refill (h : Facing F A x y) :
    Facing F A (apply .refill x).1 (apply .refill y).1 := by
  have hrunning : y.running = x.running := by
    obtain ⟨_, _, _, rfl⟩ := h.eq
    rfl
  have hactive := h.active
  change Facing F A x.refill.1 y.refill.1
  unfold Simulator.refill
  rw [hrunning]
  generalize x.active = o at hactive
  generalize y.active = o' at hactive
  cases x.running with
  | false => exact h
  | true =>
      cases hactive with
      | none => exact h
      | some hmv => exact h.tick hmv

theorem Facing.apply (h : Facing F A x y) {c : Call K} (hc : c.Unaimed) :
    Facing F A (apply c x).1 (apply c y).1 := by
  by_cases hrefill : c = .refill
  · rw [hrefill]
    exact h.refill
  have hsome : y.active.isSome = x.active.isSome := by
    have hactive := h.active
    generalize x.active = o at hactive
    generalize y.active = o' at hactive
    cases hactive <;> rfl
  obtain ⟨⟨axes, active, moves, rfl⟩, haxes, hactive, hmoves⟩ := h
  cases c with
  | submit mv => exact absurd rfl (hc.1 mv)
  | setSteps n steps => exact absurd rfl (hc.2 n steps)
  | refill => exact absurd rfl hrefill
  | start =>
      have heq := congrArg (fun b => { x.recast axes active moves with running := b }) hsome
      exact ⟨⟨axes, active, moves, heq⟩, haxes, hactive, hmoves⟩
  | halt => exact ⟨⟨axes, none, moves, rfl⟩, haxes, .none, hmoves⟩
  | resetMotion => exact ⟨⟨axes, none, moves, rfl⟩, haxes, .none, hmoves⟩
  | enterHoming S =>
      refine ⟨⟨axes, _, moves, rfl⟩, haxes, rel_map hactive fun mv mv' hmv => ?_, hmoves⟩
      refine ⟨?_, hmv.deltaOn, hmv.still⟩
      rw [hmv.eq]
  | _ => exact ⟨⟨axes, active, moves, rfl⟩, haxes, hactive, hmoves⟩

theorem Facing.after (h : Facing F A x y) {cs : List (Call K)} (hcs : ∀ c ∈ cs, c.Unaimed) :
    Facing F A (Machine.after cs x) (Machine.after cs y) := by
  induction cs generalizing x y with
  | nil => exact h
  | cons c cs ih =>
      rw [List.forall_mem_cons] at hcs
      exact ih (h.apply hcs.1) hcs.2

omit [IsStrictOrderedRing K] in
/-- Axes of the cycle may be zeroed, wherever they stand. -/
theorem Facing.zeroing (h : Facing F A x y) {axes : AxisSet} (haxes : ∀ n ∈ axes, n ∈ A) (k : Nat) :
    Facing F A (Machine.after (zeroing axes k) x) (Machine.after (zeroing axes k) y) := by
  obtain ⟨l, hafter, hl⟩ := after_zeroing axes k x
  obtain ⟨l', hafter', hl'⟩ := after_zeroing axes k y
  rw [hafter, hafter']
  refine ⟨?_, fun n => ?_, h.active, h.moves⟩
  · obtain ⟨_, active, moves, rfl⟩ := h.eq
    exact ⟨l', active, moves, rfl⟩
  · dsimp only
    rw [hl, hl']
    refine rel_map (h.axes n) fun a b hab => ?_
    split
    · rename_i hn
      exact hab.setSteps 0 fun hfirm => absurd (haxes n hn.1) hfirm
    · exact hab

omit [IsStrictOrderedRing K] in
/-- Two moves with one outline may be handed over that go opposite ways along `F`, and nowhere
beside the axes of the cycle. -/
theorem Facing.submit (h : Facing F A x y) {mv mv' : Move K} (houtline : mv'.outline = mv.outline)
    (hdelta : ∀ n, (y.taken mv').deltaOn n = signed (n ∈ F) ((x.taken mv).deltaOn n))
    (hstill : ∀ n ∉ A, (x.taken mv).deltaOn n = 0) :
    Facing F A (x.submit mv).1 (y.submit mv').1 := by
  refine ⟨?_, h.axes, .some ⟨?_, hdelta, hstill⟩, ?_⟩
  · obtain ⟨axes, active, moves, rfl⟩ := h.eq
    exact ⟨axes, _, _, rfl⟩
  · have hlength := lengthOf_signed hdelta
    have hindex : y.totals.moves.length = x.totals.moves.length := by
      simpa using congrArg List.length h.moves
    simp only [Move.outline, Prod.mk.injEq] at houtline
    obtain ⟨hfeedRate, -, happroach, hoverrides⟩ := houtline
    change y.taken mv' = { x.taken mv with delta := (y.taken mv').delta }
    rw [taken_eq y mv', taken_eq x mv]
    dsimp only
    rw [hindex, hlength, hfeedRate, happroach, hoverrides]
  · change (y.totals.moves ++ [mv']).map _ = (x.totals.moves ++ [mv]).map _
    rw [List.map_append, List.map_append, h.moves, List.map_singleton, List.map_singleton, houtline]

end Simulator

end Homing
