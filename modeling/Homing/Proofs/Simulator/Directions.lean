import Homing.Proofs.Exact.Scalar
import Homing.Proofs.Engine.Tally
import Homing.Proofs.Simulator.Faced
import Homing.Proofs.Simulator.Record

/-!
# Homing in either direction

All that a simulator is set up with is measured along the homing direction. So the settings `m`
and `m.turned F` have simulators that are set up alike (`SetUpAlike`), and in exact arithmetic a
request does the same to both: it ends with the same result after the same moves, which differ
in their targets alone, and leaves the motors of the axes of `F` mirrored (`home_turned`).
-/

namespace Homing

variable {K : Type u} [Field K] [LinearOrder K] [FloorRing K] [SquareRoot K]

namespace Simulator

/-! ## Simulators that are set up alike -/

/-- Two simulators, one of the settings `m` and one of `m.turned F`, that were set up in the same
way. A step counter is set to a number of its range. -/
inductive SetUpAlike (m : MachineSettings K) (F : AxisSet) : Simulator K → Simulator K → Prop
  | settings : SetUpAlike m F (ofSettings m) (ofSettings (m.turned F))
  | tickMs {x y : Simulator K} (ms : K) :
      SetUpAlike m F x y → SetUpAlike m F (x.withTickMs ms) (y.withTickMs ms)
  | switchDistance {x y : Simulator K} (n : Nat) (distance : K) : SetUpAlike m F x y →
      SetUpAlike m F (x.withSwitchDistance n distance) (y.withSwitchDistance n distance)
  | skew {x y : Simulator K} (n : Nat) (skew : K) :
      SetUpAlike m F x y → SetUpAlike m F (x.withSkew n skew) (y.withSkew n skew)
  | missingSwitch {x y : Simulator K} (id : Motor) :
      SetUpAlike m F x y → SetUpAlike m F (x.withMissingSwitch id) (y.withMissingSwitch id)
  | stuckLimit {x y : Simulator K} (id : Motor) :
      SetUpAlike m F x y → SetUpAlike m F (x.withStuckLimit id) (y.withStuckLimit id)
  | miswiredLimit {x y : Simulator K} (id : Motor) :
      SetUpAlike m F x y → SetUpAlike m F (x.withMiswiredLimit id) (y.withMiswiredLimit id)
  | startOnSwitch {x y : Simulator K} (n : Nat) :
      SetUpAlike m F x y → SetUpAlike m F (x.withStartOnSwitch n) (y.withStartOnSwitch n)
  | steps {x y : Simulator K} (n : Nat) (steps : Int) (hsteps : clampSteps steps = steps) :
      SetUpAlike m F x y → SetUpAlike m F (x.withSteps n steps) (y.withSteps n steps)
  | signalAt {x y : Simulator K} (index : Nat) (signals : Signals) : SetUpAlike m F x y →
      SetUpAlike m F (x.withSignalAt index signals) (y.withSignalAt index signals)
  | state {x y : Simulator K} (state : MachineState) :
      SetUpAlike m F x y → SetUpAlike m F (x.withState state) (y.withState state)

variable {m : MachineSettings K} {F A : AxisSet} {x y : Simulator K}

theorem SetUpAlike.setUp (h : SetUpAlike m F x y) : SetUp m x ∧ SetUp (m.turned F) y := by
  induction h with
  | settings => exact ⟨.settings, .settings⟩
  | tickMs ms _ ih => exact ⟨.tickMs ms ih.1, .tickMs ms ih.2⟩
  | switchDistance n d _ ih => exact ⟨.switchDistance n d ih.1, .switchDistance n d ih.2⟩
  | skew n d _ ih => exact ⟨.skew n d ih.1, .skew n d ih.2⟩
  | missingSwitch id _ ih => exact ⟨.missingSwitch id ih.1, .missingSwitch id ih.2⟩
  | stuckLimit id _ ih => exact ⟨.stuckLimit id ih.1, .stuckLimit id ih.2⟩
  | miswiredLimit id _ ih => exact ⟨.miswiredLimit id ih.1, .miswiredLimit id ih.2⟩
  | startOnSwitch n _ ih => exact ⟨.startOnSwitch n ih.1, .startOnSwitch n ih.2⟩
  | steps n k _ _ ih => exact ⟨.steps n k ih.1, .steps n k ih.2⟩
  | signalAt k signals _ ih => exact ⟨.signalAt k signals ih.1, .signalAt k signals ih.2⟩
  | state st _ ih => exact ⟨.state st ih.1, .state st ih.2⟩

/-- Nothing has happened yet to a simulator that was only set up. -/
theorem SetUpAlike.fresh (h : SetUpAlike m F x y) : x.active = none ∧ x.totals = {} := by
  induction h with
  | settings => exact ⟨rfl, rfl⟩
  | tickMs ms _ ih =>
      unfold withTickMs
      split <;> exact ih
  | _ => assumption

end Simulator

/-! ## Facing at the start -/

theorem SimMotor.turned_false (p : SimMotor K) : p.turned false = p := by
  unfold turned
  rw [Bool.xor_false]
  rfl

namespace SimAxis

variable {flip : Bool} {loose : Prop} {a b : SimAxis K}

theorem Facing.mapMotors (h : a.Facing flip loose b) {f : SimMotor K → SimMotor K}
    (hf : ∀ p, f (p.turned flip) = (f p).turned flip) :
    { a with motors := a.motors.map f }.Facing flip loose { b with motors := b.motors.map f } := by
  refine ⟨h.stepsPerMm, ?_, h.position⟩
  dsimp only
  rw [h.motors, List.map_map, List.map_map]
  exact List.map_congr_left fun p _ => hf p

theorem Facing.modifyMotor (h : a.Facing flip loose b) (side : Side) {f : SimMotor K → SimMotor K}
    (hf : ∀ p, f (p.turned flip) = (f p).turned flip) :
    (a.modifyMotor side f).Facing flip loose (b.modifyMotor side f) := by
  refine ⟨h.stepsPerMm, ?_, h.position⟩
  unfold SimAxis.modifyMotor
  dsimp only
  rw [h.motors]
  refine List.ext_getElem? fun i => ?_
  rw [List.getElem?_modify, List.getElem?_map, List.getElem?_map, List.getElem?_modify]
  cases a.motors[i]? with
  | none => rfl
  | some p =>
      simp only [Option.map_eq_map, Option.map_some]
      split
      · rw [hf]
      · rfl

/-- The axis of settings and the one of the reversed settings face each other. An axis that does
not home has no direction. -/
theorem facing_ofSettings [IsStrictOrderedRing K] (a : AxisSettings K)
    (hflip : flip = true → a.homing.isSome = true) :
    (ofSettings a).Facing flip loose (ofSettings (a.turned flip)) := by
  refine ⟨rfl, ?_, fun _ => ⟨rfl, ?_⟩⟩
  · unfold ofSettings AxisSettings.turned
    dsimp only
    rw [List.map_map]
    refine List.map_congr_left fun mo _ => ?_
    cases hh : a.homing with
    | none =>
        have hno : flip = false := by
          rw [hh] at hflip
          exact eq_false_of_ne_true fun htrue => Bool.false_ne_true (hflip htrue)
        rw [hno]
        exact (SimMotor.turned_false _).symm
    | some g =>
        dsimp only [Function.comp, Option.map_some, HomingSettings.turned, SimMotor.turned]
        cases flip <;> cases g.positiveDirection <;> simp [signed]
  · have hposition : (ofSettings a).position = 0 := Scalar.zero_exact
    have hsteps : (ofSettings a).steps = 0 := by
      have hround : Scalar.round (Scalar.ofInt 0 : K) = 0 := Scalar.round_ofInt rfl
      unfold SimAxis.steps
      rwa [hposition, zero_mul, ← Int.cast_zero]
    unfold SimAxis.rest
    rw [hsteps, hposition, Scalar.ofInt_exact, Int.cast_zero, zero_div]

end SimAxis

namespace Simulator

variable {m : MachineSettings K} {F A axes : AxisSet} {x y : Simulator K} {n : Nat}

theorem Facing.modifyAxis (h : Facing F A x y) {f : SimAxis K → SimAxis K}
    (hf : ∀ a b, x.axes[n]? = some a → a.Facing (n ∈ F) (n ∈ A) b →
      (f a).Facing (n ∈ F) (n ∈ A) (f b)) :
    Facing F A (x.modifyAxis n f) (y.modifyAxis n f) := by
  refine ⟨?_, fun k => ?_, h.active, h.moves⟩
  · obtain ⟨_, active, moves, rfl⟩ := h.eq
    exact ⟨_, active, moves, rfl⟩
  · have hrel := h.axes k
    change Option.Rel _ (x.axes.modify n f)[k]? (y.axes.modify n f)[k]?
    rw [List.getElem?_modify, List.getElem?_modify]
    generalize ha : x.axes[k]? = o at hrel
    generalize y.axes[k]? = o' at hrel
    cases hrel with
    | none => exact .none
    | @some a b hab =>
        refine .some ?_
        dsimp only
        by_cases hk : n = k
        · subst hk
          rw [if_pos rfl, if_pos rfl]
          exact hf a b ha hab
        · rw [if_neg hk, if_neg hk]
          exact hab

theorem Facing.modifyMotor (h : Facing F A x y) (id : Motor) {f : SimMotor K → SimMotor K}
    (hf : ∀ p, f (p.turned (id.axis ∈ F)) = (f p).turned (id.axis ∈ F)) :
    Facing F A (x.modifyMotor id f) (y.modifyMotor id f) :=
  h.modifyAxis fun _ _ _ hab => hab.modifyMotor id.side hf

variable [IsStrictOrderedRing K]

theorem facing_ofSettings (hF : ∀ n ∈ F, n ∈ m.homingAxes) :
    Facing F ∅ (ofSettings m) (ofSettings (m.turned F)) := by
  refine ⟨⟨_, none, [], rfl⟩, fun n => ?_, .none, rfl⟩
  unfold ofSettings
  dsimp only
  rw [List.getElem?_map, List.getElem?_map, List.getElem?_take, List.getElem?_take,
    MachineSettings.getElem?_turned]
  split
  · cases ha : m.axes[n]? with
    | none => exact .none
    | some a =>
        refine .some (SimAxis.facing_ofSettings a fun hn => ?_)
        obtain ⟨b, g, hb, hg⟩ :=
          MachineSettings.exists_of_mem_homingAxes (hF n (of_decide_eq_true hn))
        obtain rfl : a = b := Option.some.inj (ha.symm.trans hb)
        rw [hg, Option.isSome_some]
  · exact .none

theorem SetUpAlike.faced (h : SetUpAlike m F x y) (hm : m.Sound) (hF : ∀ n ∈ F, n ∈ m.homingAxes) :
    Faced m F ∅ x y := by
  have hbuilt {m : MachineSettings K} {s : Simulator K} (hs : SetUp m s) : BuiltFrom m s :=
    builtFrom_of_setUp (by simp [defaultTickMs]) hs
  refine ⟨hbuilt h.setUp.1, hbuilt h.setUp.2, ?_⟩
  induction h with
  | settings => exact facing_ofSettings hF
  | tickMs ms _ ih =>
      unfold withTickMs
      split
      · obtain ⟨axes, active, moves, rfl⟩ := ih.eq
        exact ⟨⟨axes, active, moves, rfl⟩, ih.axes, ih.active, ih.moves⟩
      · exact ih
  | switchDistance n distance _ ih =>
      refine ih.modifyAxis fun a b _ hab => hab.mapMotors fun p => ?_
      rw [p.towardSwitch_turned]
      rfl
  | skew n skew _ ih =>
      refine ih.modifyMotor ⟨n, .secondary⟩ fun p => ?_
      rw [p.towardSwitch_turned]
      unfold SimMotor.turned
      rw [signed_add]
  | missingSwitch id _ ih => exact ih.modifyMotor id fun _ => rfl
  | stuckLimit id _ ih => exact ih.modifyMotor id fun _ => rfl
  | startOnSwitch n _ ih => exact ih.modifyAxis fun a b _ hab => hab.mapMotors fun _ => rfl
  | @steps x y n steps hsteps hxy ih =>
      have hx := hbuilt hxy.setUp.1
      refine ih.modifyAxis fun a b ha hab => hab.setSteps steps fun _ => ?_
      have hspm := hx.stepsPerMm_ne hm (hx.exists_settings ha).1 ha
      refine rest_of_position hspm (Scalar.ofInt steps) ?_
      rw [Scalar.round_ofInt hsteps]
      rfl
  | miswiredLimit _ _ ih | signalAt _ _ _ ih | state _ _ ih =>
      obtain ⟨axes, active, moves, rfl⟩ := ih.eq
      exact ⟨⟨axes, active, moves, rfl⟩, ih.axes, ih.active, ih.moves⟩

/-! ## A request in either direction -/

/-- The simulator `y` is left as `x` is, but for the targets of its moves, with the motors of the
axes of `F` mirrored. -/
structure Mirrored (F : AxisSet) (x y : Simulator K) : Prop where
  /-- The state, the alarm, the waits, the polls and the exits from homing mode are the same. -/
  rest : y = x.recast y.axes y.active y.totals.moves
  moves : y.totals.moves.map Move.outline = x.totals.moves.map Move.outline
  /-- The axes that were homed have the same step counters. -/
  steps : ∀ S, (S, true) ∈ x.totals.exits → ∀ n ∈ S, y.steps n = x.steps n
  motor : ∀ id, y.motorPosition? id = (x.motorPosition? id).map (signed (id.axis ∈ F))

omit [IsStrictOrderedRing K] in
theorem Facing.mirrored (h : Facing F A x y)
    (hfirm : ∀ S, (S, true) ∈ x.totals.exits → ∀ n ∈ S, n ∉ A) : Mirrored F x y := by
  refine ⟨?_, h.moves, fun S hS n hn => ?_, fun id => ?_⟩
  · obtain ⟨_, _, _, rfl⟩ := h.eq
    rfl
  · have hrel := h.axes n
    unfold Simulator.steps
    generalize x.axes[n]? = o at hrel
    generalize y.axes[n]? = o' at hrel
    cases hrel with
    | none => rfl
    | some hab =>
        dsimp only
        unfold SimAxis.steps
        rw [hab.stepsPerMm, (hab.position (hfirm S hS n hn)).1]
  · unfold motorPosition?
    rw [h.motor?, Option.map_map, Option.map_map]
    rfl

/-- Homing does the same in either direction. Simulators that are set up alike, one with the
homing directions of the axes of `F` reversed, are led to the same result by the same moves, and
the motors of these axes end up mirrored. -/
theorem home_turned (budget : Nat) (request : Request) (hm : m.validate = .ok ())
    (hF : ∀ n ∈ F, n ∈ m.homingAxes) (h : SetUpAlike m F x y) :
    Option.Rel (fun e e' => e.1 = e'.1 ∧ Mirrored F e.2.machine e'.2.machine)
      (home budget m request x) (home budget (m.turned F) request y) := by
  have hsound := MachineSettings.sound_of_validate hm
  obtain ⟨hactive, htotals⟩ := h.fresh
  have hends : Option.Rel (RequestEnds (facedPairing m F)) (home budget m request x)
      (home budget (m.turned F) request y) :=
    home_coupled (coupling_turned hsound F) request ⟨h.faced hsound hF, hactive⟩
  generalize hrun : home budget m request x = o at hends
  generalize home budget (m.turned F) request y = o' at hends
  cases hends with
  | none => exact .none
  | some hend =>
      refine .some ?_
      cases hend with
      | between e hfaced =>
          exact ⟨rfl, hfaced.1.facing.mirrored fun _ _ n _ => AxisSet.not_mem_empty n⟩
      | @failed t _ f axes motors hin hexit =>
          -- The axes of the failed cycle may be anywhere, but none of them was committed.
          refine ⟨rfl, hin.faced.facing.mirrored fun S hS n hnS hloose => ?_⟩
          obtain ⟨cs, -, hmakes⟩ := requestRun_of_home hrun
          have hmachine : t.machine = Machine.after t.calls x := by
            have hcalls : t.calls = _ := hmakes.calls
            rw [hcalls]
            exact hmakes.machine
          change (S, true) ∈ t.machine.totals.exits at hS
          rw [hmachine, (record_after _ _).2, htotals] at hS
          have hfailed : (axes, false) ∈ exits t.calls := List.mem_filterMap.2 ⟨_, hexit, rfl⟩
          have hfalse := exits_unique_of_home hrun hS hfailed hnS (hin.subset n hloose)
          exact Bool.noConfusion hfalse

/-- The gantry and one whose squared axis homes to the other end. -/
theorem home_turned_gantry :
    gantry.validate = .ok () ∧ (∀ n ∈ AxisSet.single 0, n ∈ gantry.homingAxes) ∧
      ∃ y, SetUpAlike gantry (.single 0) skewedGantry y ∧
        ∃ t u, home 20 gantry .all skewedGantry = some (.ok (), t) ∧
          home 20 (gantry.turned (.single 0)) .all y = some (.ok (), u) ∧
          t.machine.motorPosition? ⟨0, .primary⟩ = some 2 ∧
          u.machine.motorPosition? ⟨0, .primary⟩ = some (-2) ∧
          Mirrored (.single 0) t.machine u.machine := by
  have hm : gantry.validate = .ok () := MachineSettings.validate_eq_ok_iff.2 (by decide +kernel)
  have hF : ∀ n ∈ AxisSet.single 0, n ∈ gantry.homingAxes := by
    intro n hn
    obtain ⟨rfl, -⟩ := AxisSet.mem_single.1 hn
    decide +kernel
  obtain ⟨y, halike⟩ : ∃ y, SetUpAlike gantry (.single 0) skewedGantry y :=
    ⟨_, .signalAt 1 .status (.skew 0 (1 / 2) (.tickMs 1000 .settings))⟩
  have hrun : (home 20 gantry .all skewedGantry).map (fun e =>
      (e.1, e.2.machine.motorPosition? ⟨0, .primary⟩)) = some (.ok (), some 2) := by
    decide +kernel
  obtain ⟨⟨r, t⟩, ht, heq⟩ := Option.map_eq_some_iff.1 hrun
  obtain ⟨rfl, hposition⟩ := Prod.mk.inj heq
  have hturned := home_turned 20 .all hm hF halike
  rw [ht] at hturned
  generalize hu : home 20 (gantry.turned (.single 0)) .all y = o at hturned
  cases hturned with
  | @some _ e hends =>
      obtain ⟨hresult, hmirrored⟩ := hends
      obtain ⟨r, u⟩ := e
      obtain rfl := hresult
      have hposition' := hmirrored.motor ⟨0, .primary⟩
      rw [hposition] at hposition'
      exact ⟨hm, hF, y, halike, t, u, ht, hu, hposition, hposition', hmirrored⟩

end Simulator

end Homing
