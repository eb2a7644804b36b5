import Homing.Proofs.Exact.Scalar
import Homing.Proofs.Simulator.Requests
import Homing.Proofs.Simulator.Turned

/-!
# Cycles of simulators that face each other

The settings `m` and `m.turned F` describe one machine and the same machine with some axes
built the other way round. `Faced` is what simulators of the two have in common in the course
of a run. The start of a phase keeps it, since the moves that the two plans make go opposite
ways along the axes of `F` (`Faced.start`), and so does the end of a cycle, after which no axis
is loose any more (`Faced.commit`). With these two parts of a run `coupling` leads the whole
run of one simulator beside that of the other.
-/

namespace Homing

variable {K : Type u} [Field K] [LinearOrder K] [FloorRing K] [SquareRoot K]

/-- The reference positions do not depend on the directions. -/
theorem committing_turned (m : MachineSettings K) (F axes : AxisSet) :
    committing (m.turned F) axes = committing m axes := by
  unfold committing
  refine List.filterMap_congr fun n _ => ?_
  rw [MachineSettings.getElem?_turned, Option.bind_map]
  refine congrArg _ (funext fun a => ?_)
  rw [Function.comp, AxisSettings.turned, Option.map_map]
  rfl

theorem closing_turned (m : MachineSettings K) (F axes : AxisSet) (r : Except Failure Unit) :
    closing (m.turned F) axes r = closing m axes r := by
  cases r with
  | error f => rfl
  | ok v => rw [closing, closing, committing_turned]

namespace Simulator

/-- Simulators of the settings `m` and `m.turned F` that face each other. -/
structure Faced (m : MachineSettings K) (F A : AxisSet) (x y : Simulator K) : Prop where
  built : BuiltFrom m x
  turned : BuiltFrom (m.turned F) y
  facing : Facing F A x y

variable {m : MachineSettings K} {F A axes : AxisSet} {motors : MotorSet} {phase : Phase}
  {x y : Simulator K} {mv mv' : Move K} [IsStrictOrderedRing K]

theorem Faced.after (h : Faced m F A x y) {cs : List (Call K)} (hcs : ∀ c ∈ cs, c.Unaimed) :
    Faced m F A (Machine.after cs x) (Machine.after cs y) :=
  ⟨h.built.after cs, h.turned.after cs, h.facing.after hcs⟩

omit [IsStrictOrderedRing K] in
theorem Faced.weaken {A' : AxisSet} (h : Faced m F A x y) (hle : ∀ n ∈ A, n ∈ A') :
    Faced m F A' x y :=
  ⟨h.built, h.turned, h.facing.weaken hle⟩

/-! ## The start of a phase -/

omit [IsStrictOrderedRing K] in
/-- Simulators that face each other take the moves of one phase opposite ways along `F`, and
nowhere beside the axes of its motors. -/
theorem Faced.deltaOn (h : Faced m F motors.axes x y)
    (hmotors : ∀ n ∈ motors.axes, n ∈ m.homingAxes)
    (hmv : mv.Carries m (planMove m motors phase) x)
    (hmv' : mv'.Carries (m.turned F) (planMove (m.turned F) motors phase) y) (n : Nat) :
    ((Machine.after (zeroing (planMove m motors phase).axes maxAxes) y).taken mv').deltaOn n =
        signed (n ∈ F) (((Machine.after
          (zeroing (planMove m motors phase).axes maxAxes) x).taken mv).deltaOn n) ∧
      (n ∉ motors.axes → ((Machine.after
        (zeroing (planMove m motors phase).axes maxAxes) x).taken mv).deltaOn n = 0) := by
  have hplanned : (planMove (m.turned F) motors phase).axes = (planMove m motors phase).axes := by
    rw [planMove_turned]
  have hrel := h.facing.axes n
  generalize ha : x.axes[n]? = o at hrel
  generalize hb : y.axes[n]? = o' at hrel
  cases hrel with
  | none =>
      rw [deltaOn_taken_of_none (h.built.axis_none_after ha _),
        deltaOn_taken_of_none (h.turned.axis_none_after hb _), signed_zero]
      exact ⟨rfl, fun _ => rfl⟩
  | @some a b hab =>
      have hlt := (h.built.exists_settings ha).1
      have hdelta := deltaOn_zeroed h.turned hmv' hlt hb
      rw [hplanned] at hdelta
      rw [hdelta, deltaOn_zeroed h.built hmv hlt ha]
      by_cases hn : n ∈ (planMove m motors phase).axes
      · have htarget := target_turned F hn
        rw [Vector.getElem?_eq_getElem hlt, Vector.getElem?_eq_getElem hlt,
          Option.map_some] at htarget
        rw [if_pos hn, if_pos hn]
        refine ⟨Option.some.inj htarget, fun hnot => ?_⟩
        obtain ⟨_, _, hp⟩ := mem_axes_planMove.1 hn
        exact absurd hp.motor hnot
      · have hfirm : n ∉ motors.axes := by
          intro hmem
          obtain ⟨c, g, hc, hg⟩ := MachineSettings.exists_of_mem_homingAxes (hmotors n hmem)
          exact hn (mem_axes_planMove.2 ⟨c, g, hc, hg, hmem⟩)
        obtain ⟨hposition, hrest⟩ := hab.position hfirm
        rw [if_neg hn, if_neg hn, hab.rest hfirm, hposition, hrest, sub_self, signed_zero]
        exact ⟨rfl, fun _ => rfl⟩

/-- The calls that start a phase keep simulators facing. -/
theorem Faced.start (h : Faced m F motors.axes x y) (hmotors : ∀ n ∈ motors.axes, n ∈ m.homingAxes)
    (hmv : mv.Carries m (planMove m motors phase) x)
    (hmv' : mv'.Carries (m.turned F) (planMove (m.turned F) motors phase) y) :
    Faced m F motors.axes (Machine.after (starting (planMove m motors phase) mv) x)
      (Machine.after (starting (planMove (m.turned F) motors phase) mv') y) := by
  have hplan := planMove_turned m F motors phase
  have hzeroed : (planMove (m.turned F) motors phase).axes = (planMove m motors phase).axes := by
    rw [hplan]
  have houtline : mv'.outline = mv.outline := by
    unfold Move.outline
    rw [hmv'.feedRate, hmv'.flags, hmv'.approach, hmv'.overrides, hplan, hmv.feedRate, hmv.flags,
      hmv.approach, hmv.overrides]
  have hin : ∀ n ∈ (planMove m motors phase).axes, n ∈ motors.axes := by
    intro n hn
    obtain ⟨_, _, hp⟩ := mem_axes_planMove.1 hn
    exact hp.motor
  have hdelta := h.deltaOn hmotors hmv hmv'
  refine ⟨h.built.after _, h.turned.after _, ?_⟩
  unfold starting
  rw [hzeroed, Machine.after_append, Machine.after_append]
  have hsubmitted := (h.facing.zeroing hin maxAxes).submit houtline (fun n => (hdelta n).1)
    fun n hn => (hdelta n).2 hn
  have hlaunching : ∀ c ∈ (launching : List (Call K)), c.Unaimed := by
    simp [launching, Call.Unaimed]
  exact hsubmitted.after hlaunching

/-! ## The end of a cycle -/

/-- The axes of a cycle that ended well stand on one step in both simulators. -/
theorem Faced.commit (h : Faced m F A x y) (hm : m.Sound) (haxes : ∀ n ∈ axes, n ∈ m.homingAxes)
    (hA : ∀ n ∈ A, n ∈ axes) (hnone : x.active = none) :
    Faced m F ∅ (Machine.after (closing m axes (.ok ())) x)
      (Machine.after (closing (m.turned F) axes (.ok ())) y) := by
  refine ⟨h.built.after _, h.turned.after _, ?_⟩
  obtain ⟨l, steps, hafter, hl, hsteps⟩ := after_closing haxes x
  obtain ⟨l', steps', hafter', hl', hsteps'⟩ := after_closing haxes y
  have hround : ∀ n ∈ axes, ∃ v : K, steps n = Scalar.round v ∧ steps' n = Scalar.round v := by
    intro n hn
    obtain ⟨a, g, ha, hg, hstep⟩ := hsteps n hn
    obtain ⟨b, k, hb, hk, hstep'⟩ := hsteps' n hn
    obtain rfl : a = b := Option.some.inj (ha.symm.trans hb)
    obtain rfl : g = k := Option.some.inj (hg.symm.trans hk)
    exact ⟨g.reference * a.stepsPerMm, hstep, hstep'⟩
  rw [closing_turned, hafter, hafter']
  refine ⟨?_, fun n => ?_, ?_, h.facing.moves⟩
  · obtain ⟨_, active, moves, rfl⟩ := h.facing.eq
    exact ⟨l', active, moves, rfl⟩
  · have hrel := h.facing.axes n
    change Option.Rel _ l[n]? l'[n]?
    rw [hl, hl']
    generalize ha : x.axes[n]? = o at hrel
    generalize y.axes[n]? = o' at hrel
    cases hrel with
    | none => exact .none
    | @some a b hab =>
        refine .some ?_
        dsimp only
        by_cases hn : n ∈ axes
        · obtain ⟨v, hv, hv'⟩ := hround n hn
          have hspm := h.built.stepsPerMm_ne hm (AxisSet.lt_of_mem hn) ha
          rw [if_pos hn, if_pos hn, hv, hv']
          exact hab.setSteps _ fun _ => rest_of_position hspm v rfl
        · rw [if_neg hn, if_neg hn]
          exact ⟨hab.stepsPerMm, hab.motors, fun _ => hab.position fun hmem => hn (hA n hmem)⟩
  · have hactive := h.facing.active
    change Option.Rel _ x.active y.active
    rw [hnone] at hactive ⊢
    generalize y.active = o at hactive ⊢
    cases hactive
    exact .none

/-! ## Runs side by side -/

/-- Simulators that face each other within a cycle of axes that home, with these motors. -/
structure InCycle (m : MachineSettings K) (F axes : AxisSet) (motors : MotorSet)
    (x y : Simulator K) : Prop where
  homing : axes ∩ m.homingAxes = axes
  subset : ∀ n ∈ motors.axes, n ∈ axes
  faced : Faced m F motors.axes x y

omit [IsStrictOrderedRing K] in
theorem InCycle.mem_homingAxes (h : InCycle m F axes motors x y) :
    ∀ n ∈ axes, n ∈ m.homingAxes := by
  intro n hn
  rw [← h.homing] at hn
  exact (AxisSet.mem_inter.1 hn).2

theorem InCycle.after (h : InCycle m F axes motors x y) {cs : List (Call K)}
    (hcs : ∀ c ∈ cs, c.Unaimed) :
    InCycle m F axes motors (Machine.after cs x) (Machine.after cs y) :=
  ⟨h.homing, h.subset, h.faced.after hcs⟩

/-- Between cycles no axis is loose, and nothing moves where no phase is in progress. -/
def facedPairing (m : MachineSettings K) (F : AxisSet) : Pairing (Simulator K) K where
  between p q := Faced m F ∅ p.machine q.machine ∧ p.machine.active = none
  within axes motors p q := InCycle m F axes motors p.machine q.machine ∧ p.machine.active = none
  before axes motors p q := InCycle m F axes motors p.machine q.machine
  after axes motors p q := InCycle m F axes motors p.machine q.machine

theorem loopCoupling_of_facing (m : MachineSettings K) (F axes : AxisSet) (motors : MotorSet) :
    LoopCoupling ((facedPairing m F).before axes motors)
      ((facedPairing m F).after axes motors) := by
  have hseen {p q : Track (Simulator K) K} (h : (facedPairing m F).before axes motors p q) :
      seen q.machine = seen p.machine := by
    obtain ⟨_, _, _, heq⟩ := h.faced.facing.refill.eq
    change (apply .refill q.machine).1.pending = (apply .refill p.machine).1.pending
    rw [heq]
    rfl
  refine ⟨id, fun h => h.faced.facing.limits, fun h => by rw [hseen h], fun {p q} h => ?_,
    fun h => h.after (by simp [Call.Unaimed]), fun h => h.after (by simp [Call.Unaimed])⟩
  rw [hseen h]
  exact h.after fun c hc => unaimed_of_inLoop (inLoop_of_mem_service hc)

/-- Simulators that face each other are led side by side by the settings they are built from. -/
theorem coupling_turned (hm : m.Sound) (F : AxisSet) :
    Coupling m (m.turned F) (facedPairing m F) where
  homingAxes := (m.homingAxes_turned F).symm
  axesInCycle k := (m.axesInCycle_turned F k).symm
  phasePlan motors := (phasePlan_turned m F motors).symm
  settle motors phase := by rw [planMove_turned]
  state h := by
    obtain ⟨_, _, _, heq⟩ := h.1.facing.eq
    exact (congrArg state heq).symm
  ambiguous {p q} h := by
    obtain ⟨_, _, _, heq⟩ := h.1.facing.eq
    change p.machine.limits.ambiguous = q.machine.limits.ambiguous
    rw [ambiguous_eq, ambiguous_eq, heq]
    rfl
  homeable h := funext h.1.facing.homeable
  setState s h := ⟨h.1.after (by simp [Call.Unaimed]), h.2⟩
  raiseAlarm a h := ⟨h.1.after (by simp [Call.Unaimed]), h.2⟩
  enter {p q axes} haxes h := by
    refine ⟨⟨haxes, fun n hn => ?_, ?_⟩, ?_⟩
    · by_contra hnot
      exact not_mem_homeable_axes hnot hn
    · have hweak : Faced m F (p.machine.homeable axes).axes p.machine q.machine :=
        h.1.weaken fun n hn => absurd hn (AxisSet.not_mem_empty n)
      have henter : ∀ c ∈ ([.enterHoming axes] : List (Call K)), c.Unaimed := by
        simp [Call.Unaimed]
      exact hweak.after henter
    · change p.machine.active.map _ = none
      rw [h.2, Option.map_none]
  limits h := h.1.faced.facing.limits
  start {axes motors phase s w} h := by
    obtain ⟨mv, hmv, hmakes, -⟩ := Session.beginPhase_spec m motors phase s
    obtain ⟨mv', hmv', hmakes', -⟩ := Session.beginPhase_spec (m.turned F) motors phase w
    rw [hmakes.track_eq, hmakes'.track_eq]
    have hin := h.1
    exact ⟨hin.homing, hin.subset,
      hin.faced.start (fun n hn => hin.mem_homingAxes n (hin.subset n hn)) hmv hmv'⟩
  loop axes motors := loopCoupling_of_facing m F axes motors
  rest ms h := ⟨h.after (by simp [Call.Unaimed]), rfl⟩
  commit {axes motors p q} h := by
    have hin := h.1
    refine ⟨hin.faced.commit hm hin.mem_homingAxes hin.subset h.2, ?_⟩
    obtain ⟨l, _, hafter, -, -⟩ := after_closing hin.mem_homingAxes p.machine
    change (Machine.after (closing m axes (.ok ())) p.machine).active = none
    rw [hafter]
    exact h.2
  abandon {axes motors p q} f h := by
    rw [closing_turned]
    exact h.after (by simp [closing, Call.Unaimed])

end Simulator

end Homing
