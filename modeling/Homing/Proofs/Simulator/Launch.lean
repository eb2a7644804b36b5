import Homing.Proofs.Exact.Scalar
import Homing.Proofs.Engine.PhaseRun
import Homing.Proofs.Plan.Travel
import Homing.Proofs.Simulator.Build
import Homing.Proofs.Simulator.Motion

/-!
# How a phase sets a simulator in motion

A phase zeroes the axes that take part and hands its move over. `Launch` says what the
simulator has then: the displacements of these axes are those of the plan, and every
other axis is to go to the position of its step count, which is a drift of at most
part of a step (`drift`) and none for an axis that stands on a step.
-/

namespace Homing

variable {K : Type u} [Field K] [LinearOrder K] [FloorRing K] [SquareRoot K]

/-- The calls between the hand-over of a move and the loop of its phase. -/
def launching : List (Call K) := [.refill, .start]

/-- The length of a vector of displacements. -/
def lengthOf (delta : PerAxis K) : K :=
  Scalar.sqrt (delta.toList.foldl (fun sum d => sum + d * d) 0.0)

theorem lengthOf_spec [IsStrictOrderedRing K] (delta : PerAxis K) :
    0 ≤ lengthOf delta ∧ (lengthOf delta = 0 → ∀ d ∈ delta.toList, d = 0) := by
  have key (ds : List K) (c : K) (hc : 0 ≤ c) :
      c ≤ ds.foldl (fun sum d => sum + d * d) c ∧
        (ds.foldl (fun sum d => sum + d * d) c = 0 → ∀ d ∈ ds, d = 0) := by
    induction ds generalizing c with
    | nil => exact ⟨le_rfl, fun _ d hd => absurd hd List.not_mem_nil⟩
    | cons e ds ih =>
        have hsquare : 0 ≤ e * e := mul_self_nonneg e
        obtain ⟨hle, hall⟩ := ih (c + e * e) (add_nonneg hc hsquare)
        refine ⟨(le_add_of_nonneg_right hsquare).trans hle, fun hzero d hd => ?_⟩
        rcases List.mem_cons.1 hd with rfl | hd
        · have hnone : d * d ≤ 0 := by
            rw [List.foldl_cons] at hzero
            rw [hzero] at hle
            linarith
          exact mul_self_eq_zero.1 (le_antisymm hnone hsquare)
        · exact hall hzero d hd
  obtain ⟨hle, hall⟩ := key delta.toList 0.0 (by simp)
  rw [Scalar.zero_exact] at hle
  unfold lengthOf
  rw [Scalar.sqrt_exact]
  rcases hle.eq_or_lt with hzero | hpos
  · rw [Scalar.zero_exact] at hall ⊢
    rw [← hzero]
    exact ⟨SquareRoot.sqrt_zero.ge, fun _ => hall hzero.symm⟩
  · rw [Scalar.zero_exact]
    have hroot := SquareRoot.sqrt_pos hpos
    exact ⟨hroot.le, fun h => absurd h hroot.ne'⟩

/-- A vector along one axis is as long as its displacement there. -/
theorem lengthOf_eq_abs [IsStrictOrderedRing K] [ExactRoot K] {delta : PerAxis K} {n : Nat} {d : K}
    (hd : delta[n]? = some d) (hzero : ∀ k e, delta[k]? = some e → k ≠ n → e = 0) :
    lengthOf delta = |d| := by
  have key (ds : List K) (k : Nat) (c : K) (hds : ∀ i e, ds[i]? = some e → i ≠ k → e = 0) :
      ds.foldl (fun sum e => sum + e * e) c = c + (ds[k]?).getD 0 * (ds[k]?).getD 0 := by
    induction ds generalizing k c with
    | nil => simp
    | cons e ds ih =>
        cases k with
        | zero =>
            have hrest := ih ds.length (c + e * e) fun i e' he' _ => hds (i + 1) e' he' (by omega)
            simpa using hrest
        | succ k =>
            obtain rfl : e = 0 := hds 0 e rfl (by omega)
            have hrest := ih k (c + 0 * 0) fun i e' he' hi => hds (i + 1) e' he' (by omega)
            simpa using hrest
  have hlist (k : Nat) : delta.toList[k]? = delta[k]? := by simp
  have hsum := key delta.toList n 0.0 fun k e he hk => hzero k e (by rw [← hlist, he]) hk
  rw [hlist, hd, Option.getD_some, Scalar.zero_exact, zero_add] at hsum
  rw [lengthOf, Scalar.zero_exact, hsum]
  exact ExactRoot.sqrt_mul_self d

/-- The position of the step count of an axis. -/
def SimAxis.rest (a : SimAxis K) : K := Scalar.ofInt a.steps / a.stepsPerMm

namespace Simulator

variable {s : Simulator K} {n : Nat}

/-- How far an axis is from the position of its step count. -/
def drift (s : Simulator K) (n : Nat) : K :=
  match s.axes[n]? with
  | some a => a.rest - a.position
  | none => 0

/-- What a simulator makes of a move that is handed over. -/
def taken (s : Simulator K) (move : Move K) : ActiveMove K := (s.submit move).1.active.get rfl

theorem taken_eq (s : Simulator K) (move : Move K) : s.taken move = {
    index := s.totals.moves.length, delta := (s.taken move).delta
    length := lengthOf (s.taken move).delta, travelled := 0.0, feedRate := move.feedRate
    approach := move.approach, overrides := move.overrides, ticks := 0 } :=
  rfl

theorem active_submit (move : Move K) : (s.submit move).1.active = some (s.taken move) := rfl

/-- The way of an axis goes from where it stands to its target. -/
theorem deltaOn_taken {move : Move K} {d : K} (htarget : move.target[n]? = some d) :
    (s.taken move).deltaOn n = (s.axes[n]?).elim 0 fun a => d - a.position := by
  obtain ⟨hlt, rfl⟩ := Vector.getElem?_eq_some_iff.1 htarget
  obtain ⟨f, hdelta, hf⟩ : ∃ f, (s.taken move).delta = Vector.ofFn f ∧ ∀ i : Fin maxAxes,
      f i = (s.axes[i.val]?).elim 0 fun a => move.target[i] - a.position := by
    refine ⟨_, rfl, fun i => ?_⟩
    cases s.axes[i.val]? with
    | none => exact (Scalar.zero_exact : (0.0 : K) = 0)
    | some a => rfl
  unfold ActiveMove.deltaOn
  rw [hdelta, Vector.getElem?_ofFn, dif_pos hlt, Option.getD_some, hf]
  rfl

theorem deltaOn_taken_of_none {move : Move K} (hnone : s.axes[n]? = none) :
    (s.taken move).deltaOn n = 0 := by
  by_cases hlt : n < maxAxes
  · rw [deltaOn_taken (Vector.getElem?_eq_getElem hlt), hnone, Option.elim_none]
  · unfold ActiveMove.deltaOn
    rw [Vector.getElem?_eq_none (Nat.le_of_not_lt hlt), Option.getD_none, Scalar.zero_exact]

theorem taken_sound [IsStrictOrderedRing K] {move : Move K} (hrate : 0 < move.feedRate) :
    (s.taken move).Sound := by
  have hlength : (s.taken move).length = lengthOf (s.taken move).delta := rfl
  obtain ⟨hnonneg, hzero⟩ := lengthOf_spec (s.taken move).delta
  refine ⟨hrate, hnonneg, fun h n => ?_⟩
  have hall := hzero (hlength ▸ h)
  unfold ActiveMove.deltaOn
  cases hn : (s.taken move).delta[n]? with
  | none => simp
  | some d =>
      obtain ⟨hlt, rfl⟩ := Vector.getElem?_eq_some_iff.1 hn
      exact hall _ (by simp)

/-- Setting step counters changes the positions of these axes and nothing else. -/
theorem after_setSteps (ns : List Nat) (steps : Nat → Int) (s : Simulator K) :
    ∃ axes, Machine.after (ns.map fun n => .setSteps n (steps n)) s = { s with axes := axes } ∧
      ∀ n : Nat, axes[n]? =
        (s.axes[n]?).map fun a => if n ∈ ns then a.setSteps (steps n) else a := by
  induction ns generalizing s with
  | nil => exact ⟨s.axes, rfl, fun n => by simp⟩
  | cons k ns ih =>
      obtain ⟨axes, hafter, haxes⟩ := ih (s.withSteps k (steps k))
      refine ⟨axes, hafter, fun n => ?_⟩
      have hmodify : (s.withSteps k (steps k)).axes = s.axes.modify k (·.setSteps (steps k)) := rfl
      rw [haxes, hmodify]
      by_cases hk : k = n
      · subst hk
        rw [List.getElem?_modify_eq, Option.map_eq_map, Option.map_map]
        refine congrFun (congrArg Option.map (funext fun a => ?_)) _
        by_cases hmem : k ∈ ns
        · simp [hmem, SimAxis.setSteps]
        · simp [hmem]
      · rw [List.getElem?_modify_ne _ _ hk]
        have hiff : n ∈ k :: ns ↔ n ∈ ns := by simp [Ne.symm hk]
        simp only [hiff]

/-- A simulator that took over the move of a plan: `x` before the phase, and `z` after
the move was handed over as `tk`. -/
structure Launch (planned : PlannedMove K) (x z : Simulator K) (tk : ActiveMove K) : Prop where
  active : z.active = some tk
  travelled : tk.travelled = 0
  approach : tk.approach = planned.phase.isApproach
  overrides : tk.overrides = planned.overrides
  feedRate : tk.feedRate = planned.feedRate
  length : tk.length = lengthOf tk.delta
  sound : tk.Sound
  pending : z.pending = x.pending
  fixed : z.tickMs = x.tickMs ∧ z.scheduled = x.scheduled ∧ z.miswired = x.miswired
  motor : ∀ id, z.motor? id = x.motor? id
  along : ∀ n ∈ planned.axes, (x.axes[n]?).isSome = true →
    planned.target[n]? = some (tk.deltaOn n)
  beside : ∀ n ∉ planned.axes, z.axes[n]? = x.axes[n]?
  drifts : ∀ n < maxAxes, n ∉ planned.axes → tk.deltaOn n = x.drift n

variable {m : MachineSettings K} {planned : PlannedMove K} {x : Simulator K} {mv : Move K}

theorem after_zeroing (axes : AxisSet) (k : Nat) (x : Simulator K) :
    ∃ l, Machine.after (zeroing axes k) x = { x with axes := l } ∧ ∀ n : Nat, l[n]? =
      (x.axes[n]?).map fun a => if n ∈ axes ∧ n < k then a.setSteps 0 else a := by
  obtain ⟨l, hafter, hl⟩ := after_setSteps ((List.range k).filter (· ∈ axes)) (fun _ => 0) x
  refine ⟨l, hafter, fun n => ?_⟩
  have hmem : n ∈ (List.range k).filter (· ∈ axes) ↔ n ∈ axes ∧ n < k := by
    rw [List.mem_filter, List.mem_range, decide_eq_true_eq]
    exact And.comm
  rw [hl]
  simp only [hmem]

/-- An axis beside a plan is sent to the position of its step count. -/
theorem target_beside (hx : BuiltFrom m x) (hcarries : mv.Carries m planned x) (hlt : n < maxAxes)
    (hn : n ∉ planned.axes) {b : SimAxis K} (hb : x.axes[n]? = some b) :
    mv.target[n]? = some b.rest := by
  cases ha : m.axes[n]? with
  | none =>
      rw [hx.axis_none ha] at hb
      cases hb
  | some a =>
      obtain ⟨b', hb', hbuild⟩ := hx.axis_of_settings hlt ha
      obtain rfl : b = b' := Option.some.inj (hb.symm.trans hb')
      have hspm : b.stepsPerMm = a.stepsPerMm := congrArg Prod.fst hbuild
      have hsteps : Machine.steps (Machine.after (zeroing planned.axes n) x) n = b.steps := by
        obtain ⟨l, hafter, hl⟩ := after_zeroing planned.axes n x
        have hstill : l[n]? = some b := by
          rw [hl, hb]
          simp [hn]
        rw [hafter]
        show Simulator.steps _ n = _
        unfold Simulator.steps
        rw [hstill]
      rw [hcarries.beside n a ha hlt hn, hsteps, AxisSettings.positionAt, SimAxis.rest, hspm]

/-- Once its axes are zeroed, a plan takes each of them where it says, and every other axis to
the position of its step count. -/
theorem deltaOn_zeroed (hx : BuiltFrom m x) (hcarries : mv.Carries m planned x) (hlt : n < maxAxes)
    {a : SimAxis K} (ha : x.axes[n]? = some a) :
    ((Machine.after (zeroing planned.axes maxAxes) x).taken mv).deltaOn n =
      if n ∈ planned.axes then planned.target[n] else a.rest - a.position := by
  obtain ⟨l, hafter, hl⟩ := after_zeroing planned.axes maxAxes x
  rw [hafter]
  by_cases hn : n ∈ planned.axes
  · have htarget := (hcarries.along n hn).trans (Vector.getElem?_eq_getElem hlt)
    rw [deltaOn_taken htarget, if_pos hn]
    dsimp only
    rw [hl, ha, Option.map_some, Option.elim_some, if_pos ⟨hn, hlt⟩]
    simp [SimAxis.setSteps]
  · rw [deltaOn_taken (target_beside hx hcarries hlt hn ha), if_neg hn]
    dsimp only
    rw [hl, ha, Option.map_some, Option.elim_some, if_neg fun h => hn h.1]

/-- The calls that start a phase launch its plan, and the rest of the phase follows. -/
theorem exists_launch [IsStrictOrderedRing K] (hx : BuiltFrom m x) (hrate : 0 < planned.feedRate)
    (hcarries : mv.Carries m planned x) :
    ∃ z tk, Launch planned x z tk ∧ ∀ cs : List (Call K),
      Machine.after (starting planned mv ++ cs) x = Machine.after (launching ++ cs) z := by
  obtain ⟨l, hafter, hl⟩ := after_zeroing planned.axes maxAxes x
  have hout (n : Nat) (hn : n ∉ planned.axes) : l[n]? = x.axes[n]? := by
    rw [hl]
    simp [hn]
  refine ⟨_, _, ⟨active_submit (s := { x with axes := l }) mv, Scalar.zero_exact, hcarries.approach,
    hcarries.overrides, hcarries.feedRate, rfl, taken_sound (hcarries.feedRate ▸ hrate), rfl,
    ⟨rfl, rfl, rfl⟩, fun id => ?_, fun n hn hsome => ?_, hout,
    fun n hlt hn => ?_⟩, fun cs => ?_⟩
  · show (l[id.axis]?).bind (·.motor? id.side) = (x.axes[id.axis]?).bind (·.motor? id.side)
    rw [hl]
    cases x.axes[id.axis]? with
    | none => rfl
    | some a =>
        simp only [Option.map_some, Option.bind_some]
        split <;> rfl
  · obtain ⟨a, ha⟩ := Option.isSome_iff_exists.1 hsome
    have hlt := AxisSet.lt_of_mem hn
    have hdelta := deltaOn_zeroed hx hcarries hlt ha
    rw [hafter, if_pos hn] at hdelta
    rw [Vector.getElem?_eq_getElem hlt, hdelta]
  · unfold drift
    cases hb : x.axes[n]? with
    | none => exact deltaOn_taken_of_none ((hout n hn).trans hb)
    | some b =>
        have hdelta := deltaOn_zeroed hx hcarries hlt hb
        rwa [hafter, if_neg hn] at hdelta
  · unfold starting
    rw [List.append_assoc, Machine.after_append, hafter]
    rfl

end Simulator

end Homing
