import Mathlib.Algebra.BigOperators.Fin
import Homing.Proofs.Plan.Choices
import Homing.Proofs.Plan.Shares

/-!
# The plan of a phase in closed form

`planMove` collects its seven quantities in passes over the axes. `ClosedForm` says what they come
to without any pass: which axes take part, how far and which way each of them goes, whose rate
limits the fast approach, and which motors stand still. It holds in every arithmetic whose
comparisons are lawful, binary64 among them, as long as the time of each axis is a number; the
length of the vector of rates is what it should be in exact arithmetic (`sq_feedRate`).

Two of the quantities are choices, the smallest pull-off of an axis and the limiting axis. Each is
characterized by what is chosen and by what it is compared with, so that ties and pull-offs that
are no numbers are decided as well.
-/

namespace Homing

section

variable {α : Type u} [Scalar α]

/-- What the second motor of an axis backs off further than the first one, or zero where the axis
has not two motors. -/
inductive PulloffDifference (a : AxisSettings α) : α → Prop
  | both {p q : MotorSettings α} (hfirst : a.motors[0]? = some p)
      (hsecond : a.motors[1]? = some q) : PulloffDifference a (q.pulloff - p.pulloff)
  | single (hmotors : a.motors.length < 2) : PulloffDifference a 0.0

/-- The distance that an axis is to travel in a phase: its whole length, the smallest pull-off of
its motors, or the difference of their pull-offs. -/
def Travels (phase : Phase) (a : AxisSettings α) (distance : α) : Prop :=
  match phase with
  | .fastApproach => distance = a.maxTravel
  | .pulloff2 => ∃ d, PulloffDifference a d ∧ distance = Scalar.abs d
  | _ => if a.motors = [] then distance = 0.0
    else LeastNumber (a.motors.map (·.pulloff)) distance

/-- The factor on the travel of a phase. An approach goes beyond its travel by the scaler for it,
and a pull-off is never scaled. -/
def Scales (phase : Phase) (h : HomingSettings α) (factor : α) : Prop :=
  match phase with
  | .fastApproach => factor = h.seekScaler
  | .slowApproach => factor = h.feedScaler
  | _ => factor = 1.0

/-- The time that an axis takes for its travel in a phase. -/
def timeOf (phase : Phase) (a : AxisSettings α) (h : HomingSettings α) : α :=
  Share.travelOf phase a / h.rate phase

/-- The rate of the first axis whose time is the longest, or zero where no axis takes any time. -/
inductive IsLimitingRate (m : MachineSettings α) (motors : MotorSet) (phase : Phase) : α → Prop
  | axis {n : Nat} {a : AxisSettings α} {h : HomingSettings α} (htakes : TakesPart m motors n a h)
      (hpos : Scalar.lt 0.0 (timeOf phase a h) = true)
      (hlongest : ∀ k b g, TakesPart m motors k b g →
        Scalar.lt (timeOf phase a h) (timeOf phase b g) = false)
      (hfirst : ∀ k b g, TakesPart m motors k b g → k < n →
        Scalar.lt (timeOf phase b g) (timeOf phase a h) = true) :
      IsLimitingRate m motors phase (h.rate phase)
  | none (hnone : ∀ n a h, TakesPart m motors n a h → Scalar.lt 0.0 (timeOf phase a h) = false) :
      IsLimitingRate m motors phase 0.0

/-- The displacement of an axis that takes part: its travel, along its positive direction when that
is toward the switch in an approach or away from it in a pull-off, times the scaler of the phase.
The fast approach stretches it by the rate of the axis over the limiting one. -/
def displaced (phase : Phase) (limiting : α) (a : AxisSettings α) (h : HomingSettings α) : α :=
  let travel := Share.travelOf phase a
  let signed := if h.positiveDirection = phase.isApproach then travel else -travel
  let scaled := signed * h.scaler phase
  if phase = .fastApproach ∧ Scalar.lt 0.0 limiting = true then scaled * (h.rate phase / limiting)
  else scaled

/-- The sum of the squares of the rates of some axes, in their order. -/
def squares (rates : PerAxis α) (ns : List Nat) : α :=
  ns.foldl (fun sum n => sum + (rates[n]?).getD 0.0 * (rates[n]?).getD 0.0) 0.0

/-- What a plan of a phase for a set of motors comes to. -/
structure ClosedForm (m : MachineSettings α) (motors : MotorSet) (phase : Phase)
    (planned : PlannedMove α) : Prop where
  same : planned.phase = phase
  axes : ∀ n, n ∈ planned.axes ↔ n < maxAxes ∧ ∃ a h, TakesPart m motors n a h
  travel : ∀ n a h, TakesPart m motors n a h → Travels phase a (Share.travelOf phase a)
  scaler : ∀ n a h, TakesPart m motors n a h → Scales phase h (h.scaler phase)
  limiting : IsLimitingRate m motors phase planned.limitingRate
  target : ∀ n a h, TakesPart m motors n a h →
    planned.target[n]? = some (displaced phase planned.limitingRate a h)
  rates : ∀ n a h, TakesPart m motors n a h → planned.rates[n]? = some (h.rate phase) ∧
    h.rate phase = if phase = .fastApproach then h.seekRate else h.feedRate
  idle : ∀ n < maxAxes, n ∉ planned.axes →
    planned.target[n]? = some 0.0 ∧ planned.rates[n]? = some 0.0
  feedRate : planned.feedRate = Scalar.sqrt (squares planned.rates planned.axes.toList)
  settle : LongestSettle m motors planned.settle
  blocked : ∀ id, id ∈ planned.overrides.blocked ↔ phase = .pulloff2 ∧
    ∃ a h d, TakesPart m motors id.axis a h ∧ PulloffDifference a d ∧
      (match id.side with
        | .primary => Scalar.lt 0.0 d
        | .secondary => Scalar.lt d 0.0) = true
  blockedOnce : ∀ id ∈ planned.overrides.blocked, ∀ other ∈ planned.overrides.blocked,
    other.axis = id.axis → other = id

variable {m : MachineSettings α} {motors : MotorSet} {phase : Phase} {n : Nat}
  {a : AxisSettings α} {h : HomingSettings α}

/-! ## Axes that take no part -/

theorem perAxis_of_not_mem (value : Share α → α) (hlt : n < maxAxes)
    (hn : n ∉ (planMove m motors phase).axes) :
    (perAxis (shares m motors phase) value)[n]? = some 0.0 := by
  have hnone : ∀ a h, ¬ TakesPart m motors n a h :=
    fun a h hp => hn (mem_axes_planMove.2 ⟨a, h, hp⟩)
  rw [getElem?_perAxis _ _ hlt, find?_shares_eq_none hnone]

/-! ## The length of the vector of rates -/

/-- The shares of a plan are those of its axes in ascending order. -/
theorem axes_shares :
    (shares m motors phase).map (·.axis) = (planMove m motors phase).axes.toList := by
  have hsorted : (planMove m motors phase).axes.toList.Pairwise (· < ·) :=
    List.pairwise_lt_range.sublist List.filter_sublist
  refine eq_of_ascending id (by rw [List.map_id]; exact ascending_shares m motors phase)
    (by rwa [List.map_id]) fun k => ?_
  rw [AxisSet.mem_toList, mem_axes_planMove, List.mem_map]
  constructor
  · rintro ⟨s, hs, rfl⟩
    obtain ⟨i, a, h, hp, rfl⟩ := mem_shares.1 hs
    exact ⟨a, h, hp⟩
  · rintro ⟨a, h, hp⟩
    exact ⟨_, mem_shares.2 ⟨k, a, h, hp, rfl⟩, rfl⟩

theorem feedRate_planMove : (planMove m motors phase).feedRate = Scalar.sqrt
    (squares (planMove m motors phase).rates (planMove m motors phase).axes.toList) := by
  have hfeed : (planMove m motors phase).feedRate = Scalar.sqrt
      ((shares m motors phase).foldl (fun sum s => sum + s.rate * s.rate) 0.0) := rfl
  rw [hfeed, squares, ← axes_shares, List.foldl_map]
  refine congrArg Scalar.sqrt (List.foldl_ext _ _ _ fun sum s hs => ?_)
  obtain ⟨k, a, h, hp, rfl⟩ := mem_shares.1 hs
  have hrate : (planMove m motors phase).rates[(Share.ofAxis phase k a h).axis]? =
      some (h.rate phase) := rates_planMove hp
  rw [hrate]
  rfl

/-! ## Where an axis goes -/

theorem displacement_ofAxis (limiting : α) :
    (Share.ofAxis phase n a h).displacement phase limiting = displaced phase limiting a h := by
  unfold Share.displacement displaced Share.ofAxis
  cases phase <;> cases h.positiveDirection <;> simp [Phase.isSeek, Phase.isApproach]

theorem scales_scaler (phase : Phase) (h : HomingSettings α) :
    Scales phase h (h.scaler phase) := by
  cases phase <;> rfl

omit [Scalar α] in
theorem rate_eq (phase : Phase) (h : HomingSettings α) :
    h.rate phase = if phase = .fastApproach then h.seekRate else h.feedRate := by
  cases phase <;> rfl

/-! ## The motor that stands still -/

theorem pulloffDifference_iff {d : α} : PulloffDifference a d ↔ d = a.extraPulloff := by
  constructor
  · intro hd
    unfold AxisSettings.extraPulloff
    cases hd with
    | @both p q hfirst hsecond =>
        have hprimary : a.motor? .primary = some p := hfirst
        have hsecondary : a.motor? .secondary = some q := hsecond
        rw [hprimary, hsecondary]
    | single hmotors =>
        have hsecondary : a.motor? .secondary = none :=
          List.getElem?_eq_none (Nat.le_of_lt_succ hmotors)
        rw [hsecondary]
        cases a.motor? .primary <;> rfl
  · rintro rfl
    unfold AxisSettings.extraPulloff
    cases hprimary : a.motor? .primary with
    | none =>
        have hlength : a.motors.length ≤ 0 := List.getElem?_eq_none_iff.1 hprimary
        exact .single (by omega)
    | some p =>
        cases hsecondary : a.motor? .secondary with
        | none =>
            have hlength : a.motors.length ≤ 1 := List.getElem?_eq_none_iff.1 hsecondary
            exact .single (by omega)
        | some q => exact .both hprimary hsecondary

theorem blockedOnce_planMove {id other : Motor}
    (hid : id ∈ (planMove m motors phase).overrides.blocked)
    (hother : other ∈ (planMove m motors phase).overrides.blocked) (haxis : other.axis = id.axis) :
    other = id := by
  obtain ⟨-, k, a, h, hp, hb⟩ := mem_blocked_planMove.1 hid
  obtain ⟨-, l, b, g, hq, hc⟩ := mem_blocked_planMove.1 hother
  obtain rfl := axis_of_blockedOf hb
  obtain rfl := axis_of_blockedOf hc
  rw [haxis] at hq hc
  obtain ⟨rfl, rfl⟩ := hq.unique hp
  exact Option.some.inj (hc.symm.trans hb)

variable [LawfulComparisons α]

theorem blockedOf_eq_iff (n : Nat) (side : Side) :
    Share.blockedOf phase n a = some ⟨n, side⟩ ↔ phase = .pulloff2 ∧
      (match side with
        | .primary => Scalar.lt 0.0 a.extraPulloff
        | .secondary => Scalar.lt a.extraPulloff 0.0) = true := by
  cases phase with
  | pulloff2 =>
      unfold Share.blockedOf
      by_cases hshorter : Scalar.lt a.extraPulloff 0.0 = true
      · have hnot := LawfulComparisons.lt_asymm hshorter
        cases side <;> simp [hshorter, hnot]
      · cases side <;> simp [hshorter]
  | _ => simp [Share.blockedOf]

theorem mem_blocked_iff {id : Motor} : id ∈ (planMove m motors phase).overrides.blocked ↔
    phase = .pulloff2 ∧ ∃ a h d, TakesPart m motors id.axis a h ∧ PulloffDifference a d ∧
      (match id.side with
        | .primary => Scalar.lt 0.0 d
        | .secondary => Scalar.lt d 0.0) = true := by
  rw [mem_blocked_planMove]
  constructor
  · rintro ⟨-, k, a, h, hp, hb⟩
    obtain rfl := axis_of_blockedOf hb
    obtain ⟨hphase, hside⟩ := (blockedOf_eq_iff id.axis id.side).1 hb
    exact ⟨hphase, a, h, _, hp, pulloffDifference_iff.2 rfl, hside⟩
  · rintro ⟨hphase, a, h, d, hp, hd, hside⟩
    obtain rfl := pulloffDifference_iff.1 hd
    exact ⟨hp.lt, id.axis, a, h, hp, (blockedOf_eq_iff id.axis id.side).2 ⟨hphase, hside⟩⟩

/-! ## The choices -/

theorem travels_travelOf (phase : Phase) (a : AxisSettings α) :
    Travels phase a (Share.travelOf phase a) := by
  cases phase with
  | fastApproach => rfl
  | pulloff2 => exact ⟨_, pulloffDifference_iff.2 rfl, rfl⟩
  | _ =>
      unfold Travels Share.travelOf
      dsimp only
      split
      · rename_i hnone
        rw [AxisSettings.commonPulloff, hnone]
        rfl
      · rename_i hne
        exact AxisSettings.leastNumber_commonPulloff hne

/-- The first share that takes longest is that of the first axis that does. -/
theorem isLimitingRate_planMove
    (htimes : ∀ n a h, TakesPart m motors n a h → Scalar.IsNumber (timeOf phase a h)) :
    IsLimitingRate m motors phase (planMove m motors phase).limitingRate := by
  have hrate : (planMove m motors phase).limitingRate = limitingRate (shares m motors phase) := rfl
  have hnumbers : ∀ s ∈ shares m motors phase, Scalar.IsNumber s.time := by
    intro s hs
    obtain ⟨n, a, h, hp, rfl⟩ := mem_shares.1 hs
    exact htimes n a h hp
  rw [hrate]
  obtain ⟨hzero, hnone⟩ | ⟨l, s, r, hss, hlimiting, hpos, hl, hr⟩ := limitingRate_cases hnumbers
  · rw [hzero]
    exact .none fun n a h hp => hnone _ (mem_shares.2 ⟨n, a, h, hp, rfl⟩)
  · have hascending := ascending_shares m motors phase
    rw [hss, List.map_append, List.map_cons, List.pairwise_append, List.pairwise_cons]
      at hascending
    obtain ⟨-, ⟨hafter, -⟩, -⟩ := hascending
    have hs : s ∈ shares m motors phase := by
      rw [hss]
      exact List.mem_append_right _ List.mem_cons_self
    obtain ⟨n, a, h, hp, rfl⟩ := mem_shares.1 hs
    -- Every other axis comes before the limiting one, with a shorter time, or after it.
    have hplace (k : Nat) (b : AxisSettings α) (g : HomingSettings α)
        (hq : TakesPart m motors k b g) :
        Scalar.lt (timeOf phase b g) (timeOf phase a h) = true ∨
          n ≤ k ∧ Scalar.lt (timeOf phase a h) (timeOf phase b g) = false := by
      have hmem : Share.ofAxis phase k b g ∈ shares m motors phase :=
        mem_shares.2 ⟨k, b, g, hq, rfl⟩
      rw [hss] at hmem
      rcases List.mem_append.1 hmem with hmem | hmem
      · exact .inl (hl _ hmem)
      rcases List.mem_cons.1 hmem with heq | hmem
      · have haxis : k = n := congrArg Share.axis heq
        subst haxis
        obtain ⟨rfl, rfl⟩ := hq.unique hp
        exact .inr ⟨le_rfl, LawfulComparisons.lt_irrefl _⟩
      · exact .inr ⟨(hafter _ (List.mem_map_of_mem hmem)).le, hr _ hmem⟩
    rw [hlimiting]
    refine .axis hp hpos (fun k b g hq => ?_) fun k b g hq hlt => ?_
    · exact (hplace k b g hq).elim LawfulComparisons.lt_asymm And.right
    · exact (hplace k b g hq).resolve_right fun hge => absurd hge.1 hlt.not_ge

/-- The plan of a phase is its closed form when the times of the axes are numbers. -/
theorem closedForm_of_numbers
    (htimes : ∀ n a h, TakesPart m motors n a h → Scalar.IsNumber (timeOf phase a h)) :
    ClosedForm m motors phase (planMove m motors phase) where
  same := rfl
  axes n := mem_axes_planMove.trans
    ⟨fun ⟨a, h, hp⟩ => ⟨hp.lt, a, h, hp⟩, fun hn => hn.2⟩
  travel n a h _ := travels_travelOf phase a
  scaler n a h _ := scales_scaler phase h
  limiting := isLimitingRate_planMove htimes
  target n a h hp := by
    rw [target_planMove hp, displacement_ofAxis]
    rfl
  rates n a h hp := ⟨rates_planMove hp, rate_eq phase h⟩
  idle n hlt hn := ⟨perAxis_of_not_mem _ hlt hn, perAxis_of_not_mem _ hlt hn⟩
  feedRate := feedRate_planMove
  settle := longestSettle_planMove
  blocked _ := mem_blocked_iff
  blockedOnce _ hid _ hother haxis := blockedOnce_planMove hid hother haxis

end

/-! ## The length in exact arithmetic -/

section

variable {K : Type u} [Field K] [LinearOrder K] [FloorRing K] [SquareRoot K]
  {m : MachineSettings K} {motors : MotorSet} {phase : Phase}

theorem squares_exact (rates : PerAxis K) (ns : List Nat) :
    squares rates ns = (ns.map fun n => (rates[n]?).getD 0 ^ 2).sum := by
  have key (c : K) : ns.foldl (fun sum n => sum + (rates[n]?).getD 0 * (rates[n]?).getD 0) c =
      c + (ns.map fun n => (rates[n]?).getD 0 ^ 2).sum := by
    induction ns generalizing c with
    | nil => simp
    | cons n ns ih =>
        rw [List.foldl_cons, ih, List.map_cons, List.sum_cons, sq ((rates[n]?).getD 0)]
        exact add_assoc _ _ _
  unfold squares
  rw [Scalar.zero_exact]
  exact (key 0).trans (zero_add _)

/-- An axis that takes no part adds nothing to the sum of the squares of the rates. -/
theorem squares_planMove : squares (planMove m motors phase).rates
    (planMove m motors phase).axes.toList =
      ∑ i : Fin maxAxes, (planMove m motors phase).rates.get i ^ 2 := by
  have hnodup : (planMove m motors phase).axes.toList.Nodup :=
    List.nodup_range.sublist List.filter_sublist
  have hall : ∑ i : Fin maxAxes, (planMove m motors phase).rates.get i ^ 2 =
      ∑ n ∈ Finset.range maxAxes, ((planMove m motors phase).rates[n]?).getD 0 ^ 2 := by
    rw [Finset.sum_range]
    refine Finset.sum_congr rfl fun i _ => ?_
    rw [Vector.getElem?_eq_getElem i.isLt, Option.getD_some]
    rfl
  rw [squares_exact, ← List.sum_toFinset _ hnodup, hall]
  refine Finset.sum_subset (fun n hn => ?_) fun n hn hnot => ?_
  · rw [List.mem_toFinset, AxisSet.mem_toList] at hn
    exact Finset.mem_range.2 (AxisSet.lt_of_mem hn)
  · rw [List.mem_toFinset, AxisSet.mem_toList] at hnot
    have hidle : (planMove m motors phase).rates[n]? = some 0 :=
      (perAxis_of_not_mem _ (Finset.mem_range.1 hn) hnot).trans (congrArg some Scalar.zero_exact)
    rw [hidle, Option.getD_some, zero_pow two_ne_zero]

end

/-- The rate along the line is as long as the vector of rates. -/
theorem sq_feedRate (m : MachineSettings ℝ) (motors : MotorSet) (phase : Phase) :
    (planMove m motors phase).feedRate ^ 2 =
      ∑ i : Fin maxAxes, (planMove m motors phase).rates.get i ^ 2 := by
  rw [feedRate_planMove, squares_planMove]
  exact Real.sq_sqrt (Finset.sum_nonneg fun i _ => sq_nonneg _)

/-- The plan of a phase is its closed form when the times of the axes are numbers, and in exact
arithmetic the rate along the line is the length of the vector of rates. -/
theorem closedForm_planMove {α : Type u} [Scalar α] [LawfulComparisons α] {m : MachineSettings α}
    {motors : MotorSet} {phase : Phase}
    (htimes : ∀ n a h, TakesPart m motors n a h → Scalar.IsNumber (timeOf phase a h)) :
    ClosedForm m motors phase (planMove m motors phase) ∧
      ∀ exact : MachineSettings ℝ, (planMove exact motors phase).feedRate ^ 2 =
        ∑ i : Fin maxAxes, (planMove exact motors phase).rates.get i ^ 2 :=
  ⟨closedForm_of_numbers htimes, fun exact => sq_feedRate exact motors phase⟩

/-- Two axes that take equally long, of which the first one limits. -/
def evenAxes : MachineSettings Float where
  logLevel := .info
  axes :=
    [{ name := "X", maxTravel := 100, stepsPerMm := 80,
       homing := some { HomingSettings.default with seekRate := 100 }, motors := [.default] },
     { name := "Y", maxTravel := 200, stepsPerMm := 80,
       homing := some { HomingSettings.default with seekRate := 200 }, motors := [.default] }]

/-- The motors of both axes. -/
def evenMotors : MotorSet := .ofList [⟨0, .primary⟩, ⟨1, .primary⟩]

theorem closedForm_evenAxes :
    (∀ a ∈ evenAxes.axes, ∀ h ∈ a.homing, Scalar.IsNumber (timeOf .fastApproach a h)) ∧
      ClosedForm evenAxes evenMotors .fastApproach (planMove evenAxes evenMotors .fastApproach) ∧
      (planMove evenAxes evenMotors .fastApproach).limitingRate = 100 := by
  have htimes : ∀ a ∈ evenAxes.axes, ∀ h ∈ a.homing,
      Scalar.IsNumber (timeOf .fastApproach a h) := by decide +kernel
  obtain ⟨hclosed, -⟩ : ClosedForm evenAxes evenMotors .fastApproach
      (planMove evenAxes evenMotors .fastApproach) ∧ _ :=
    closedForm_planMove fun n a h hp => htimes a (List.mem_of_getElem? hp.axis) h hp.homing
  exact ⟨htimes, hclosed, by decide +kernel⟩

end Homing
