import Homing.Proofs.Engine.Loop
import Homing.Proofs.Plan.Shares
import Mathlib.Tactic.SplitIfs

/-!
# Phases as a relation

A phase that moves calls the machine in three parts: `starting` zeroes the axes
that take part and hands the move over, the loop of `LoopRun` follows, and
`settling` halts the machine and waits, when the loop ended well. `PhaseRun` is one
phase and `PhasesRun` a list of them up to the first that fails.

`Move.Carries` is the tie between a move and the plan that it carries out: along the
axes of the plan it goes where the plan says, and every other axis of the settings
has the position that its step counter stands for as its target.
-/

namespace Homing

variable {σ : Type u} {α : Type v} [Machine σ α]

/-- The calls that set the step counters of the axes of a set to zero, for the axes
below `n` and in ascending order. -/
def zeroing (axes : AxisSet) (n : Nat) : List (Call α) :=
  ((List.range n).filter (· ∈ axes)).map (.setSteps · 0)

/-- The calls from the plan of a phase to its loop. -/
def starting (planned : PlannedMove α) (mv : Move α) : List (Call α) :=
  zeroing planned.axes maxAxes ++ [.submit mv, .refill, .start]

/-- The calls after the loop of a phase: when it ended well, the machine is halted
and the settle time is waited out. -/
def settling (ms : Nat) : Except Failure Unit → List (Call α)
  | .ok () => [.halt, .dwell ms]
  | .error _ => []

/-- A move carries out a plan from the machine `x`. -/
structure Move.Carries [Scalar α] (m : MachineSettings α) (planned : PlannedMove α) (x : σ)
    (mv : Move α) : Prop where
  along : ∀ n ∈ planned.axes, mv.target[n]? = planned.target[n]?
  beside : ∀ n a, m.axes[n]? = some a → n < maxAxes → n ∉ planned.axes →
    mv.target[n]? =
      some (a.positionAt (Machine.steps (Machine.after (zeroing planned.axes n) x) n))
  feedRate : mv.feedRate = planned.feedRate
  flags : mv.flags = .homing
  approach : mv.approach = planned.phase.isApproach
  overrides : mv.overrides = planned.overrides

/-- One phase, from the machine before it. -/
inductive PhaseRun [Scalar α] (m : MachineSettings α) (motors : MotorSet) (phase : Phase) (x : σ) :
    Except Failure Unit → List (Call α) → Prop
  /-- There is no motor to home. -/
  | idle (hmotors : motors = ∅) : PhaseRun m motors phase x (.ok ()) []
  /-- No motor stands on its switch before anything moved. -/
  | skipped (hmotors : motors ≠ ∅) (hphase : phase = .prePulloff)
      (hoff : (Machine.limits x).active ∩ motors = ∅) : PhaseRun m motors phase x (.ok ()) []
  | moved {mv : Move α} {r : Except Failure Unit} {cs : List (Call α)} (hmotors : motors ≠ ∅)
      (hon : phase = .prePulloff → (Machine.limits x).active ∩ motors ≠ ∅)
      (hcarries : mv.Carries m (planMove m motors phase) x)
      (hloop : LoopRun phase.isApproach motors
        (Machine.after (starting (planMove m motors phase) mv) x) r cs) :
      PhaseRun m motors phase x r
        (starting (planMove m motors phase) mv ++ cs ++ settling (planMove m motors phase).settle r)

/-- Phases in order, up to the first that fails. -/
inductive PhasesRun [Scalar α] (m : MachineSettings α) (motors : MotorSet) :
    List Phase → σ → Except Failure Unit → List (Call α) → Prop
  | nil {x : σ} : PhasesRun m motors [] x (.ok ()) []
  | cons {phase : Phase} {rest : List Phase} {x : σ} {r : Except Failure Unit}
      {cs ds : List (Call α)} : PhaseRun m motors phase x (.ok ()) cs →
      PhasesRun m motors rest (Machine.after cs x) r ds →
      PhasesRun m motors (phase :: rest) x r (cs ++ ds)
  | fail {phase : Phase} {rest : List Phase} {x : σ} {f : Failure} {cs : List (Call α)} :
      PhaseRun m motors phase x (.error f) cs →
      PhasesRun m motors (phase :: rest) x (.error f) cs

/-- A call that a phase of some motors makes. -/
inductive Call.InPhase (motors : MotorSet) : Call α → Prop
  | zero {n : Nat} (hn : n ∈ motors.axes) : InPhase motors (.setSteps n 0)
  | submit (mv : Move α) : InPhase motors (.submit mv)
  | start : InPhase motors .start
  | loop {c : Call α} (hc : c.InLoop) : InPhase motors c
  | halt : InPhase motors .halt
  | dwell (ms : Nat) : InPhase motors (.dwell ms)

/-! ## The start of a phase -/

namespace Session

variable [Scalar α] {planned : PlannedMove α}

/-- The axes of a list that a plan zeroes. -/
def zeroed (planned : PlannedMove α) (l : List (AxisSettings α × Nat)) : List (Call α) :=
  ((l.map (·.2)).filter (· ∈ planned.axes)).map (.setSteps · 0)

theorem placeAxes_makes (planned : PlannedMove α) (l : List (AxisSettings α × Nat))
    (target : PerAxis α) (s : Session σ α) :
    s.Makes (zeroed planned l) (s.placeAxes planned l target).2 ∧
      (s.placeAxes planned l target).2.approaching = s.approaching := by
  induction l generalizing target s with
  | nil => exact ⟨.refl s, rfl⟩
  | cons e l ih =>
      obtain ⟨a, n⟩ := e
      unfold placeAxes zeroed
      by_cases hn : n ∈ planned.axes
      · rw [if_pos hn]
        obtain ⟨hmakes, happ⟩ := ih target (s.call (.setSteps n 0))
        refine ⟨?_, by rw [happ, approaching_call]⟩
        simpa [hn, zeroed] using (Makes.call (.setSteps n 0) s).trans hmakes
      · rw [if_neg hn]
        simpa [hn, zeroed] using ih _ s

/-- The plan alone decides the target of an axis that the list does not hold still. -/
private theorem placeAxes_target_of {l : List (AxisSettings α × Nat)} {n : Nat}
    (hn : n ∈ planned.axes ∨ n ∉ l.map (·.2)) (target : PerAxis α) (s : Session σ α) :
    (s.placeAxes planned l target).1[n]? = target[n]? := by
  induction l generalizing target s with
  | nil => rfl
  | cons e l ih =>
      obtain ⟨a, k⟩ := e
      have htail : n ∈ planned.axes ∨ n ∉ l.map (·.2) := by
        rcases hn with hn | hn
        · exact .inl hn
        · exact .inr fun h => hn (List.mem_cons_of_mem _ h)
      unfold placeAxes
      by_cases hk : k ∈ planned.axes
      · rw [if_pos hk]
        exact ih htail _ _
      · rw [if_neg hk]
        have hne : k ≠ n := by
          rintro rfl
          rcases hn with hn | hn
          · exact hk hn
          · exact hn List.mem_cons_self
        rw [ih htail, Vector.getElem?_setIfInBounds_ne hne]

/-- An axis beside the plan is held where its step counter says it is. -/
private theorem placeAxes_target_held {l₁ l₂ : List (AxisSettings α × Nat)} {a : AxisSettings α}
    {n : Nat} (hlt : n < maxAxes) (hn : n ∉ planned.axes) (htail : n ∉ l₂.map (·.2))
    (target : PerAxis α) (s : Session σ α) :
    (s.placeAxes planned (l₁ ++ (a, n) :: l₂) target).1[n]? =
      some (a.positionAt (Machine.steps (Machine.after (zeroed planned l₁) s.machine) n)) := by
  induction l₁ generalizing target s with
  | nil =>
      rw [List.nil_append, placeAxes, if_neg hn, placeAxes_target_of (.inr htail),
        Vector.getElem?_setIfInBounds_self_of_lt hlt]
      rfl
  | cons e l₁ ih =>
      obtain ⟨b, k⟩ := e
      rw [List.cons_append, placeAxes]
      by_cases hk : k ∈ planned.axes
      · rw [if_pos hk, ih]
        simp [zeroed, hk]
      · rw [if_neg hk, ih]
        simp [zeroed, hk]

end Session

private theorem take_zipIdx_eq {β : Type v} {l : List β} {n k : Nat} {a : β}
    (ha : l[n]? = some a) (hlt : n < k) :
    l.zipIdx.take k = l.zipIdx.take n ++ (a, n) :: (l.zipIdx.take k).drop (n + 1) := by
  have hget : (l.zipIdx.take k)[n]? = some (a, n) := by
    rw [List.getElem?_take_of_lt hlt, List.getElem?_zipIdx, ha]
    simp
  obtain ⟨hin, hval⟩ := List.getElem?_eq_some_iff.1 hget
  rw [← hval, List.getElem_cons_drop]
  have htake : l.zipIdx.take n = (l.zipIdx.take k).take n := by
    rw [List.take_take, Nat.min_eq_left (Nat.le_of_lt hlt)]
  rw [htake, List.take_append_drop]

private theorem map_snd_take_zipIdx {β : Type v} (l : List β) (k : Nat) :
    (l.zipIdx.take k).map (·.2) = List.range (min k l.length) := by
  rw [List.map_take, List.zipIdx_map_snd, ← List.range_eq_range', List.take_range]

/-- The axes that a plan zeroes are all below a bound past which it has none. -/
theorem filter_range_of_bound {axes : AxisSet} {j k : Nat} (hjk : j ≤ k)
    (h : ∀ n ∈ axes, n < k → n < j) :
    (List.range k).filter (· ∈ axes) = (List.range j).filter (· ∈ axes) := by
  induction k with
  | zero => rw [Nat.le_zero.1 hjk]
  | succ k ih =>
      rcases Nat.lt_or_ge k j with hlt | hge
      · rw [Nat.le_antisymm hjk hlt]
      · rw [List.range_succ, List.filter_append, ih hge fun n hn hlt => h n hn (by omega)]
        have hk : k ∉ axes := fun hk => absurd (h k hk (by omega)) (by omega)
        simp [hk]

variable [Scalar α]

/-- The walk over the settings zeroes all axes of a plan, which has none past them. -/
theorem zeroed_planMove (m : MachineSettings α) (motors : MotorSet) (phase : Phase) :
    Session.zeroed (planMove m motors phase) (m.axes.zipIdx.take maxAxes) =
      zeroing (planMove m motors phase).axes maxAxes := by
  rw [Session.zeroed, zeroing, map_snd_take_zipIdx, ← filter_range_of_bound (Nat.min_le_left _ _)]
  intro n hn hlt
  obtain ⟨a, h, hp⟩ := mem_axes_planMove.1 hn
  have := (List.getElem?_eq_some_iff.1 hp.axis).1
  omega

theorem startPhase_spec (m : MachineSettings α) (motors : MotorSet) (phase : Phase)
    (s : Session σ α) : ∃ mv, mv.Carries m (planMove m motors phase) s.machine ∧
      s.Makes (starting (planMove m motors phase) mv) (s.startPhase m motors phase) ∧
      (s.startPhase m motors phase).approaching = s.approaching := by
  obtain ⟨hmakes, happ⟩ := Session.placeAxes_makes (planMove m motors phase)
    (m.axes.zipIdx.take maxAxes) (planMove m motors phase).target
    (s.noteAll (planNotes m motors phase))
  have hnoted := (Session.Makes.noteAll (planNotes m motors phase) s).trans hmakes
  rw [List.nil_append, zeroed_planMove] at hnoted
  have hstart (mv : Move α) := ((hnoted.snoc (.submit mv)).snoc .refill).snoc .start
  simp only [List.append_assoc, List.cons_append, List.nil_append] at hstart
  refine ⟨_, ⟨?_, ?_, rfl, rfl, rfl, rfl⟩, hstart _, ?_⟩
  · intro n hn
    exact Session.placeAxes_target_of (.inl hn) _ _
  · intro n a ha hlt hn
    have hlen := (List.getElem?_eq_some_iff.1 ha).1
    have htail : n ∉ ((m.axes.zipIdx.take maxAxes).drop (n + 1)).map (·.2) := by
      rw [List.map_drop, map_snd_take_zipIdx, List.range_eq_range', List.drop_range',
        List.mem_range'_1]
      omega
    rw [take_zipIdx_eq ha hlt, Session.placeAxes_target_held hlt hn htail, Session.machine_noteAll,
      Session.zeroed, map_snd_take_zipIdx, Nat.min_eq_left (Nat.le_of_lt hlen)]
    rfl
  · simp [happ, Session.startPhase]

/-! ## Phases -/

section

variable {m : MachineSettings α} {motors : MotorSet} {phase : Phase}

/-- Without a motor no phase makes a call. -/
theorem PhasesRun.idle {phases : List Phase} {x : σ} {r : Except Failure Unit} {cs : List (Call α)}
    (h : PhasesRun m motors phases x r cs) (hmotors : motors = ∅) : r = .ok () ∧ cs = [] := by
  induction h with
  | nil => exact ⟨rfl, rfl⟩
  | cons hphase _ ih =>
      cases hphase with
      | idle => simpa using ih
      | skipped hsome => exact absurd hmotors hsome
      | moved hsome => exact absurd hmotors hsome
  | fail hphase =>
      cases hphase with
      | moved hsome => exact absurd hmotors hsome

/-- Phases that ended well ended well one part after the other. -/
theorem PhasesRun.split {plan rest : List Phase} {x : σ} {cs : List (Call α)}
    (h : PhasesRun m motors (plan ++ rest) x (.ok ()) cs) :
    ∃ ds es, cs = ds ++ es ∧ PhasesRun m motors plan x (.ok ()) ds ∧
      PhasesRun m motors rest (Machine.after ds x) (.ok ()) es := by
  induction plan generalizing x cs with
  | nil => exact ⟨[], cs, rfl, .nil, h⟩
  | cons phase plan ih =>
      cases h with
      | @cons _ _ _ _ first tail hphase htail =>
          obtain ⟨ds, es, rfl, hplan, hrest⟩ := ih htail
          rw [← Machine.after_append] at hrest
          exact ⟨first ++ ds, es, by rw [List.append_assoc], .cons hphase hplan, hrest⟩

/-- After a phase that cannot fail the rest of the phases run. -/
theorem PhasesRun.exists_rest {P : σ → Prop} {rest : List Phase} {x : σ} {r : Except Failure Unit}
    {cs : List (Call α)} (h : PhasesRun m motors (phase :: rest) x r cs)
    (hphase : ∀ r ds, PhaseRun m motors phase x r ds → r = .ok () ∧ P (Machine.after ds x)) :
    ∃ y es, P y ∧ PhasesRun m motors rest y r es := by
  cases h with
  | cons hfirst hrest => exact ⟨_, _, (hphase _ _ hfirst).2, hrest⟩
  | fail hfirst => cases (hphase _ _ hfirst).1

theorem inPhase_of_phaseRun {x : σ} {r : Except Failure Unit} {cs : List (Call α)}
    (h : PhaseRun m motors phase x r cs) : ∀ c ∈ cs, c.InPhase motors := by
  cases h with
  | idle _ => exact fun c hc => absurd hc List.not_mem_nil
  | skipped _ _ _ => exact fun c hc => absurd hc List.not_mem_nil
  | @moved mv _ loop _ _ _ hloop =>
      intro c hc
      rcases List.mem_append.1 hc with hc | hc
      · rcases List.mem_append.1 hc with hc | hc
        · rcases List.mem_append.1 hc with hc | hc
          · obtain ⟨n, hn, rfl⟩ := List.mem_map.1 hc
            obtain ⟨a, h, hp⟩ := mem_axes_planMove.1 (of_decide_eq_true (List.mem_filter.1 hn).2)
            exact .zero hp.motor
          · simp only [List.mem_cons, List.not_mem_nil, or_false] at hc
            rcases hc with rfl | rfl | rfl
            · exact .submit mv
            · exact .loop .refill
            · exact .start
        · exact .loop (inLoop_of_loopRun hloop c hc)
      · cases r with
        | error f => exact absurd hc List.not_mem_nil
        | ok v =>
            simp only [settling, List.mem_cons, List.not_mem_nil, or_false] at hc
            rcases hc with rfl | rfl
            · exact .halt
            · exact .dwell _

theorem inPhase_of_phasesRun {plan : List Phase} {x : σ} {r : Except Failure Unit}
    {cs : List (Call α)} (h : PhasesRun m motors plan x r cs) : ∀ c ∈ cs, c.InPhase motors := by
  induction h with
  | nil => exact fun c hc => absurd hc List.not_mem_nil
  | cons hphase _ ih =>
      intro c hc
      rcases List.mem_append.1 hc with hc | hc
      · exact inPhase_of_phaseRun hphase c hc
      · exact ih c hc
  | fail hphase => exact inPhase_of_phaseRun hphase

/-- What the engine does once the loop of a phase has ended. -/
def Session.settle (phase : Phase) (ms : Nat) (r : Except Failure Unit) (s : Session σ α) :
    Session σ α :=
  match r with
  | .error _ => s.setApproaching false
  | .ok () => (((s.call .halt).call (.dwell ms)).note (.phaseDone phase ms)).setApproaching false

omit [Scalar α] in
theorem Session.settle_makes (phase : Phase) (ms : Nat) (r : Except Failure Unit)
    (s : Session σ α) :
    s.Makes (settling ms r) (s.settle phase ms r) := by
  cases r with
  | error f => exact .setApproaching false s
  | ok v =>
      have hsettled := (Makes.call .halt s).snoc (.dwell ms)
      exact (hsettled.snoc_note (.phaseDone phase ms)).snoc_setApproaching false

/-- The session in which the loop of a phase begins. -/
def Session.beginPhase (m : MachineSettings α) (motors : MotorSet) (phase : Phase)
    (s : Session σ α) : Session σ α :=
  (s.setApproaching phase.isApproach).startPhase m motors phase

theorem Session.beginPhase_spec (m : MachineSettings α) (motors : MotorSet) (phase : Phase)
    (s : Session σ α) : ∃ mv, mv.Carries m (planMove m motors phase) s.machine ∧
      s.Makes (starting (planMove m motors phase) mv) (s.beginPhase m motors phase) ∧
      (s.beginPhase m motors phase).approaching = phase.isApproach := by
  obtain ⟨mv, hcarries, hmakes, happ⟩ :=
    startPhase_spec m motors phase (s.setApproaching phase.isApproach)
  exact ⟨mv, hcarries, (Makes.setApproaching _ s).trans hmakes, happ⟩

/-- A phase that moves begins, goes round its loop and settles. -/
theorem runPhase_eq_map {budget : Nat} {s : Session σ α} (hmotors : motors ≠ ∅)
    (hon : phase = .prePulloff → (Machine.limits s.machine).active ∩ motors ≠ ∅) :
    runPhase budget m motors phase s = (turns budget motors (s.beginPhase m motors phase)).map
      fun e => (e.1, e.2.settle phase (planMove m motors phase).settle e.1) := by
  have hskip : ¬ (phase = .prePulloff ∧
      ((Machine.limits s.machine).active ∩ motors).isEmpty = true) :=
    fun h => hon h.1 (MotorSet.isEmpty_iff.1 h.2)
  unfold runPhase
  rw [if_neg (fun h => hmotors (MotorSet.isEmpty_iff.1 h)), if_neg hskip]
  dsimp only
  refine congrFun (congrArg Option.map (funext fun e => ?_)) _
  obtain ⟨r, u⟩ := e
  cases r <;> rfl

/-- Without a motor, or with nothing to pull off, a phase is left out. -/
theorem runPhase_of_none (budget : Nat) (m : MachineSettings α) (phase : Phase) (s : Session σ α)
    (h : motors = ∅ ∨ phase = .prePulloff ∧ (Machine.limits s.machine).active ∩ motors = ∅) :
    ∃ t, runPhase budget m motors phase s = some (.ok (), t) ∧ s.Makes [] t := by
  unfold runPhase
  by_cases hmotors : motors.isEmpty = true
  · rw [if_pos hmotors]
    exact ⟨s, rfl, .refl s⟩
  · obtain ⟨hphase, hoff⟩ := h.resolve_left fun he => hmotors (MotorSet.isEmpty_iff.2 he)
    rw [if_neg hmotors, if_pos ⟨hphase, MotorSet.isEmpty_iff.2 hoff⟩]
    exact ⟨_, rfl, .note _ s⟩

theorem phaseRun_of_runPhase {budget : Nat} {s t : Session σ α} {r : Except Failure Unit}
    (h : runPhase budget m motors phase s = some (r, t)) :
    ∃ cs, PhaseRun m motors phase s.machine r cs ∧ s.Makes cs t := by
  by_cases hmotors : motors = ∅
  · obtain ⟨u, hrun, hmakes⟩ := runPhase_of_none budget m phase s (.inl hmotors)
    obtain ⟨rfl, rfl⟩ : .ok () = r ∧ u = t := by simpa [hrun] using h
    exact ⟨[], .idle hmotors, hmakes⟩
  by_cases hskip : phase = .prePulloff ∧ (Machine.limits s.machine).active ∩ motors = ∅
  · obtain ⟨u, hrun, hmakes⟩ := runPhase_of_none budget m phase s (.inr hskip)
    obtain ⟨rfl, rfl⟩ : .ok () = r ∧ u = t := by simpa [hrun] using h
    exact ⟨[], .skipped hmotors hskip.1 hskip.2, hmakes⟩
  have hon : phase = .prePulloff → (Machine.limits s.machine).active ∩ motors ≠ ∅ :=
    fun hphase hoff => hskip ⟨hphase, hoff⟩
  rw [runPhase_eq_map hmotors hon] at h
  obtain ⟨⟨r', u⟩, hturns, hend⟩ := Option.map_eq_some_iff.1 h
  obtain ⟨rfl, rfl⟩ := Prod.mk.inj hend
  obtain ⟨mv, hcarries, hbegin, happ⟩ := Session.beginPhase_spec m motors phase s
  obtain ⟨cs, hloop, hturned⟩ := loopRun_of_turns hturns
  rw [happ, hbegin.machine] at hloop
  exact ⟨_, .moved hmotors hon hcarries hloop,
    (hbegin.trans hturned).trans (u.settle_makes phase _ r')⟩

theorem runPhases_cons {budget : Nat} {rest : List Phase} {s : Session σ α} :
    runPhases budget m motors (phase :: rest) s =
      (runPhase budget m motors phase (s.note (.phaseBegins phase))).bind fun e =>
        match e.1 with
        | .error f => some (.error f, e.2)
        | .ok () => runPhases budget m motors rest e.2 := by
  rw [runPhases]
  cases runPhase budget m motors phase (s.note (.phaseBegins phase)) with
  | none => rfl
  | some e =>
      obtain ⟨r, t⟩ := e
      cases r <;> rfl

theorem phasesRun_of_runPhases {budget : Nat} {plan : List Phase} {s t : Session σ α}
    {r : Except Failure Unit} (h : runPhases budget m motors plan s = some (r, t)) :
    ∃ cs, PhasesRun m motors plan s.machine r cs ∧ s.Makes cs t := by
  induction plan generalizing s with
  | nil =>
      obtain ⟨rfl, rfl⟩ : .ok () = r ∧ s = t := by simpa [runPhases] using h
      exact ⟨[], .nil, .refl s⟩
  | cons phase rest ih =>
      rw [runPhases_cons] at h
      obtain ⟨⟨r', u⟩, hphase, h⟩ := Option.bind_eq_some_iff.1 h
      obtain ⟨cs, hrun, hmakes⟩ := phaseRun_of_runPhase hphase
      cases r' with
      | error f =>
          obtain ⟨rfl, rfl⟩ := Prod.mk.inj (Option.some.inj h)
          exact ⟨cs, .fail hrun, hmakes.of_note⟩
      | ok v =>
          obtain ⟨ds, hrest, hmakes'⟩ := ih h
          rw [hmakes.machine] at hrest
          exact ⟨cs ++ ds, .cons hrun hrest, hmakes.of_note.trans hmakes'⟩

/-! ## More turns keep an answer -/

theorem runPhase_mono {n k : Nat} (hnk : n ≤ k) {s : Session σ α}
    {e : Except Failure Unit × Session σ α} (h : runPhase n m motors phase s = some e) :
    runPhase k m motors phase s = some e := by
  unfold runPhase at h ⊢
  split_ifs at h ⊢
  · exact h
  · exact h
  · obtain ⟨e', hturns, hend⟩ := Option.map_eq_some_iff.1 h
    rw [turns_mono hnk hturns, ← hend]
    rfl

theorem runPhases_mono {n k : Nat} (hnk : n ≤ k) {plan : List Phase} {s : Session σ α}
    {e : Except Failure Unit × Session σ α} (h : runPhases n m motors plan s = some e) :
    runPhases k m motors plan s = some e := by
  induction plan generalizing s with
  | nil => exact h
  | cons phase rest ih =>
      rw [runPhases] at h ⊢
      cases hphase : runPhase n m motors phase (s.note (.phaseBegins phase)) with
      | none => simp [hphase] at h
      | some e' =>
          rw [hphase] at h
          rw [runPhase_mono hnk hphase]
          obtain ⟨r, u⟩ := e'
          cases r with
          | error f => exact h
          | ok v => exact ih h

/-- Phases end when the first one does, and the rest does whenever that one ends
well. -/
theorem exists_runPhases_cons {rest : List Phase} {s : Session σ α}
    (hfirst : ∃ n, (runPhase n m motors phase (s.note (.phaseBegins phase))).isSome = true)
    (hrest : ∀ cs t, PhaseRun m motors phase s.machine (.ok ()) cs → s.Makes cs t →
      ∃ n, (runPhases n m motors rest t).isSome = true) :
    ∃ n, (runPhases n m motors (phase :: rest) s).isSome = true := by
  obtain ⟨n, hn⟩ := hfirst
  obtain ⟨⟨r, u⟩, hphase⟩ := Option.isSome_iff_exists.1 hn
  cases r with
  | error f => exact ⟨n, by rw [runPhases, hphase]; rfl⟩
  | ok v =>
      obtain ⟨cs, hrun, hmakes⟩ := phaseRun_of_runPhase hphase
      rw [Session.machine_note] at hrun
      obtain ⟨k, hk⟩ := hrest cs u hrun ((Session.Makes.note _ s).trans hmakes)
      obtain ⟨e, he⟩ := Option.isSome_iff_exists.1 hk
      refine ⟨max n k, ?_⟩
      rw [runPhases, runPhase_mono (Nat.le_max_left n k) hphase]
      exact Option.isSome_iff_exists.2 ⟨e, runPhases_mono (Nat.le_max_right n k) he⟩

end

end Homing
