import Homing.Proofs.Engine.Alike

/-!
# Two runs side by side

Two machines that differ can still be led through the same run: the engine looks at the same
switches, the same signals and the same state, and so takes the same turns. What the two have
in common is a relation between tracks, where a track is a machine with the calls that were
made of it, and what has to be shown of the relation is how it goes on over each part of a
run. `Coupling` lists these parts; `LoopCoupling` lists those of the loop of a phase, which
has one relation in front of the signals that a turn serves and another one behind them.

From a coupling `home_coupled` leads two whole runs side by side: with the same number of
turns both come to an end or neither does, the results are the same, and the relation holds
at the end. A cycle that fails leaves the relation as it is within a cycle.
-/

namespace Homing

variable {σ : Type u} {α : Type v} [Machine σ α]

/-- A machine with the calls that were made of it. -/
structure Track (σ : Type u) (α : Type v) where
  machine : σ
  calls : List (Call α)

/-- The track after more calls. -/
def Track.makes (p : Track σ α) (cs : List (Call α)) : Track σ α :=
  ⟨Machine.after cs p.machine, p.calls ++ cs⟩

theorem Track.makes_nil (p : Track σ α) : p.makes [] = p := by
  rw [makes, List.append_nil]
  rfl

theorem Track.makes_append (p : Track σ α) (cs ds : List (Call α)) :
    p.makes (cs ++ ds) = (p.makes cs).makes ds := by
  rw [makes, Machine.after_append, ← List.append_assoc]
  rfl

/-- What a session has of its machine, without the notes. -/
def Session.track (s : Session σ α) : Track σ α := ⟨s.machine, s.calls⟩

theorem Session.Makes.track_eq {cs : List (Call α)} {s t : Session σ α} (h : s.Makes cs t) :
    t.track = s.track.makes cs := by
  unfold Session.track Track.makes
  rw [h.machine, h.calls]

omit [Machine σ α] in
theorem Signals.sdiff_status_eq_iff {s t : Signals} : s \ .status = t \ .status ↔
    s.reset = t.reset ∧ s.safetyDoor = t.safetyDoor ∧ s.cycleStop = t.cycleStop := by
  simp [Signals.sdiff_def, Signals.diff, Signals.status]

section Option

variable {β : Type u} {γ : Type v} {δ : Type w} {ε : Type x} {R : β → γ → Prop} {S : δ → ε → Prop}
  {o : Option β} {o' : Option γ}

theorem rel_map {f : β → δ} {g : γ → ε} (h : Option.Rel R o o')
    (hfg : ∀ a b, R a b → S (f a) (g b)) : Option.Rel S (o.map f) (o'.map g) := by
  cases h with
  | none => exact .none
  | some hab => exact .some (hfg _ _ hab)

theorem rel_bind {f : β → Option δ} {g : γ → Option ε} (h : Option.Rel R o o')
    (hfg : ∀ a b, R a b → Option.Rel S (f a) (g b)) : Option.Rel S (o.bind f) (o'.bind g) := by
  cases h with
  | none => exact .none
  | some hab => exact hfg _ _ hab

theorem rel_mono {T : β → γ → Prop} (h : Option.Rel R o o') (hRT : ∀ a b, R a b → T a b) :
    Option.Rel T o o' := by
  cases h with
  | none => exact .none
  | some hab => exact .some (hRT _ _ hab)

end Option

/-! ## The loop of a phase -/

/-- The loop keeps two tracks related. `Before` holds in front of each turn and `After` once
the turn has served its status, and so until the next turn. -/
structure LoopCoupling (Before After : Track σ α → Track σ α → Prop) : Prop where
  before : ∀ {p q}, After p q → Before p q
  limits : ∀ {p q}, Before p q →
    (Machine.limits p.machine).active = (Machine.limits q.machine).active
  /-- The signals that end a loop are seen on both or on none. -/
  signals : ∀ {p q}, Before p q → seen p.machine \ .status = seen q.machine \ .status
  served : ∀ {p q}, Before p q → After (p.makes (service (seen p.machine).statusReport))
    (q.makes (service (seen q.machine).statusReport))
  stop : ∀ {p q}, After p q → After (p.makes [.acknowledge .stop]) (q.makes [.acknowledge .stop])
  poll : ∀ {p q}, After p q → After (p.makes [.poll]) (q.makes [.poll])

section Loop

variable {Before After : Track σ α → Track σ α → Prop} {approach : Bool}
  {remaining rest : MotorSet} {p q : Track σ α} {r : Except Failure Unit} {cs : List (Call α)}

namespace LoopCoupling

theorem awaited_eq (hc : LoopCoupling Before After) (h : Before p q) :
    awaited approach remaining p.machine = awaited approach remaining q.machine := by
  rw [awaited, awaited, hc.limits h]

theorem quiet_iff (hc : LoopCoupling Before After) (h : Before p q) :
    Quiet (seen p.machine) ↔ Quiet (seen q.machine) := by
  obtain ⟨hreset, hdoor, hstop⟩ := Signals.sdiff_status_eq_iff.1 (hc.signals h)
  rw [Quiet, Quiet, hreset, hdoor, hstop]

/-- A turn that goes on for one track goes on for the other. -/
theorem goes (hc : LoopCoupling Before After) (h : Before p q)
    (hgoes : TurnGoes approach remaining p.machine rest cs) :
    ∃ ds, TurnGoes approach remaining q.machine rest ds ∧ After (p.makes cs) (q.makes ds) := by
  refine ⟨_, ⟨hgoes.rest_eq.trans (hc.awaited_eq h), hgoes.rest_ne,
    (hc.quiet_iff h).1 hgoes.quiet, rfl⟩, ?_⟩
  rw [hgoes.calls_eq, Track.makes_append, Track.makes_append]
  exact hc.poll (hc.served h)

/-- A turn ends the loop of both tracks in the same way. -/
theorem ends (hc : LoopCoupling Before After) (h : Before p q)
    (hends : TurnEnds approach remaining p.machine r cs) :
    ∃ ds, TurnEnds approach remaining q.machine r ds ∧ After (p.makes cs) (q.makes ds) := by
  obtain ⟨hreset, hdoor, hstop⟩ := Signals.sdiff_status_eq_iff.1 (hc.signals h)
  have hserved := hc.served h
  have hstopped := hc.stop hserved
  rw [← Track.makes_append, ← Track.makes_append] at hstopped
  have hlimits := hc.limits (hc.before hstopped)
  cases hends with
  | reset hp => exact ⟨_, .reset (hreset ▸ hp), hserved⟩
  | door hp hp' => exact ⟨_, .door (hreset ▸ hp) (hdoor ▸ hp'), hserved⟩
  | missed hp hp' hp'' happroach =>
      exact ⟨_, .missed (hreset ▸ hp) (hdoor ▸ hp') (hstop ▸ hp'') happroach, hstopped⟩
  | held hp hp' hp'' happroach hon =>
      refine ⟨_, .held (hreset ▸ hp) (hdoor ▸ hp') (hstop ▸ hp'') happroach ?_, hstopped⟩
      exact hlimits ▸ hon
  | cleared hp hp' hp'' happroach hoff =>
      refine ⟨_, .cleared (hreset ▸ hp) (hdoor ▸ hp') (hstop ▸ hp'') happroach (hlimits ▸ hoff), ?_⟩
      rw [Track.makes_append p _ [.poll], Track.makes_append q _ [.poll]]
      exact hc.poll hstopped
  | found hp hnone =>
      refine ⟨_, .found ((hc.quiet_iff h).1 hp) ((hc.awaited_eq h).symm.trans hnone), ?_⟩
      rw [Track.makes_append, Track.makes_append]
      exact hc.poll hserved

end LoopCoupling

/-- Two loops end with the same turn and the same result, or neither ends. -/
theorem turns_coupled (hc : LoopCoupling Before After) (n : Nat) {s w : Session σ α}
    (happ : s.approaching = w.approaching) (h : Before s.track w.track) :
    Option.Rel (fun e e' => e.1 = e'.1 ∧ After e.2.track e'.2.track) (turns n remaining s)
      (turns n remaining w) := by
  induction n generalizing remaining s w with
  | zero => exact .none
  | succ n ih =>
      rw [turns, turns]
      obtain ⟨rest, t, cs, heq, hgoes, hmakes, happ'⟩ | ⟨r, t, cs, heq, hends, hmakes⟩ :=
        turn_cases remaining s
      · obtain ⟨ds, hgoes', hafter⟩ := hc.goes h hgoes
        rw [happ] at hgoes'
        obtain ⟨u, heq', hmakes', happ''⟩ := turn_of_goes hgoes'
        rw [heq, heq']
        refine ih (by rw [happ', happ'', happ]) (hc.before ?_)
        rw [hmakes.track_eq, hmakes'.track_eq]
        exact hafter
      · obtain ⟨ds, hends', hafter⟩ := hc.ends h hends
        rw [happ] at hends'
        obtain ⟨u, heq', hmakes'⟩ := turn_of_ends hends'
        rw [heq, heq']
        refine .some ⟨rfl, ?_⟩
        rw [hmakes.track_eq, hmakes'.track_eq]
        exact hafter

end Loop

/-! ## Couplings -/

variable [Scalar α] {m m' : MachineSettings α}

/-- How two tracks are related in the course of a run: between cycles, within a cycle of axes
with these motors between its phases, and before and after the signals that a turn serves. -/
structure Pairing (σ : Type u) (α : Type v) where
  between : Track σ α → Track σ α → Prop
  within : AxisSet → MotorSet → Track σ α → Track σ α → Prop
  before : AxisSet → MotorSet → Track σ α → Track σ α → Prop
  after : AxisSet → MotorSet → Track σ α → Track σ α → Prop

/-- The settings `m` and `m'` lead two tracks side by side. -/
structure Coupling (m m' : MachineSettings α) (P : Pairing σ α) : Prop where
  homingAxes : m.homingAxes = m'.homingAxes
  axesInCycle : ∀ k, m.axesInCycle k = m'.axesInCycle k
  phasePlan : ∀ motors, phasePlan m motors = phasePlan m' motors
  settle : ∀ motors phase, (planMove m motors phase).settle = (planMove m' motors phase).settle
  state : ∀ {p q}, P.between p q → Machine.state p.machine = Machine.state q.machine
  ambiguous : ∀ {p q}, P.between p q →
    (Machine.limits p.machine).ambiguous = (Machine.limits q.machine).ambiguous
  homeable : ∀ {p q}, P.between p q → Machine.homeable p.machine = Machine.homeable q.machine
  setState : ∀ {p q} state, P.between p q →
    P.between (p.makes [.setState state]) (q.makes [.setState state])
  raiseAlarm : ∀ {p q} alarm, P.between p q →
    P.between (p.makes [.raiseAlarm alarm]) (q.makes [.raiseAlarm alarm])
  enter : ∀ {p q axes}, axes ∩ m.homingAxes = axes → P.between p q →
    P.within axes (Machine.homeable p.machine axes) (p.makes [.enterHoming axes])
      (q.makes [.enterHoming axes])
  limits : ∀ {axes motors p q}, P.within axes motors p q →
    (Machine.limits p.machine).active = (Machine.limits q.machine).active
  start : ∀ {axes motors phase} {s w : Session σ α}, P.within axes motors s.track w.track →
    P.before axes motors (s.beginPhase m motors phase).track (w.beginPhase m' motors phase).track
  loop : ∀ axes motors, LoopCoupling (P.before axes motors) (P.after axes motors)
  rest : ∀ {axes motors p q} ms, P.after axes motors p q →
    P.within axes motors (p.makes [.halt, .dwell ms]) (q.makes [.halt, .dwell ms])
  commit : ∀ {axes motors p q}, P.within axes motors p q →
    P.between (p.makes (closing m axes (.ok ()))) (q.makes (closing m' axes (.ok ())))
  abandon : ∀ {axes motors p q} f, P.after axes motors p q →
    P.after axes motors (p.makes (closing m axes (.error f)))
      (q.makes (closing m' axes (.error f)))

/-- How the phases of a cycle end side by side. -/
inductive PhasesEnd (P : Pairing σ α) (axes : AxisSet) (motors : MotorSet) :
    Except Failure Unit × Session σ α → Except Failure Unit × Session σ α → Prop
  | done {t u : Session σ α} (h : P.within axes motors t.track u.track) :
      PhasesEnd P axes motors (.ok (), t) (.ok (), u)
  | failed {t u : Session σ α} (f : Failure) (h : P.after axes motors t.track u.track) :
      PhasesEnd P axes motors (.error f, t) (.error f, u)

/-- How two cycles end side by side. -/
inductive CycleEnds (P : Pairing σ α) (axes : AxisSet) :
    Except Failure Unit × Session σ α → Except Failure Unit × Session σ α → Prop
  | homed {t u : Session σ α} (h : P.between t.track u.track) :
      CycleEnds P axes (.ok (), t) (.ok (), u)
  | failed {t u : Session σ α} (f : Failure) (motors : MotorSet)
      (h : P.after axes motors t.track u.track) (hexit : .exitHoming axes false ∈ t.calls) :
      CycleEnds P axes (.error f, t) (.error f, u)

/-- How two requests end side by side. -/
inductive RequestEnds (P : Pairing σ α) :
    Except HomingError Unit × Session σ α → Except HomingError Unit × Session σ α → Prop
  | between {t u : Session σ α} (e : Except HomingError Unit) (h : P.between t.track u.track) :
      RequestEnds P (e, t) (e, u)
  /-- The last cycle, of these axes, failed. -/
  | failed {t u : Session σ α} (f : Failure) (axes : AxisSet) (motors : MotorSet)
      (h : P.after axes motors t.track u.track) (hexit : .exitHoming axes false ∈ t.calls) :
      RequestEnds P (.error (.failed f), t) (.error (.failed f), u)

section

variable {P : Pairing σ α} {budget : Nat} {axes : AxisSet} {motors : MotorSet} {s w : Session σ α}

theorem runPhase_coupled (hc : Coupling m m' P) (phase : Phase)
    (h : P.within axes motors s.track w.track) :
    Option.Rel (PhasesEnd P axes motors)
      (runPhase budget m motors phase s) (runPhase budget m' motors phase w) := by
  have hlimits : (Machine.limits s.machine).active = (Machine.limits w.machine).active :=
    hc.limits h
  by_cases hnone : motors = ∅ ∨ phase = .prePulloff ∧ (Machine.limits s.machine).active ∩ motors = ∅
  · obtain ⟨t, hrun, hmakes⟩ := runPhase_of_none budget m phase s hnone
    rw [hlimits] at hnone
    obtain ⟨u, hrun', hmakes'⟩ := runPhase_of_none budget m' phase w hnone
    rw [hrun, hrun']
    refine .some (.done ?_)
    rw [hmakes.track_eq, hmakes'.track_eq, Track.makes_nil, Track.makes_nil]
    exact h
  have hmotors : motors ≠ ∅ := fun he => hnone (.inl he)
  have hon : phase = .prePulloff → (Machine.limits s.machine).active ∩ motors ≠ ∅ :=
    fun hphase hoff => hnone (.inr ⟨hphase, hoff⟩)
  have hon' : phase = .prePulloff → (Machine.limits w.machine).active ∩ motors ≠ ∅ :=
    hlimits ▸ hon
  rw [runPhase_eq_map hmotors hon, runPhase_eq_map hmotors hon']
  obtain ⟨-, -, -, happ⟩ := Session.beginPhase_spec m motors phase s
  obtain ⟨-, -, -, happ'⟩ := Session.beginPhase_spec m' motors phase w
  refine rel_map (turns_coupled (hc.loop axes motors) budget (happ.trans happ'.symm)
    (hc.start h)) ?_
  rintro ⟨r, t⟩ ⟨_, u⟩ ⟨rfl, hend⟩
  have hsettle := t.settle_makes phase (planMove m motors phase).settle r
  have hsettle' := u.settle_makes phase (planMove m motors phase).settle r
  rw [← hc.settle]
  cases r with
  | error f =>
      refine .failed f ?_
      rw [hsettle.track_eq, hsettle'.track_eq, settling, Track.makes_nil, Track.makes_nil]
      exact hend
  | ok v =>
      refine .done ?_
      rw [hsettle.track_eq, hsettle'.track_eq]
      exact hc.rest _ hend

theorem runPhases_coupled (hc : Coupling m m' P) (plan : List Phase)
    (h : P.within axes motors s.track w.track) :
    Option.Rel (PhasesEnd P axes motors)
      (runPhases budget m motors plan s) (runPhases budget m' motors plan w) := by
  induction plan generalizing s w with
  | nil => exact .some (.done h)
  | cons phase rest ih =>
      rw [runPhases_cons, runPhases_cons]
      have hnoted : P.within axes motors (s.note (.phaseBegins phase)).track
          (w.note (.phaseBegins phase)).track := by
        rw [(Session.Makes.note _ s).track_eq, (Session.Makes.note _ w).track_eq, Track.makes_nil,
          Track.makes_nil]
        exact h
      refine rel_bind (runPhase_coupled hc phase hnoted) fun _ _ hphase => ?_
      cases hphase with
      | done hend => exact ih hend
      | failed f hend => exact .some (.failed f hend)

theorem runCycle_coupled (hc : Coupling m m' P)
    (h : P.between s.track w.track) :
    Option.Rel (CycleEnds P (axes ∩ m.homingAxes)) (runCycle budget m axes s)
      (runCycle budget m' axes w) := by
  by_cases hsome : axes ∩ m.homingAxes = ∅
  · have hsome' : axes ∩ m'.homingAxes = ∅ := hc.homingAxes ▸ hsome
    unfold runCycle
    dsimp only
    rw [if_pos (AxisSet.isEmpty_iff.2 hsome), if_pos (AxisSet.isEmpty_iff.2 hsome')]
    exact .some (.homed h)
  have hsome' : axes ∩ m'.homingAxes ≠ ∅ := hc.homingAxes ▸ hsome
  rw [runCycle_eq_map hsome, runCycle_eq_map hsome', ← hc.homingAxes]
  generalize hS : axes ∩ m.homingAxes = S
  have hall : S ∩ m.homingAxes = S := by
    rw [← hS]
    ext n
    rw [AxisSet.mem_inter, AxisSet.mem_inter, and_assoc, and_self_iff]
  have hhomeable : Machine.homeable s.machine S = Machine.homeable w.machine S :=
    congrFun (hc.homeable h) S
  have henter := hc.enter hall h
  rw [← (s.enterCycle_makes m S).track_eq, ← (w.enterCycle_makes m' S).track_eq] at henter
  rw [← hhomeable, ← hc.phasePlan]
  refine rel_map (runPhases_coupled hc _ henter) fun _ _ hphases => ?_
  cases hphases with
  | @failed t u f hend =>
      have hclose := t.close_makes m S (.error f)
      have hclose' := u.close_makes m' S (.error f)
      refine .failed f (Machine.homeable s.machine S) ?_ ?_
      · rw [hclose.track_eq, hclose'.track_eq]
        exact hc.abandon f hend
      · rw [hclose.calls]
        exact List.mem_append_right _ (by simp [closing])
  | @done t u hend =>
      refine .homed ?_
      rw [(t.close_makes m S (.ok ())).track_eq, (u.close_makes m' S (.ok ())).track_eq]
      exact hc.commit hend

theorem runNumbered_coupled (hc : Coupling m m' P) (found : Bool)
    (ns : List Nat) (h : P.between s.track w.track) :
    Option.Rel (RequestEnds P) (runNumbered budget m found ns s)
      (runNumbered budget m' found ns w) := by
  induction ns generalizing found s w with
  | nil =>
      rw [runNumbered, runNumbered]
      cases found with
      | true => exact .some (.between _ h)
      | false =>
          refine .some (.between _ ?_)
          have hmakes (s : Session σ α) := (Session.Makes.note .noCycles s).snoc (.setState .alarm)
          rw [(hmakes s).track_eq, (hmakes w).track_eq]
          exact hc.setState _ h
  | cons k ns ih =>
      have hstate : Machine.state s.machine = Machine.state w.machine := hc.state h
      by_cases halarm : Machine.state s.machine = .alarm
      · rw [runNumbered_of_alarm halarm, runNumbered_of_alarm (hstate ▸ halarm)]
        exact .some (.between _ h)
      have halarm' : Machine.state w.machine ≠ .alarm := hstate ▸ halarm
      by_cases hempty : m.axesInCycle k = ∅
      · rw [runNumbered_of_empty halarm hempty,
          runNumbered_of_empty halarm' (hc.axesInCycle k ▸ hempty)]
        exact ih found h
      rw [runNumbered_cons halarm hempty, runNumbered_cons halarm' (hc.axesInCycle k ▸ hempty),
        ← hc.axesInCycle]
      have hbegun : P.between (s.beginCycle m k).track (w.beginCycle m' k).track := by
        unfold Session.beginCycle
        rw [(Session.Makes.note _ s).track_eq, (Session.Makes.note _ w).track_eq, Track.makes_nil,
          Track.makes_nil]
        exact h
      refine rel_bind (runCycle_coupled hc hbegun) fun _ _ hcycle => ?_
      cases hcycle with
      | homed hend => exact ih true hend
      | failed f motors hend hexit => exact .some (.failed f _ motors hend hexit)

theorem runRequest_coupled (hc : Coupling m m' P) (request : Request)
    (h : P.between s.track w.track) :
    Option.Rel (RequestEnds P) (runRequest budget m request s)
      (runRequest budget m' request w) := by
  have hambiguous : (Machine.limits s.machine).ambiguous = (Machine.limits w.machine).ambiguous :=
    hc.ambiguous h
  by_cases hlimits : (Machine.limits s.machine).ambiguous = ∅
  · have hlimits' : (Machine.limits w.machine).ambiguous = ∅ := hambiguous ▸ hlimits
    cases request with
    | axes axes =>
        rw [runRequest_axes hlimits, runRequest_axes hlimits']
        refine rel_map (runCycle_coupled hc h) fun _ _ hcycle => ?_
        cases hcycle with
        | homed hend => exact .between _ hend
        | failed f motors hend hexit => exact .failed f _ motors hend hexit
    | all =>
        rw [runRequest_all hlimits, runRequest_all hlimits']
        exact runNumbered_coupled hc false _ h
  · have hlimits' : (Machine.limits w.machine).ambiguous ≠ ∅ := hambiguous ▸ hlimits
    unfold runRequest
    dsimp only
    rw [if_neg fun he => hlimits (MotorSet.isEmpty_iff.1 he),
      if_neg fun he => hlimits' (MotorSet.isEmpty_iff.1 he)]
    refine .some (.between _ ?_)
    rw [((Session.Makes.note _ s).snoc (.raiseAlarm .hardLimit)).track_eq,
      ((Session.Makes.note _ w).snoc (.raiseAlarm .hardLimit)).track_eq]
    exact hc.raiseAlarm _ h

/-- With the same number of turns two coupled requests both end, with the same result, or
neither does. -/
theorem home_coupled (hc : Coupling m m' P) (request : Request) {x y : σ}
    (h : P.between ⟨x, []⟩ ⟨y, []⟩) :
    Option.Rel (RequestEnds P) (home budget m request x)
      (home budget m' request y) := by
  have hbegin (x : σ) := Session.Makes.call (.setState .homing) (Session.begin x : Session σ α)
  have hbegun := hc.setState .homing h
  refine rel_map (runRequest_coupled hc request ?_) fun _ _ hrequest => ?_
  · rw [(hbegin x).track_eq, (hbegin y).track_eq]
    exact hbegun
  cases hrequest with
  | @between t u e hend =>
      cases e with
      | error e => exact .between _ hend
      | ok v =>
          refine .between _ ?_
          have hidle (t : Session σ α) :=
            (Session.Makes.call (.setState .idle) t).snoc_note .homingComplete
          rw [(hidle t).track_eq, (hidle u).track_eq]
          exact hc.setState _ hend
  | failed f axes motors hend hexit => exact .failed f axes motors hend hexit

end

/-! ## Sessions with one track -/

/-- Two tracks that are one and the same. -/
def samePairing : Pairing σ α where
  between := Eq
  within _ _ := Eq
  before _ _ := Eq
  after _ _ := Eq

omit [Scalar α] in
theorem loopCoupling_same : LoopCoupling (σ := σ) (α := α) Eq Eq where
  before h := h
  limits h := by rw [h]
  signals h := by rw [h]
  served h := by rw [h]
  stop h := by rw [h]
  poll h := by rw [h]

/-- What a run does depends on nothing in its session but the machine. -/
theorem coupling_same (m : MachineSettings α) : Coupling m m (samePairing : Pairing σ α) where
  homingAxes := rfl
  axesInCycle _ := rfl
  phasePlan _ := rfl
  settle _ _ := rfl
  state h := by rw [h]
  ambiguous h := by rw [h]
  homeable h := by rw [h]
  setState _ h := by rw [samePairing, h]
  raiseAlarm _ h := by rw [samePairing, h]
  enter _ h := by rw [samePairing, h]
  limits h := by rw [h]
  start {axes motors phase s w} h := by
    obtain ⟨mv, -, hbegin, -⟩ := Session.beginPhase_spec m motors phase s
    have hmachine : s.machine = w.machine := congrArg Track.machine h
    have hbegin' : w.Makes (starting (planMove m motors phase) mv) (w.beginPhase m motors phase) :=
      Session.beginPhase_alike hbegin fun pre _ => by rw [hmachine]
    show (s.beginPhase m motors phase).track = (w.beginPhase m motors phase).track
    rw [hbegin.track_eq, hbegin'.track_eq, h]
  loop _ _ := loopCoupling_same
  rest _ h := by rw [samePairing, h]
  commit h := by rw [samePairing, h]
  abandon _ h := by rw [samePairing, h]

end Homing
