import Homing.Proofs.Engine.CycleRun

/-!
# Machines that look alike

The engine reads a machine through its five views and in no other way. So two machines
that show the same along the calls of a run (`AlikeAlong`) have the same run: the engine
makes the same calls of both, ends with the same result, and needs as many turns.

What the two machines do after the last call of a run, and what they note, is left open.
A run is therefore carried over from one machine to another without a word on how the
second one came about.
-/

namespace Homing

variable {σ : Type u} {α : Type v} [Machine σ α]

/-- Two machines show the same in every view. -/
structure Alike (x y : σ) : Prop where
  limits : Machine.limits x = Machine.limits y
  steps : Machine.steps x = Machine.steps y
  homeable : Machine.homeable x = Machine.homeable y
  state : Machine.state x = Machine.state y
  pending : Machine.pending x = Machine.pending y

theorem Alike.refl (x : σ) : Alike x x := ⟨rfl, rfl, rfl, rfl, rfl⟩

/-- Two machines show the same before and after each of these calls. -/
def AlikeAlong (cs : List (Call α)) (x y : σ) : Prop :=
  ∀ pre, pre <+: cs → Alike (Machine.after pre x) (Machine.after pre y)

namespace AlikeAlong

variable {cs ds : List (Call α)} {x y : σ}

theorem refl (cs : List (Call α)) (x : σ) : AlikeAlong cs x x := fun _ _ => .refl _

theorem of_prefix (h : AlikeAlong ds x y) (hpre : cs <+: ds) : AlikeAlong cs x y :=
  fun pre hp => h pre (hp.trans hpre)

theorem left (h : AlikeAlong (cs ++ ds) x y) : AlikeAlong cs x y := h.of_prefix ⟨ds, rfl⟩

theorem right (h : AlikeAlong (cs ++ ds) x y) :
    AlikeAlong ds (Machine.after cs x) (Machine.after cs y) := by
  intro pre hpre
  rw [← Machine.after_append, ← Machine.after_append]
  exact h (cs ++ pre) (List.prefix_append_right_inj cs |>.2 hpre)

theorem first (h : AlikeAlong cs x y) : Alike x y := h [] List.nil_prefix

theorem last (h : AlikeAlong cs x y) : Alike (Machine.after cs x) (Machine.after cs y) :=
  h cs List.prefix_rfl

theorem seen_eq (h : AlikeAlong (.refill :: cs) x y) : seen x = seen y :=
  (h [.refill] ⟨cs, rfl⟩).pending

end AlikeAlong

/-- Two machines show the same step counters before and after each of these calls. -/
def CountersAlong (cs : List (Call α)) (x y : σ) : Prop :=
  ∀ pre, pre <+: cs → Machine.steps (Machine.after pre x) = Machine.steps (Machine.after pre y)

theorem AlikeAlong.counters {cs : List (Call α)} {x y : σ} (h : AlikeAlong cs x y) :
    CountersAlong cs x y :=
  fun pre hpre => (h pre hpre).steps

theorem Session.Makes.calls_unique {cs ds : List (Call α)} {s t : Session σ α}
    (h : s.Makes cs t) (g : s.Makes ds t) : cs = ds :=
  List.append_cancel_left (h.calls.symm.trans g.calls)

/-! ## One turn -/

section

variable {approach : Bool} {remaining rest rest' : MotorSet} {x y : σ} {r r' : Except Failure Unit}
  {cs cs' : List (Call α)}

theorem TurnGoes.alike (h : TurnGoes approach remaining x rest cs) (ha : AlikeAlong cs x y) :
    TurnGoes approach remaining y rest cs := by
  have hseen : seen x = seen y := by
    rw [h.calls_eq, service] at ha
    exact ha.seen_eq
  refine ⟨?_, h.rest_ne, hseen ▸ h.quiet, hseen ▸ h.calls_eq⟩
  rw [h.rest_eq, awaited, awaited, ha.first.limits]

theorem TurnEnds.alike (h : TurnEnds approach remaining x r cs) (ha : AlikeAlong cs x y) :
    TurnEnds approach remaining y r cs := by
  have hseen : seen x = seen y := by
    cases h <;> exact AlikeAlong.seen_eq ha
  cases h with
  | reset hreset =>
      rw [hseen] at hreset ⊢
      exact .reset hreset
  | door hreset hdoor =>
      rw [hseen] at hreset hdoor ⊢
      exact .door hreset hdoor
  | missed hreset hdoor hstop happroach =>
      rw [hseen] at hreset hdoor hstop ⊢
      exact .missed hreset hdoor hstop happroach
  | held hreset hdoor hstop happroach hon =>
      rw [ha.last.limits] at hon
      rw [hseen] at hreset hdoor hstop hon ⊢
      exact .held hreset hdoor hstop happroach hon
  | cleared hreset hdoor hstop happroach hoff =>
      rw [ha.left.last.limits] at hoff
      rw [hseen] at hreset hdoor hstop hoff ⊢
      exact .cleared hreset hdoor hstop happroach hoff
  | found hquiet hnone =>
      rw [awaited, ha.first.limits] at hnone
      rw [hseen] at hquiet ⊢
      exact .found hquiet hnone

/-- A turn that goes on does not end the loop. -/
theorem TurnGoes.not_ends (h : TurnGoes approach remaining x rest cs)
    (g : TurnEnds approach remaining x r cs') : False := by
  obtain ⟨hrest, hne, ⟨hreset, hdoor, hstop⟩, -⟩ := h
  cases g with
  | reset h => simp [hreset] at h
  | door _ h => simp [hdoor] at h
  | missed _ _ h _ => simp [hstop] at h
  | held _ _ h _ _ => simp [hstop] at h
  | cleared _ _ h _ _ => simp [hstop] at h
  | found _ hnone => exact hne (hrest.trans hnone)

/-- A loop ends in one way: the conditions of the six ways exclude each other. -/
theorem TurnEnds.unique (h : TurnEnds approach remaining x r cs)
    (g : TurnEnds approach remaining x r' cs') : r = r' ∧ cs = cs' := by
  cases h <;> cases g <;> simp_all [Quiet]

theorem TurnGoes.unique (h : TurnGoes approach remaining x rest cs)
    (g : TurnGoes approach remaining x rest' cs') : rest = rest' ∧ cs = cs' :=
  ⟨h.rest_eq.trans g.rest_eq.symm, h.calls_eq.trans g.calls_eq.symm⟩

theorem turn_of_goes {s : Session σ α}
    (h : TurnGoes s.approaching remaining s.machine rest cs) :
    ∃ t, turn remaining s = .more rest t ∧ s.Makes cs t ∧ t.approaching = s.approaching := by
  obtain ⟨rest', t, cs', heq, hgoes, hmakes, happ⟩ | ⟨_, _, _, -, hends, -⟩ :=
    turn_cases remaining s
  · obtain ⟨rfl, rfl⟩ := h.unique hgoes
    exact ⟨t, heq, hmakes, happ⟩
  · exact (h.not_ends hends).elim

theorem turn_of_ends {s : Session σ α} (h : TurnEnds s.approaching remaining s.machine r cs) :
    ∃ t, turn remaining s = .ended r t ∧ s.Makes cs t := by
  obtain ⟨_, _, _, -, hgoes, -⟩ | ⟨r', t, cs', heq, hends, hmakes⟩ := turn_cases remaining s
  · exact (hgoes.not_ends h).elim
  · obtain ⟨rfl, rfl⟩ := h.unique hends
    exact ⟨t, heq, hmakes⟩

end

/-! ## Runs -/

section

variable {budget : Nat} {s w t : Session σ α} {r : Except Failure Unit} {cs : List (Call α)}

theorem turns_alike {n : Nat} {remaining : MotorSet} (h : turns n remaining s = some (r, t))
    (hmakes : s.Makes cs t) (happ : w.approaching = s.approaching)
    (ha : AlikeAlong cs s.machine w.machine) :
    ∃ t', turns n remaining w = some (r, t') ∧ w.Makes cs t' := by
  induction n generalizing remaining s w cs with
  | zero => simp [turns] at h
  | succ n ih =>
      -- What the first turn reads is the same, and the rest is alike along the calls that are left.
      rw [turns] at h ⊢
      obtain ⟨rest, u, ds, heq, hgoes, hfirst, happ'⟩ | ⟨r', u, ds, heq, hends, hlast⟩ :=
        turn_cases remaining s
      · rw [heq] at h
        obtain ⟨es, -, hrest⟩ := loopRun_of_turns h
        obtain rfl := hmakes.calls_unique (hfirst.trans hrest)
        have hgoes' := hgoes.alike ha.left
        rw [← happ] at hgoes'
        obtain ⟨u', heq', hfirst', happ''⟩ := turn_of_goes hgoes'
        have halike := ha.right
        rw [← hfirst.machine, ← hfirst'.machine] at halike
        obtain ⟨t', hturns, hrest'⟩ := ih h hrest (by rw [happ'', happ, happ']) halike
        exact ⟨t', by rw [heq']; exact hturns, hfirst'.trans hrest'⟩
      · rw [heq] at h
        obtain ⟨rfl, rfl⟩ : r' = r ∧ u = t := by simpa using h
        obtain rfl := hmakes.calls_unique hlast
        have hends' := hends.alike ha
        rw [← happ] at hends'
        obtain ⟨u', heq', hlast'⟩ := turn_of_ends hends'
        exact ⟨u', by rw [heq'], hlast'⟩

variable [Scalar α] {m : MachineSettings α} {motors : MotorSet} {phase : Phase}

namespace Session

/-- Where a plan sends the axes beside it depends on the step counters alone. -/
theorem placeAxes_alike {planned : PlannedMove α} {l : List (AxisSettings α × Nat)}
    (ha : CountersAlong (zeroed planned l) s.machine w.machine) (target : PerAxis α) :
    (w.placeAxes planned l target).1 = (s.placeAxes planned l target).1 := by
  induction l generalizing target s w with
  | nil => rfl
  | cons e l ih =>
      obtain ⟨a, n⟩ := e
      unfold placeAxes
      by_cases hn : n ∈ planned.axes
      · rw [if_pos hn, if_pos hn]
        have hzeroed : zeroed planned ((a, n) :: l) = [.setSteps n 0] ++ zeroed planned l := by
          simp [zeroed, hn]
        rw [hzeroed] at ha
        refine ih (fun pre hpre => ?_) target
        rw [machine_call, machine_call]
        exact ha ([.setSteps n 0] ++ pre) ((List.prefix_append_right_inj _).2 hpre)
      · have hsteps : Machine.steps s.machine = Machine.steps w.machine := ha [] List.nil_prefix
        rw [if_neg hn, if_neg hn, hsteps]
        have hzeroed : zeroed planned ((a, n) :: l) = zeroed planned l := by
          simp [zeroed, hn]
        rw [hzeroed] at ha
        exact ih ha _

/-- The move that a phase hands over, from the session in which its axes are placed. -/
def moveOf (m : MachineSettings α) (motors : MotorSet) (phase : Phase) (s : Session σ α) :
    Move α where
  target := (placeAxes (planMove m motors phase) (m.axes.zipIdx.take maxAxes)
    (planMove m motors phase).target s).1
  feedRate := (planMove m motors phase).feedRate
  flags := .homing
  approach := phase.isApproach
  overrides := (planMove m motors phase).overrides

theorem startPhase_makes (m : MachineSettings α) (motors : MotorSet) (phase : Phase)
    (s : Session σ α) : s.Makes (starting (planMove m motors phase)
      ((s.noteAll (planNotes m motors phase)).moveOf m motors phase))
      (s.startPhase m motors phase) := by
  obtain ⟨hplaced, -⟩ := placeAxes_makes (planMove m motors phase)
    (m.axes.zipIdx.take maxAxes) (planMove m motors phase).target
    (s.noteAll (planNotes m motors phase))
  rw [zeroed_planMove] at hplaced
  have hnoted := (Makes.noteAll (planNotes m motors phase) s).trans hplaced
  have hstarted (mv : Move α) := ((hnoted.snoc (.submit mv)).snoc .refill).snoc .start
  simp only [List.append_assoc, List.cons_append, List.nil_append] at hstarted
  exact hstarted _

/-- A phase begins in the same way on two machines that show the same step counters until the move
is handed over. -/
theorem beginPhase_alike {mv : Move α}
    (hmakes : s.Makes (starting (planMove m motors phase) mv) (s.beginPhase m motors phase))
    (ha : CountersAlong (zeroing (planMove m motors phase).axes maxAxes) s.machine w.machine) :
    w.Makes (starting (planMove m motors phase) mv) (w.beginPhase m motors phase) := by
  have key (s : Session σ α) := (Makes.setApproaching phase.isApproach s).trans
    (startPhase_makes m motors phase (s.setApproaching phase.isApproach))
  rw [hmakes.calls_unique (key s)]
  have hmove : moveOf m motors phase
        ((w.setApproaching phase.isApproach).noteAll (planNotes m motors phase)) =
      moveOf m motors phase
        ((s.setApproaching phase.isApproach).noteAll (planNotes m motors phase)) := by
    unfold moveOf
    rw [placeAxes_alike]
    rw [zeroed_planMove, machine_noteAll, machine_noteAll]
    exact ha
  rw [← hmove]
  exact key w

end Session

/-! ## Phases and cycles -/

theorem runPhase_alike (h : runPhase budget m motors phase s = some (r, t))
    (hmakes : s.Makes cs t) (ha : AlikeAlong cs s.machine w.machine) :
    ∃ t', runPhase budget m motors phase w = some (r, t') ∧ w.Makes cs t' := by
  by_cases hnone : motors = ∅ ∨ phase = .prePulloff ∧ (Machine.limits s.machine).active ∩ motors = ∅
  · obtain ⟨u, hrun, hidle⟩ := runPhase_of_none budget m phase s hnone
    obtain ⟨rfl, rfl⟩ : .ok () = r ∧ u = t := by simpa [hrun] using h
    obtain rfl := hmakes.calls_unique hidle
    rw [ha.first.limits] at hnone
    exact runPhase_of_none budget m phase w hnone
  have hmotors : motors ≠ ∅ := fun he => hnone (.inl he)
  have hon : phase = .prePulloff → (Machine.limits s.machine).active ∩ motors ≠ ∅ :=
    fun hphase hoff => hnone (.inr ⟨hphase, hoff⟩)
  rw [runPhase_eq_map hmotors hon] at h
  obtain ⟨⟨r', u⟩, hturns, hend⟩ := Option.map_eq_some_iff.1 h
  obtain ⟨rfl, rfl⟩ := Prod.mk.inj hend
  obtain ⟨mv, -, hbegin, happ⟩ := Session.beginPhase_spec m motors phase s
  obtain ⟨loop, -, hloop⟩ := loopRun_of_turns hturns
  obtain rfl := hmakes.calls_unique ((hbegin.trans hloop).trans (u.settle_makes phase _ r'))
  have hbegin' := Session.beginPhase_alike hbegin ha.left.left.left.counters
  obtain ⟨-, -, -, happ'⟩ := Session.beginPhase_spec m motors phase w
  have halike := ha.left.right
  rw [← hbegin.machine, ← hbegin'.machine] at halike
  obtain ⟨u', hturns', hloop'⟩ := turns_alike hturns hloop (happ'.trans happ.symm) halike
  rw [ha.first.limits] at hon
  exact ⟨_, by rw [runPhase_eq_map hmotors hon, hturns']; rfl,
    (hbegin'.trans hloop').trans (u'.settle_makes phase _ r')⟩

theorem runPhases_alike {plan : List Phase} (h : runPhases budget m motors plan s = some (r, t))
    (hmakes : s.Makes cs t) (ha : AlikeAlong cs s.machine w.machine) :
    ∃ t', runPhases budget m motors plan w = some (r, t') ∧ w.Makes cs t' := by
  induction plan generalizing s w cs with
  | nil =>
      obtain ⟨rfl, rfl⟩ : .ok () = r ∧ s = t := by simpa [runPhases] using h
      obtain rfl := hmakes.calls_unique (.refl s)
      exact ⟨w, rfl, .refl w⟩
  | cons phase rest ih =>
      rw [runPhases_cons] at h ⊢
      obtain ⟨⟨r', u⟩, hphase, h⟩ := Option.bind_eq_some_iff.1 h
      obtain ⟨ds, -, hfirst⟩ := phaseRun_of_runPhase hphase
      cases r' with
      | error f =>
          obtain ⟨rfl, rfl⟩ := Prod.mk.inj (Option.some.inj h)
          obtain rfl := hmakes.calls_unique hfirst.of_note
          obtain ⟨u', hphase', hfirst'⟩ :=
            runPhase_alike (w := w.note (.phaseBegins phase)) hphase hfirst ha
          exact ⟨u', by rw [hphase']; rfl, hfirst'.of_note⟩
      | ok v =>
          obtain ⟨es, -, hrest⟩ := phasesRun_of_runPhases h
          obtain rfl := hmakes.calls_unique (hfirst.of_note.trans hrest)
          obtain ⟨u', hphase', hfirst'⟩ :=
            runPhase_alike (w := w.note (.phaseBegins phase)) hphase hfirst ha.left
          have halike := ha.right
          rw [← hfirst.of_note.machine, ← hfirst'.of_note.machine] at halike
          obtain ⟨t', hrest', hmakes'⟩ := ih h hrest halike
          exact ⟨t', by rw [hphase']; exact hrest', hfirst'.of_note.trans hmakes'⟩

theorem runCycle_alike {axes : AxisSet} (h : runCycle budget m axes s = some (r, t))
    (hmakes : s.Makes cs t) (ha : AlikeAlong cs s.machine w.machine) :
    ∃ t', runCycle budget m axes w = some (r, t') ∧ w.Makes cs t' := by
  by_cases hsome : axes ∩ m.homingAxes = ∅
  · have hnone (s : Session σ α) : runCycle budget m axes s = some (.ok (), s) := by
      unfold runCycle
      dsimp only
      rw [if_pos (AxisSet.isEmpty_iff.2 hsome)]
    rw [hnone] at h ⊢
    obtain ⟨rfl, rfl⟩ : .ok () = r ∧ s = t := by simpa using h
    obtain rfl := hmakes.calls_unique (.refl s)
    exact ⟨w, rfl, .refl w⟩
  rw [runCycle_eq_map hsome] at h ⊢
  obtain ⟨⟨r', u⟩, hphases, hend⟩ := Option.map_eq_some_iff.1 h
  obtain ⟨rfl, rfl⟩ := Prod.mk.inj hend
  have henter (s : Session σ α) := s.enterCycle_makes m (axes ∩ m.homingAxes)
  obtain ⟨ds, -, hmoves⟩ := phasesRun_of_runPhases hphases
  obtain rfl := hmakes.calls_unique (((henter s).trans hmoves).trans (u.close_makes m _ r'))
  have halike := ha.left.right
  rw [← (henter s).machine, ← (henter w).machine] at halike
  obtain ⟨u', hphases', hmoves'⟩ := runPhases_alike hphases hmoves halike
  rw [← ha.first.homeable]
  exact ⟨_, by rw [hphases']; rfl,
    ((henter w).trans hmoves').trans (u'.close_makes m _ r')⟩

end

end Homing
