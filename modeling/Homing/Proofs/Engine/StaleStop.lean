import Homing.Proofs.Engine.Coupled
import Homing.Proofs.Engine.Iterations
import Homing.Proofs.Engine.Starts

/-!
# A stop that waits when homing begins

The signal that a motion has ended stays until it is acknowledged, and it does not say which
motion it was. So it may wait when homing begins, left by a motion that has long ended. `AddsStop f`
says that `f` raises this signal in a machine and does nothing else, and the runs of `x` and `f x`
are told from each other.

Up to the first move the engine looks at no signal, and the two runs go side by side
(`Abreast.waits`). The first turn after the move reads it. If the turn ends the loop in any case,
at a reset, an open door or a stop of its own, both loops end in the same way, and with them the
signal is gone (`Abreast.same`). If the turn sees nothing of the kind in `x`, it is the signal that
ends the loop in `f x`, and the runs part (`Parts`).
-/

namespace Homing

variable {σ : Type u} {α : Type v} [Machine σ α]

/-- A call that leaves the end of a motion waiting. -/
def Call.KeepsStop : Call α → Prop
  | acknowledge signals => signals.cycleStop = false
  | dispatch => False
  | _ => True

/-- The function raises the end of a motion in a machine, and nothing else shows of it. -/
structure AddsStop (f : σ → σ) : Prop where
  limits : ∀ x, Machine.limits (f x) = Machine.limits x
  steps : ∀ x, Machine.steps (f x) = Machine.steps x
  homeable : ∀ x, Machine.homeable (f x) = Machine.homeable x
  state : ∀ x, Machine.state (f x) = Machine.state x
  pending : ∀ x, Machine.pending (f x) = Machine.pending x ∪ .stop
  apply : ∀ (c : Call α) x, c.KeepsStop → (Machine.apply c (f x)).1 = f (Machine.apply c x).1
  /-- Once acknowledged the signal leaves no trace. -/
  acknowledge : ∀ x, (Machine.apply (.acknowledge .stop) (f x)).1 =
    (Machine.apply (.acknowledge .stop) x).1
  dispatch : ∀ x, (Machine.apply .dispatch (f x)).1 = (Machine.apply .dispatch x).1

variable {f : σ → σ} {x : σ} {cs : List (Call α)} {s t u v w : Session σ α}

omit [Machine σ α] in
theorem keepsStop_service {status : Bool} :
    ∀ c ∈ (service status : List (Call α)), c.KeepsStop := by
  cases status <;> simp [service, Call.KeepsStop, Signals.status]

omit [Machine σ α] in
theorem keepsStop_zeroing (axes : AxisSet) (n : Nat) :
    ∀ c ∈ (zeroing axes n : List (Call α)), c.KeepsStop := by
  intro c hc
  obtain ⟨k, -, rfl⟩ := List.mem_map.1 hc
  trivial

theorem AddsStop.after (hf : AddsStop f) (hcs : ∀ c ∈ cs, c.KeepsStop) (x : σ) :
    Machine.after cs (f x) = f (Machine.after cs x) := by
  induction cs generalizing x with
  | nil => rfl
  | cons c cs ih =>
      rw [Machine.after_cons, Machine.after_cons, hf.apply c x (hcs c List.mem_cons_self)]
      exact ih (fun d hd => hcs d (List.mem_cons_of_mem c hd)) _

theorem AddsStop.seen (hf : AddsStop f) (x : σ) : seen (f x) = seen x ∪ .stop := by
  have hrefill : Machine.after [.refill] (f x) = f (Machine.after [.refill] x) :=
    hf.after (by simp [Call.KeepsStop]) x
  rw [Homing.seen, Homing.seen, hrefill, hf.pending]

theorem AddsStop.seen_statusReport (hf : AddsStop f) (x : σ) :
    (Homing.seen (f x)).statusReport = (Homing.seen x).statusReport := by
  rw [hf.seen]
  exact Bool.or_false _

theorem AddsStop.seen_reset (hf : AddsStop f) (x : σ) :
    (Homing.seen (f x)).reset = (Homing.seen x).reset := by
  rw [hf.seen]
  exact Bool.or_false _

theorem AddsStop.seen_safetyDoor (hf : AddsStop f) (x : σ) :
    (Homing.seen (f x)).safetyDoor = (Homing.seen x).safetyDoor := by
  rw [hf.seen]
  exact Bool.or_false _

theorem AddsStop.seen_cycleStop (hf : AddsStop f) (x : σ) :
    (Homing.seen (f x)).cycleStop = true := by
  rw [hf.seen]
  exact Bool.or_true _

/-! ## Side by side -/

/-- The sessions are the same but for the end of a motion, which waits in the second one, and no
move has been handed over. -/
structure Waits (f : σ → σ) (s w : Session σ α) : Prop where
  machine : w.machine = f s.machine
  calls : w.calls = s.calls
  unmoved : submissions s.calls = []

/-- The sessions have the same machine and have made the same calls. -/
def SameTrack (s w : Session σ α) : Prop := s.track = w.track

/-- The signal still waits, or it is gone and made no difference. -/
inductive Abreast (f : σ → σ) (s w : Session σ α) : Prop
  | waits (h : Waits f s w)
  | same (h : SameTrack s w)

/-- How a loop, a phase or several phases end side by side, where `R` is said of the sessions if
they end well. A failure may leave the signal, which the end of the cycle then clears. -/
inductive EndsAbreast (f : σ → σ) (R : Session σ α → Session σ α → Prop) :
    Except Failure Unit × Session σ α → Except Failure Unit × Session σ α → Prop
  | done {t v : Session σ α} (h : R t v) : EndsAbreast f R (.ok (), t) (.ok (), v)
  | failed {t v : Session σ α} (failure : Failure) (hcalls : v.calls = t.calls)
      (hmachine : v.machine = t.machine ∨ v.machine = f t.machine) :
      EndsAbreast f R (.error failure, t) (.error failure, v)

theorem Waits.makes (hf : AddsStop f) (h : Waits f s w) (hs : s.Makes cs t) (hw : w.Makes cs v)
    (hkeeps : ∀ c ∈ cs, c.KeepsStop) (hunmoved : submissions cs = []) : Waits f t v where
  machine := by rw [hw.machine, hs.machine, h.machine, hf.after hkeeps]
  calls := by rw [hw.calls, hs.calls, h.calls]
  unmoved := by rw [hs.calls, submissions_append, h.unmoved, hunmoved, List.append_nil]

/-- As long as the signal waits, both sessions make the same calls, and no move is among them. -/
theorem Waits.sameCalls {ds : List (Call α)} (h : Waits f s w) (h' : Waits f t v)
    (hs : s.Makes cs t) (hw : w.Makes ds v) : ds = cs ∧ submissions cs = [] := by
  have hcalls := h'.calls
  rw [hs.calls, hw.calls, h.calls] at hcalls
  have hunmoved := h'.unmoved
  rw [hs.calls, submissions_append, h.unmoved] at hunmoved
  exact ⟨List.append_cancel_left hcalls, hunmoved⟩

omit [Machine σ α] in
theorem SameTrack.machine (h : SameTrack s w) : w.machine = s.machine :=
  (congrArg Track.machine h).symm

omit [Machine σ α] in
theorem SameTrack.calls (h : SameTrack s w) : w.calls = s.calls := (congrArg Track.calls h).symm

theorem SameTrack.makes (h : SameTrack s w) (hs : s.Makes cs t) (hw : w.Makes cs v) :
    SameTrack t v := by
  rw [SameTrack, hs.track_eq, hw.track_eq, h]

/-- The runs of `s` and `w` part after the calls `pre` and the move `mv`: in `u` nothing ends the
loop of the move at once, while in `v` the end of a motion does. -/
structure Parts (f : σ → σ) (s w : Session σ α) (pre : List (Call α)) (mv : Move α)
    (u v : Session σ α) : Prop where
  first : s.Makes (pre ++ handing mv) u
  second : w.Makes (pre ++ handing mv) v
  unmoved : submissions pre = []
  machine : v.machine = f u.machine
  quiet : Quiet (seen u.machine)
  approaching : v.approaching = mv.approach

theorem Parts.of_makes {pre : List (Call α)} {mv : Move α} {s' w' : Session σ α}
    (hs : s.Makes cs s') (hw : w.Makes cs w') (hunmoved : submissions cs = [])
    (h : Parts f s' w' pre mv u v) : Parts f s w (cs ++ pre) mv u v where
  first := by
    rw [List.append_assoc]
    exact hs.trans h.first
  second := by
    rw [List.append_assoc]
    exact hw.trans h.second
  unmoved := by rw [submissions_append, hunmoved, h.unmoved, List.append_nil]
  machine := h.machine
  quiet := h.quiet
  approaching := h.approaching

/-! ## The first turn -/

/-- A turn that ends the loop at a signal ends it in the same way when a stop waits as well. -/
theorem TurnEnds.addsStop {approach : Bool} {motors : MotorSet} {r : Except Failure Unit}
    (hf : AddsStop f) (h : TurnEnds approach motors x r cs) (hnot : ¬ Quiet (seen x)) :
    TurnEnds approach motors (f x) r cs ∧ (Machine.after cs (f x) = Machine.after cs x ∨
      (∃ failure, r = .error failure) ∧ Machine.after cs (f x) = f (Machine.after cs x)) := by
  have hstatus := hf.seen_statusReport x
  have hreset := hf.seen_reset x
  have hdoor := hf.seen_safetyDoor x
  have hstop := hf.seen_cycleStop x
  have hfront : Machine.after (service (seen x).statusReport) (f x) =
      f (Machine.after (service (seen x).statusReport) x) := hf.after keepsStop_service x
  -- The signal is gone once the turn has acknowledged its own.
  have hacknowledged : Machine.after (service (seen x).statusReport ++ [.acknowledge .stop]) (f x) =
      Machine.after (service (seen x).statusReport ++ [.acknowledge .stop]) x := by
    rw [Machine.after_append, Machine.after_append, hfront]
    exact hf.acknowledge _
  cases h with
  | reset h =>
      refine ⟨?_, .inr ⟨⟨_, rfl⟩, hfront⟩⟩
      rw [← hstatus]
      exact .reset (hreset.trans h)
  | door h h' =>
      refine ⟨?_, .inr ⟨⟨_, rfl⟩, hfront⟩⟩
      rw [← hstatus]
      exact .door (hreset.trans h) (hdoor.trans h')
  | missed h h' _ happroach =>
      refine ⟨?_, .inl hacknowledged⟩
      rw [← hstatus]
      exact .missed (hreset.trans h) (hdoor.trans h') hstop happroach
  | held h h' _ happroach hon =>
      refine ⟨?_, .inl hacknowledged⟩
      rw [← hacknowledged] at hon
      rw [← hstatus] at hon ⊢
      exact .held (hreset.trans h) (hdoor.trans h') hstop happroach hon
  | cleared h h' _ happroach hoff =>
      refine ⟨?_, .inl ?_⟩
      · rw [← hacknowledged] at hoff
        rw [← hstatus] at hoff ⊢
        exact .cleared (hreset.trans h) (hdoor.trans h') hstop happroach hoff
      · rw [Machine.after_append, Machine.after_append _ [.poll], hacknowledged]
  | found hquiet _ => exact absurd hquiet hnot

theorem turns_abreast (hf : AddsStop f) (happ : v.approaching = u.approaching)
    (hmachine : v.machine = f u.machine) (hcalls : v.calls = u.calls)
    (hnot : ¬ Quiet (seen u.machine)) (n : Nat) (motors : MotorSet) :
    Option.Rel (EndsAbreast f SameTrack) (turns n motors u) (turns n motors v) := by
  cases n with
  | zero => exact .none
  | succ n =>
      obtain ⟨_, _, _, -, hgoes, -⟩ | ⟨r, t, cs, hturn, hends, hmakes⟩ := turn_cases motors u
      · exact absurd hgoes.quiet hnot
      obtain ⟨hends', hleft⟩ := hends.addsStop hf hnot
      rw [← hmachine, ← happ] at hends'
      obtain ⟨t', hturn', hmakes'⟩ := turn_of_ends hends'
      rw [turns, turns, hturn, hturn']
      rw [← hmachine, ← hmakes'.machine, ← hmakes.machine] at hleft
      have hcalls' : t'.calls = t.calls := by rw [hmakes'.calls, hmakes.calls, hcalls]
      refine .some ?_
      cases r with
      | error failure => exact .failed failure hcalls' (hleft.imp_right And.right)
      | ok _ =>
          obtain heq | ⟨⟨_, hr⟩, -⟩ := hleft
          · refine .done ?_
            rw [SameTrack, Session.track, Session.track, heq, hcalls']
          · cases hr

variable [Scalar α] {m : MachineSettings α} {motors : MotorSet} {n : Nat}

/-! ## Phases -/

theorem runPhase_abreast (hf : AddsStop f) (phase : Phase) (h : Waits f s w) (hmotors : motors ≠ ∅)
    (hon : phase = .prePulloff → (Machine.limits s.machine).active ∩ motors ≠ ∅) :
    (¬ Quiet (seen (s.beginPhase m motors phase).machine) →
      Option.Rel (EndsAbreast f SameTrack) (runPhase n m motors phase s)
        (runPhase n m motors phase w)) ∧
    (Quiet (seen (s.beginPhase m motors phase).machine) →
      ∃ pre mv, Parts f s w pre mv (s.beginPhase m motors phase)
        (w.beginPhase m motors phase)) := by
  obtain ⟨mv, hcarries, hbegin, happ⟩ := Session.beginPhase_spec m motors phase s
  obtain ⟨-, -, -, happ'⟩ := Session.beginPhase_spec m motors phase w
  have hkeeps := keepsStop_zeroing (α := α) (planMove m motors phase).axes maxAxes
  have hbegin' : w.Makes (starting (planMove m motors phase) mv) (w.beginPhase m motors phase) := by
    refine Session.beginPhase_alike hbegin fun pre hpre => ?_
    rw [h.machine, hf.after fun c hc => hkeeps c (hpre.subset hc), hf.steps]
  have hstarting : ∀ c ∈ starting (planMove m motors phase) mv, c.KeepsStop := by
    intro c hc
    rcases List.mem_append.1 hc with hc | hc
    · exact hkeeps c hc
    · rcases List.mem_cons.1 hc with rfl | hc
      · trivial
      · rcases List.mem_pair.1 hc with rfl | rfl <;> trivial
  have hmachine : (w.beginPhase m motors phase).machine =
      f (s.beginPhase m motors phase).machine := by
    rw [hbegin'.machine, hbegin.machine, h.machine, hf.after hstarting]
  refine ⟨fun hnot => ?_, fun hquiet => ?_⟩
  · have hon' : phase = .prePulloff → (Machine.limits w.machine).active ∩ motors ≠ ∅ := by
      rw [h.machine, hf.limits]
      exact hon
    rw [runPhase_eq_map hmotors hon, runPhase_eq_map hmotors hon']
    have hcalls : (w.beginPhase m motors phase).calls = (s.beginPhase m motors phase).calls := by
      rw [hbegin'.calls, hbegin.calls, h.calls]
    refine rel_map (turns_abreast hf (happ'.trans happ.symm) hmachine hcalls hnot n motors) ?_
    intro e e' hend
    have hsettle (t : Session σ α) (r : Except Failure Unit) :=
      t.settle_makes phase (planMove m motors phase).settle r
    cases hend with
    | @done t v hend => exact .done (hend.makes (hsettle t _) (hsettle v _))
    | @failed t v failure hcalls hmachine =>
        refine .failed failure ?_ ?_
        · rw [(hsettle t (.error failure)).calls, (hsettle v (.error failure)).calls, hcalls]
        · rw [(hsettle t (.error failure)).machine, (hsettle v (.error failure)).machine]
          exact hmachine
  · rw [starting_eq] at hbegin hbegin'
    exact ⟨_, mv, hbegin, hbegin', submissions_zeroing _ _, hmachine, hquiet,
      happ'.trans hcarries.approach.symm⟩

/-- From one machine phases go one way. -/
theorem runPhases_sameTrack (plan : List Phase) (h : SameTrack s w) :
    Option.Rel (EndsAbreast f SameTrack) (runPhases n m motors plan s)
      (runPhases n m motors plan w) := by
  have hwithin : (samePairing : Pairing σ α).within ∅ motors s.track w.track := h
  refine rel_mono (runPhases_coupled (coupling_same m) plan hwithin) fun e e' hend => ?_
  cases hend with
  | done hend => exact .done hend
  | failed failure hend =>
      have hsame : SameTrack _ _ := hend
      exact .failed failure hsame.calls (.inl hsame.machine)

omit [Machine σ α] [Scalar α] in
theorem EndsAbreast.abreast {e e' : Except Failure Unit × Session σ α}
    (h : EndsAbreast f SameTrack e e') : EndsAbreast f (Abreast f) e e' := by
  cases h with
  | done h => exact .done (.same h)
  | failed failure hcalls hmachine => exact .failed failure hcalls hmachine

/-- Phases end side by side, or the two runs part in the first one that moves. -/
theorem runPhases_abreast (hf : AddsStop f) (plan : List Phase) (h : Waits f s w) :
    Option.Rel (EndsAbreast f (Abreast f)) (runPhases n m motors plan s)
        (runPhases n m motors plan w) ∨
      ∃ pre mv u v, PhasesStart n m motors plan s u ∧ PhasesStart n m motors plan w v ∧
        Parts f s w pre mv u v := by
  induction plan generalizing s w with
  | nil => exact .inl (.some (.done (.waits h)))
  | cons phase rest ih =>
      have hnote (s : Session σ α) := Session.Makes.note (.phaseBegins phase) s
      have hnoted : Waits f (s.note (.phaseBegins phase)) (w.note (.phaseBegins phase)) :=
        h.makes hf (hnote s) (hnote w) (List.forall_mem_nil _) rfl
      have hlimits : (Machine.limits w.machine).active = (Machine.limits s.machine).active := by
        rw [h.machine, hf.limits]
      rw [runPhases_cons, runPhases_cons]
      by_cases hnone : motors = ∅ ∨
        phase = .prePulloff ∧ (Machine.limits s.machine).active ∩ motors = ∅
      · -- The phase is left out, and the signal waits on.
        obtain ⟨t, hrun, hmakes⟩ := runPhase_of_none n m phase (s.note (.phaseBegins phase)) hnone
        rw [← hlimits] at hnone
        obtain ⟨t', hrun', hmakes'⟩ :=
          runPhase_of_none n m phase (w.note (.phaseBegins phase)) hnone
        rw [hrun, hrun']
        obtain hrel | ⟨pre, mv, u, v, hstart, hstart', hparts⟩ :=
          ih (hnoted.makes hf hmakes hmakes' (List.forall_mem_nil _) rfl)
        · exact .inl hrel
        · exact .inr ⟨pre, mv, u, v, .later hrun hstart, .later hrun' hstart',
            hparts.of_makes hmakes.of_note hmakes'.of_note rfl⟩
      · have hmotors : motors ≠ ∅ := fun he => hnone (.inl he)
        have hon : phase = .prePulloff → (Machine.limits s.machine).active ∩ motors ≠ ∅ :=
          fun hphase hoff => hnone (.inr ⟨hphase, hoff⟩)
        obtain ⟨hends, hparts⟩ := runPhase_abreast (m := m) (n := n) hf phase hnoted hmotors hon
        by_cases hquiet :
          Quiet (seen ((s.note (.phaseBegins phase)).beginPhase m motors phase).machine)
        · obtain ⟨pre, mv, hparts⟩ := hparts hquiet
          exact .inr ⟨pre, mv, _, _, .here hmotors hon, .here hmotors (hlimits ▸ hon),
            hparts.of_makes (hnote s) (hnote w) rfl⟩
        · refine .inl (rel_bind (hends hquiet) fun e e' hend => ?_)
          cases hend with
          | done hend => exact rel_mono (runPhases_sameTrack _ hend) fun _ _ => EndsAbreast.abreast
          | failed failure hcalls hmachine => exact .some (.failed failure hcalls hmachine)

/-! ## Cycles and requests -/

/-- A cycle or a request ends side by side: the results are the same, and after a failure the
signal is gone. -/
structure Agrees (f : σ → σ) {ε : Type} (e e' : Except ε Unit × Session σ α) : Prop where
  result : e'.1 = e.1
  abreast : Abreast f e.2 e'.2

omit [Machine σ α] in
theorem keepsStop_closing (m : MachineSettings α) (axes : AxisSet) :
    ∀ c ∈ closing m axes (.ok ()), c.KeepsStop := by
  intro c hc
  rcases List.mem_append.1 hc with hc | hc
  · obtain ⟨_, _, _, -, -, -, rfl⟩ := mem_committing.1 hc
    trivial
  · rw [List.mem_singleton.1 hc]
    trivial

/-- The end of a cycle that failed clears every signal. -/
theorem AddsStop.after_closing (hf : AddsStop f) (m : MachineSettings α) (axes : AxisSet)
    (failure : Failure) (x : σ) : Machine.after (closing m axes (.error failure)) (f x) =
      Machine.after (closing m axes (.error failure)) x := by
  have hsplit : closing m axes (.error failure) =
      [.raiseAlarm failure.alarm, .exitHoming axes false, .resetMotion] ++ [.dispatch] := rfl
  have hkeeps : ∀ c ∈ ([.raiseAlarm failure.alarm, .exitHoming axes false, .resetMotion] :
      List (Call α)), c.KeepsStop := by simp [Call.KeepsStop]
  rw [hsplit, Machine.after_append, Machine.after_append, hf.after hkeeps]
  exact hf.dispatch _

theorem agrees_close (hf : AddsStop f) (axes : AxisSet) {e e' : Except Failure Unit × Session σ α}
    (h : EndsAbreast f (Abreast f) e e') :
    Agrees f (e.1, e.2.close m axes e.1) (e'.1, e'.2.close m axes e'.1) := by
  have hclose (t : Session σ α) (r : Except Failure Unit) := t.close_makes m axes r
  cases h with
  | @done t v h =>
      refine ⟨rfl, ?_⟩
      cases h with
      | waits h =>
          exact .waits (h.makes hf (hclose t _) (hclose v _) (keepsStop_closing m axes)
            (submissions_closing m axes _))
      | same h => exact .same (h.makes (hclose t (.ok ())) (hclose v (.ok ())))
  | @failed t v failure hcalls hmachine =>
      refine ⟨rfl, .same ?_⟩
      have hcleared : Machine.after (closing m axes (.error failure)) v.machine =
          Machine.after (closing m axes (.error failure)) t.machine := by
        rcases hmachine with heq | heq
        · rw [heq]
        · rw [heq, hf.after_closing]
      have ht := hclose t (.error failure)
      have hv := hclose v (.error failure)
      rw [SameTrack, Session.track, Session.track, ht.machine, hv.machine, ht.calls, hv.calls,
        hcalls, hcleared]

theorem runCycle_abreast (hf : AddsStop f) (axes : AxisSet) (h : Waits f s w) :
    Option.Rel (Agrees f) (runCycle n m axes s) (runCycle n m axes w) ∨
      ∃ pre mv u v, CycleStart n m (axes ∩ m.homingAxes) s u ∧
        CycleStart n m (axes ∩ m.homingAxes) w v ∧ Parts f s w pre mv u v := by
  by_cases hsome : axes ∩ m.homingAxes = ∅
  · have hnone (s : Session σ α) : runCycle n m axes s = some (.ok (), s) := by
      unfold runCycle
      dsimp only
      rw [if_pos (AxisSet.isEmpty_iff.2 hsome)]
    rw [hnone, hnone]
    exact .inl (.some ⟨rfl, .waits h⟩)
  have hhomeable : Machine.homeable w.machine = Machine.homeable s.machine := by
    rw [h.machine, hf.homeable]
  have henter (s : Session σ α) := s.enterCycle_makes m (axes ∩ m.homingAxes)
  have hentered := h.makes hf (henter s) (henter w) (by simp [Call.KeepsStop]) rfl
  rw [runCycle_eq_map hsome, runCycle_eq_map hsome, hhomeable]
  obtain hrel | ⟨pre, mv, u, v, hstart, hstart', hparts⟩ := runPhases_abreast hf _ hentered
  · exact .inl (rel_map hrel fun _ _ => agrees_close hf _)
  · refine .inr ⟨_, mv, u, v, ⟨hsome, hstart⟩, ⟨hsome, ?_⟩,
      hparts.of_makes (henter s) (henter w) rfl⟩
    rw [hhomeable]
    exact hstart'

/-- From one machine numbered cycles go one way. -/
theorem runNumbered_sameTrack (found : Bool) (ns : List Nat) (h : SameTrack s w) :
    Option.Rel (Agrees f) (runNumbered n m found ns s) (runNumbered n m found ns w) := by
  have hbetween : (samePairing : Pairing σ α).between s.track w.track := h
  refine rel_mono (runNumbered_coupled (coupling_same m) found ns hbetween) fun e e' hend => ?_
  cases hend with
  | between _ hend => exact ⟨rfl, .same hend⟩
  | failed _ _ _ hend => exact ⟨rfl, .same hend⟩

theorem runNumbered_abreast (hf : AddsStop f) (found : Bool) (ns : List Nat) (h : Waits f s w) :
    Option.Rel (Agrees f) (runNumbered n m found ns s) (runNumbered n m found ns w) ∨
      ∃ done S pre mv u v, NumberedStart n m ns s done S u ∧ NumberedStart n m ns w done S v ∧
        Parts f s w pre mv u v := by
  induction ns generalizing found s w with
  | nil =>
      rw [runNumbered, runNumbered]
      cases found with
      | true => exact .inl (.some ⟨rfl, .waits h⟩)
      | false =>
          have halarm (s : Session σ α) := (Session.Makes.note .noCycles s).snoc (.setState .alarm)
          exact .inl (.some ⟨rfl, .waits (h.makes hf (halarm s) (halarm w)
            (by simp [Call.KeepsStop]) rfl)⟩)
  | cons k ns ih =>
      have hstate : Machine.state w.machine = Machine.state s.machine := by
        rw [h.machine, hf.state]
      by_cases halarm : Machine.state s.machine = .alarm
      · rw [runNumbered_of_alarm halarm, runNumbered_of_alarm (hstate.trans halarm)]
        exact .inl (.some ⟨rfl, .waits h⟩)
      have halarm' : Machine.state w.machine ≠ .alarm := hstate ▸ halarm
      by_cases hempty : m.axesInCycle k = ∅
      · rw [runNumbered_of_empty halarm hempty, runNumbered_of_empty halarm' hempty]
        obtain hrel | ⟨done, S, pre, mv, u, v, hstart, hstart', hparts⟩ := ih found h
        · exact .inl hrel
        · exact .inr ⟨done, S, pre, mv, u, v, .empty halarm hempty hstart,
            .empty halarm' hempty hstart', hparts⟩
      rw [runNumbered_cons halarm hempty, runNumbered_cons halarm' hempty]
      have hbegin (s : Session σ α) : s.Makes [] (s.beginCycle m k) := .note _ s
      have hbegun : Waits f (s.beginCycle m k) (w.beginCycle m k) :=
        h.makes hf (hbegin s) (hbegin w) (List.forall_mem_nil _) rfl
      obtain hrel | ⟨pre, mv, u, v, hstart, hstart', hparts⟩ :=
        runCycle_abreast (m := m) (n := n) hf (m.axesInCycle k) hbegun
      · generalize hcycle : runCycle n m (m.axesInCycle k) (s.beginCycle m k) = o at hrel
        generalize hcycle' : runCycle n m (m.axesInCycle k) (w.beginCycle m k) = o' at hrel
        cases hrel with
        | none => exact .inl .none
        | @some e e' hagrees =>
            obtain ⟨r, t⟩ := e
            obtain ⟨r', t'⟩ := e'
            obtain ⟨hresult, habreast⟩ := hagrees
            obtain rfl : r' = r := hresult
            cases r' with
            | error failure => exact .inl (.some ⟨rfl, habreast⟩)
            | ok _ =>
                cases habreast with
                | same habreast => exact .inl (runNumbered_sameTrack true ns habreast)
                | waits habreast =>
                    obtain hrel | ⟨done, S, pre, mv, u, v, hstart, hstart', hparts⟩ :=
                      ih true habreast
                    · exact .inl hrel
                    obtain ⟨cs, -, hmakes⟩ := cycleRun_of_axesInCycle hempty hcycle
                    obtain ⟨ds, -, hmakes'⟩ := cycleRun_of_axesInCycle hempty hcycle'
                    obtain ⟨rfl, hunmoved⟩ := hbegun.sameCalls habreast hmakes hmakes'
                    exact .inr ⟨_, S, _, mv, u, v, .later halarm hempty hcycle hstart,
                      .later halarm' hempty hcycle' hstart',
                      hparts.of_makes hmakes.of_note hmakes'.of_note hunmoved⟩
      · rw [axesInCycle_inter_homingAxes] at hstart hstart'
        exact .inr ⟨[], _, pre, mv, u, v, .here halarm hstart, .here halarm' hstart',
          hparts.of_makes (hbegin s) (hbegin w) rfl⟩

theorem runRequest_abreast (hf : AddsStop f) (request : Request) (h : Waits f s w) :
    Option.Rel (Agrees f) (runRequest n m request s) (runRequest n m request w) ∨
      ∃ done S pre mv u v, RequestStart n m request s done S u ∧
        RequestStart n m request w done S v ∧ Parts f s w pre mv u v := by
  have hambiguous : (Machine.limits w.machine).ambiguous =
      (Machine.limits s.machine).ambiguous := by
    rw [h.machine, hf.limits]
  by_cases hlimits : (Machine.limits s.machine).ambiguous = ∅
  · have hlimits' : (Machine.limits w.machine).ambiguous = ∅ := hambiguous.trans hlimits
    cases request with
    | axes axes =>
        rw [runRequest_axes hlimits, runRequest_axes hlimits']
        obtain hrel | ⟨pre, mv, u, v, hstart, hstart', hparts⟩ := runCycle_abreast hf axes h
        · refine .inl (rel_map hrel fun e e' hagrees => ⟨?_, hagrees.abreast⟩)
          rw [hagrees.result]
        · exact .inr ⟨[], _, pre, mv, u, v, .axes hlimits hstart, .axes hlimits' hstart', hparts⟩
    | all =>
        rw [runRequest_all hlimits, runRequest_all hlimits']
        obtain hrel | ⟨done, S, pre, mv, u, v, hstart, hstart', hparts⟩ :=
          runNumbered_abreast hf false cycleNumbers h
        · exact .inl hrel
        · exact .inr ⟨done, S, pre, mv, u, v, .all hlimits hstart, .all hlimits' hstart', hparts⟩
  · have hlimits' : (Machine.limits w.machine).ambiguous ≠ ∅ := hambiguous ▸ hlimits
    have hrefused (s : Session σ α) := (Session.Makes.note (.ambiguousLimits
      (m.axisNames (Machine.limits s.machine).ambiguous.axes)) s).snoc (.raiseAlarm .hardLimit)
    unfold runRequest
    dsimp only
    rw [if_neg fun he => hlimits (MotorSet.isEmpty_iff.1 he),
      if_neg fun he => hlimits' (MotorSet.isEmpty_iff.1 he)]
    exact .inl (.some ⟨rfl, .waits (h.makes hf (hrefused s) (hrefused w)
      (by simp [Call.KeepsStop]) rfl)⟩)

/-! ## Homing -/

/-- The calls of a turn that takes the end of a motion for that of its move, up to the point where
it has acknowledged it. -/
def stoppingCalls (status : Bool) : List (Call α) := service status ++ [.acknowledge .stop]

/-- Homing from `f x` takes the signal that waits for the end of its first move `mv`, which it hands
over after the calls `pre`. In `x` the first turn after the move sees no signal that ends its
loop. -/
structure TakenForEnd (f : σ → σ) (m : MachineSettings α) (request : Request) (x : σ)
    (pre : List (Call α)) (mv : Move α) : Prop where
  starts : ∃ done S, HomeStarts m request x 0 done S pre mv
  quiet : Quiet (seen (Machine.after (pre ++ handing mv) x))
  /-- In `x` the turn goes on to the channels. -/
  goes : ∀ n e t, home n m request x = some (e, t) →
    pre ++ handing mv ++ goingCalls (Machine.after (pre ++ handing mv) x) <+: t.calls
  /-- In `f x` it acknowledges the signal. -/
  stops : ∀ n e t, home n m request (f x) = some (e, t) → pre ++ handing mv ++
    stoppingCalls (seen (Machine.after (pre ++ handing mv) x)).statusReport <+: t.calls
  /-- So an approach ends there, and the request with it. -/
  missed : mv.approach = true → ∃ n S t,
    home n m request (f x) = some (.error (.failed .approach), t) ∧ t.calls = pre ++ handing mv ++
      stoppingCalls (seen (Machine.after (pre ++ handing mv) x)).statusReport ++
        closing m S (.error .approach)

omit [Scalar α] in
theorem loopBegins_of_quiet (hquiet : Quiet (seen u.machine)) :
    LoopBegins u (goingCalls u.machine) := by
  intro n motors r v hturns
  cases n with
  | zero => cases hturns
  | succ n =>
      obtain ⟨hreset, hdoor, hstop⟩ := hquiet
      rw [turns] at hturns
      obtain ⟨rest, t, cs, hturn, hgoes, hmakes, -⟩ | ⟨r', t, cs, hturn, hends, hmakes⟩ :=
        turn_cases motors u
      · rw [hturn] at hturns
        obtain ⟨es, -, hloop⟩ := loopRun_of_turns hturns
        rw [hgoes.calls_eq] at hmakes
        exact ⟨es, hmakes.trans hloop⟩
      · rw [hturn] at hturns
        obtain ⟨rfl, rfl⟩ := Prod.mk.inj (Option.some.inj hturns)
        cases hends with
        | found => exact ⟨[], by rw [List.append_nil]; exact hmakes⟩
        | reset h => simp [hreset] at h
        | door _ h => simp [hdoor] at h
        | missed _ _ h => simp [hstop] at h
        | held _ _ h => simp [hstop] at h
        | cleared _ _ h => simp [hstop] at h

omit [Scalar α] in
theorem loopBegins_of_stop (hreset : (seen u.machine).reset = false)
    (hdoor : (seen u.machine).safetyDoor = false) (hstop : (seen u.machine).cycleStop = true) :
    LoopBegins u (stoppingCalls (seen u.machine).statusReport) := by
  intro n motors r v hturns
  cases n with
  | zero => cases hturns
  | succ n =>
      rw [turns] at hturns
      obtain ⟨_, _, _, -, hgoes, -⟩ | ⟨r', t, cs, hturn, hends, hmakes⟩ := turn_cases motors u
      · exact absurd (hgoes.quiet.2.2.symm.trans hstop) Bool.false_ne_true
      · rw [hturn] at hturns
        obtain ⟨rfl, rfl⟩ := Prod.mk.inj (Option.some.inj hturns)
        cases hends with
        | missed => exact ⟨[], by rw [List.append_nil]; exact hmakes⟩
        | held => exact ⟨[], by rw [List.append_nil]; exact hmakes⟩
        | cleared => exact ⟨[.poll], hmakes⟩
        | reset h => simp [hreset] at h
        | door _ h => simp [hdoor] at h
        | found hquiet => simp [hquiet.2.2] at hstop

/-- Where the runs part, the signal is taken for the end of the first move. -/
theorem takenForEnd_of_parts (hf : AddsStop f) {request : Request} {done : List AxisSet}
    {S : AxisSet} {pre : List (Call α)} {mv : Move α}
    (hstart : RequestStart n m request ((Session.begin x).call (.setState .homing)) done S u)
    (hstart' : RequestStart n m request ((Session.begin (f x)).call (.setState .homing)) done S v)
    (h : Parts f ((Session.begin x).call (.setState .homing))
      ((Session.begin (f x)).call (.setState .homing)) pre mv u v) :
    TakenForEnd f m request x (.setState .homing :: pre) mv := by
  have hcalls := begin_makes h.first
  have hcalls' := begin_makes h.second
  have hmachine : u.machine = Machine.after (.setState .homing :: pre ++ handing mv) x := by
    rw [h.first.machine, Session.machine_call]
    rfl
  have hquiet := h.quiet
  have hstatus : (seen v.machine).statusReport = (seen u.machine).statusReport := by
    rw [h.machine, hf.seen_statusReport]
  have hreset : (seen v.machine).reset = false := by rw [h.machine, hf.seen_reset, hquiet.1]
  have hdoor : (seen v.machine).safetyDoor = false := by
    rw [h.machine, hf.seen_safetyDoor, hquiet.2.1]
  have hstop : (seen v.machine).cycleStop = true := by rw [h.machine, hf.seen_cycleStop]
  rw [hmachine] at hquiet hstatus
  refine ⟨⟨done, S, n, u, hstart, hcalls, h.unmoved ▸ rfl⟩, hquiet, ?_, ?_, fun happroach => ?_⟩
  · intro k e t hrun
    obtain ⟨w, hrequest, hend⟩ := exists_runRequest_of_home hrun
    obtain ⟨rest, hrest⟩ := hstart.makes_front (loopBegins_of_quiet h.quiet) hrequest
    rw [(hrest.trans hend).calls, hcalls, hmachine]
    exact ⟨rest ++ concluding e, by simp only [List.append_assoc, List.cons_append]⟩
  · intro k e t hrun
    obtain ⟨w, hrequest, hend⟩ := exists_runRequest_of_home hrun
    obtain ⟨rest, hrest⟩ := hstart'.makes_front (loopBegins_of_stop hreset hdoor hstop) hrequest
    rw [(hrest.trans hend).calls, hcalls', hstatus]
    exact ⟨rest ++ concluding e, by simp only [List.append_assoc, List.cons_append]⟩
  · have hfails : LoopFails (n + 1) v .approach (stoppingCalls (seen v.machine).statusReport) := by
      intro motors
      have hends : TurnEnds v.approaching motors v.machine (.error .approach)
          (stoppingCalls (seen v.machine).statusReport) :=
        .missed hreset hdoor hstop (h.approaching.trans happroach)
      obtain ⟨w, hturn, hmakes⟩ := turn_of_ends hends
      exact ⟨w, by rw [turns, hturn], hmakes⟩
    obtain ⟨t, hrun, hmakes⟩ := (hstart'.mono (Nat.le_succ n)).fails hfails
    refine ⟨n + 1, S, t, by rw [home, hrun]; rfl, ?_⟩
    rw [hmakes.calls, hcalls', hstatus]
    simp only [List.append_assoc, List.cons_append]

/-- A stop that waits when homing begins either makes no difference, or it is taken for the end of
the first move. -/
theorem home_addsStop (hf : AddsStop f) (m : MachineSettings α) (request : Request) (x : σ) :
    (∀ n, Option.Rel (Agrees f) (home n m request x) (home n m request (f x))) ∨
      ∃ pre mv, TakenForEnd f m request x pre mv := by
  have hbegin (x : σ) := Session.Makes.call (.setState .homing) (Session.begin x : Session σ α)
  have hwaits : Waits f (Session.begin x : Session σ α) (Session.begin (f x)) := ⟨rfl, rfl, rfl⟩
  have hbegun := hwaits.makes hf (hbegin x) (hbegin (f x)) (by simp [Call.KeepsStop]) rfl
  by_cases hparts : ∃ pre mv, TakenForEnd f m request x pre mv
  · exact .inr hparts
  refine .inl fun n => ?_
  obtain hrel | ⟨done, S, pre, mv, u, v, hstart, hstart', h⟩ :=
    runRequest_abreast (m := m) (n := n) hf request hbegun
  · refine rel_map hrel fun e e' hagrees => ?_
    obtain ⟨r, t⟩ := e
    obtain ⟨r', t'⟩ := e'
    obtain ⟨hresult, habreast⟩ := hagrees
    obtain rfl : r' = r := hresult
    cases r' with
    | error e => exact ⟨rfl, habreast⟩
    | ok _ =>
        have hidle (t : Session σ α) :=
          (Session.Makes.call (.setState .idle) t).snoc_note .homingComplete
        refine ⟨rfl, ?_⟩
        cases habreast with
        | waits h => exact .waits (h.makes hf (hidle t) (hidle t') (by simp [Call.KeepsStop]) rfl)
        | same h => exact .same (h.makes (hidle t) (hidle t'))
  · exact absurd ⟨_, _, takenForEnd_of_parts hf hstart hstart' h⟩ hparts

end Homing
