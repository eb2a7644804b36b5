import Homing.Proofs.Engine.Tally
import Homing.Proofs.Simulator.Limits

/-!
# What a simulator has of a run

A simulator keeps a list of the moves that it was handed and one of the exits from homing
mode, so both grow by what is read off the calls. Its other traces of a run are the axes
in homing mode, the signals that wait and the move in progress. Where a run comes to its
end these are neutral again: a loop that ends well has seen no signal that it has not
acknowledged, so after a phase that moved no signal waits and nothing moves. `Settled`
carries this along a run, over the phases that do not move.
-/

namespace Homing

variable {α : Type u} [Scalar α]

omit [Scalar α] in
/-- A call that leaves the signals as they are. -/
def Call.KeepsSignals (c : Call α) : Prop :=
  c ≠ .refill ∧ (∀ signals, c ≠ .acknowledge signals) ∧ c ≠ .dispatch

theorem Signals.sdiff_status_of {s : Signals} (h : s.statusReport = false) : s \ .status = s := by
  obtain ⟨status, reset, door, stop⟩ := s
  subst h
  cases reset <;> cases door <;> cases stop <;> rfl

/-- Signals of which none but a status report waits are none once it is served. -/
theorem Signals.sdiff_status {s : Signals} (h : Quiet s) : s \ .status = ∅ := by
  obtain ⟨status, reset, door, stop⟩ := s
  obtain ⟨rfl, rfl, rfl⟩ := h
  cases status <;> rfl

theorem Signals.sdiff_status_stop {s : Signals} (hreset : s.reset = false)
    (hdoor : s.safetyDoor = false) : (s \ .status) \ .stop = ∅ := by
  obtain ⟨status, reset, door, stop⟩ := s
  subst hreset hdoor
  cases status <;> cases stop <;> rfl

namespace Simulator

variable {s : Simulator α}

/-! ## Lists of what happened -/

theorem record_apply (c : Call α) (s : Simulator α) :
    (apply c s).1.totals.moves = s.totals.moves ++ submissions [c] ∧
      (apply c s).1.totals.exits = s.totals.exits ++ exits [c] := by
  cases c with
  | refill =>
      obtain ⟨_, _, _, _, h⟩ := refill_frame s
      rw [h]
      exact ⟨(List.append_nil _).symm, (List.append_nil _).symm⟩
  | submit mv => exact ⟨rfl, (List.append_nil _).symm⟩
  | exitHoming axes success => exact ⟨(List.append_nil _).symm, rfl⟩
  | _ => exact ⟨(List.append_nil _).symm, (List.append_nil _).symm⟩

/-- A simulator lists each move and each exit from homing mode. -/
theorem record_after (cs : List (Call α)) (s : Simulator α) :
    (Machine.after cs s).totals.moves = s.totals.moves ++ submissions cs ∧
      (Machine.after cs s).totals.exits = s.totals.exits ++ exits cs := by
  induction cs generalizing s with
  | nil => exact ⟨(List.append_nil _).symm, (List.append_nil _).symm⟩
  | cons c cs ih =>
      obtain ⟨hmoves, hexits⟩ := ih (apply c s).1
      obtain ⟨hmove, hexit⟩ := record_apply c s
      rw [hmove, List.append_assoc, ← submissions_append] at hmoves
      rw [hexit, List.append_assoc, ← exits_append] at hexits
      exact ⟨hmoves, hexits⟩

/-! ## The axes in homing mode -/

theorem homing_apply {c : Call α} (hentry : c.entered? = none) (hexit : c.exited? = none)
    (s : Simulator α) : (apply c s).1.homing = s.homing := by
  cases c with
  | refill =>
      obtain ⟨_, _, _, _, h⟩ := refill_frame s
      rw [h]
  | enterHoming axes => cases hentry
  | exitHoming axes success => cases hexit
  | _ => rfl

theorem homing_after {cs : List (Call α)} (hentries : entries cs = []) (hexits : exits cs = [])
    (s : Simulator α) : (Machine.after cs s).homing = s.homing := by
  refine Machine.after_induction (P := fun y : Simulator α => y.homing = s.homing) rfl ?_
  intro c hc y hy
  have hentry := List.filterMap_eq_nil_iff.1 hentries c hc
  have hexit := List.filterMap_eq_nil_iff.1 hexits c hc
  exact (homing_apply hentry hexit y).trans hy

theorem homing_closing (m : MachineSettings α) (axes : AxisSet) (r : Except Failure Unit)
    (s : Simulator α) : (Machine.after (closing m axes r) s).homing = s.homing \ axes := by
  cases r with
  | error f => rfl
  | ok v =>
      have hcommit : (Machine.after (committing m axes) s).homing = s.homing :=
        homing_after (filterMap_committing m axes fun _ _ => rfl)
          (filterMap_committing m axes fun _ _ => rfl) s
      rw [closing, Machine.after_append, ← hcommit]
      rfl

variable {m : MachineSettings α} {motors : MotorSet} {phase : Phase} {plan : List Phase}
  {axes : AxisSet} {r : Except Failure Unit} {cs ds : List (Call α)} {x : Simulator α}

/-- A cycle leaves no axis of its own in homing mode. -/
theorem mem_homing_cycle (h : CycleRun m axes x r cs) {n : Nat} :
    n ∈ (Machine.after cs x).homing ↔ n ∈ x.homing ∧ n ∉ axes := by
  cases h with
  | @intro moves hphases =>
      obtain ⟨hentries, hexits⟩ := tally_of_inPhase (inPhase_of_phasesRun hphases)
      have henter : (Machine.after [.enterHoming axes] x).homing = x.homing ∪ axes := rfl
      rw [Machine.after_append, Machine.after_append, homing_closing,
        homing_after hentries hexits, henter, AxisSet.mem_sdiff, AxisSet.mem_union]
      exact ⟨fun ⟨hin, hn⟩ => ⟨hin.resolve_right hn, hn⟩, fun ⟨hin, hn⟩ => ⟨.inl hin, hn⟩⟩

/-! ## The signals that wait -/

theorem pending_after {cs : List (Call α)} (h : ∀ c ∈ cs, c.KeepsSignals) (s : Simulator α) :
    (Machine.after cs s).pending = s.pending := by
  refine Machine.after_induction (P := fun y : Simulator α => y.pending = s.pending) rfl ?_
  intro c hc y hy
  obtain ⟨hrefill, hack, hdispatch⟩ := h c hc
  rw [← hy]
  cases c with
  | refill => exact absurd rfl hrefill
  | acknowledge signals => exact absurd rfl (hack signals)
  | dispatch => exact absurd rfl hdispatch
  | _ => rfl

theorem pending_service (x : Simulator α) :
    (Machine.after (service (seen x).statusReport) x).pending = seen x \ .status := by
  cases hstatus : (seen x).statusReport with
  | true => rfl
  | false =>
      rw [Signals.sdiff_status_of hstatus]
      rfl

/-- A loop that ends well has acknowledged every signal that it has seen. -/
theorem pending_of_loopRun {approach : Bool} {remaining : MotorSet}
    (h : LoopRun approach remaining x (.ok ()) cs) : (Machine.after cs x).pending = ∅ := by
  generalize hr : Except.ok () = r at h
  induction h with
  | @last remaining x r cs hends =>
      subst hr
      -- Either the end of the motion was acknowledged too, or a status report was all there was.
      cases hends with
      | cleared hreset hdoor _ _ _ =>
          rw [List.append_assoc, Machine.after_append]
          have hacknowledged : (Machine.after ([.acknowledge .stop] ++ [.poll] : List (Call α))
              (Machine.after (service (seen x).statusReport) x)).pending =
              (Machine.after (service (seen x).statusReport) x).pending \ .stop := rfl
          rw [hacknowledged, pending_service, Signals.sdiff_status_stop hreset hdoor]
      | found hquiet _ =>
          rw [Machine.after_append]
          exact (pending_service x).trans (Signals.sdiff_status hquiet)
  | again _ _ ih =>
      rw [Machine.after_append]
      exact ih hr

/-- The calls leave no signal behind, or hand over no move and leave the signals that there
were. -/
def Settled (cs : List (Call α)) (x : Simulator α) : Prop :=
  (Machine.after cs x).pending = ∅ ∨
    submissions cs = [] ∧ (Machine.after cs x).pending = x.pending

theorem Settled.append (h : Settled cs x) (g : Settled ds (Machine.after cs x)) :
    Settled (cs ++ ds) x := by
  unfold Settled at *
  rw [Machine.after_append, submissions_append]
  obtain hempty | ⟨hnone, hsame⟩ := g
  · exact .inl hempty
  · rw [hnone, hsame, List.append_nil]
    exact h

theorem settled_of_keepsSignals (hmoves : submissions cs = []) (h : ∀ c ∈ cs, c.KeepsSignals) :
    Settled cs x :=
  .inr ⟨hmoves, pending_after h x⟩

omit [Scalar α] in
theorem keepsSignals_zeroing (axes : AxisSet) (n : Nat) :
    ∀ c ∈ (zeroing axes n : List (Call α)), c.KeepsSignals := by
  intro c hc
  obtain ⟨k, -, rfl⟩ := List.mem_map.1 hc
  exact ⟨nofun, nofun, nofun⟩

theorem settled_phase (h : PhaseRun m motors phase x (.ok ()) cs) : Settled cs x := by
  cases h with
  | idle _ => exact .inr ⟨rfl, rfl⟩
  | skipped _ _ _ => exact .inr ⟨rfl, rfl⟩
  | @moved mv _ loop _ _ _ hloop =>
      left
      have hquiet := pending_of_loopRun hloop
      rw [← Machine.after_append] at hquiet
      rw [Machine.after_append]
      exact hquiet

theorem settled_phases (h : PhasesRun m motors plan x (.ok ()) cs) : Settled cs x := by
  generalize hr : Except.ok () = r at h
  induction h with
  | nil => exact .inr ⟨rfl, rfl⟩
  | cons hphase _ ih => exact (settled_phase hphase).append (ih hr)
  | fail _ => cases hr

theorem settled_closing (m : MachineSettings α) (axes : AxisSet) (r : Except Failure Unit)
    (x : Simulator α) : Settled (closing m axes r) x := by
  cases r with
  | error f => exact .inl rfl
  | ok v =>
      refine settled_of_keepsSignals (submissions_closing m axes (.ok ())) fun c hc => ?_
      rcases List.mem_append.1 hc with hc | hc
      · obtain ⟨_, _, _, -, -, -, rfl⟩ := mem_committing.1 hc
        exact ⟨nofun, nofun, nofun⟩
      · rw [List.mem_singleton.1 hc]
        exact ⟨nofun, nofun, nofun⟩

theorem settled_enter (axes : AxisSet) (x : Simulator α) : Settled [.enterHoming axes] x :=
  .inr ⟨rfl, rfl⟩

/-- A failed cycle clears the signals itself. -/
theorem settled_cycle (h : CycleRun m axes x r cs) : Settled cs x := by
  cases h with
  | @intro moves hphases =>
      cases r with
      | error f =>
          left
          rw [Machine.after_append]
          rfl
      | ok v =>
          exact ((settled_enter axes x).append (settled_phases hphases)).append
            (settled_closing m axes (.ok ()) _)

theorem settled_numbered {ks : List Nat} (h : NumberedRun m ks x r cs) : Settled cs x := by
  induction h with
  | nil => exact .inr ⟨rfl, rfl⟩
  | cons _ hcycle _ ih => exact (settled_cycle hcycle).append ih
  | fail _ hcycle => exact settled_cycle hcycle

end Simulator

end Homing
