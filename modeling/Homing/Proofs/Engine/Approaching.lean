import Homing.Proofs.Engine.CycleRun

/-!
# The mark of an approach

While an approach runs the engine keeps a mark of it, which is no part of the machine. Only
a phase sets the mark, and a phase takes it back however it ends, so none is left after a
phase, a cycle or a request on any machine.
-/

namespace Homing

variable {σ : Type u} {α : Type v} [Machine σ α] [Scalar α] {budget : Nat} {m : MachineSettings α}
  {motors : MotorSet} {phase : Phase} {axes : AxisSet} {r : Except Failure Unit}
  {e : Except HomingError Unit} {s t : Session σ α}

theorem approaching_of_runPhase (hs : s.approaching = false)
    (h : runPhase budget m motors phase s = some (r, t)) : t.approaching = false := by
  unfold runPhase at h
  split at h
  · obtain ⟨-, rfl⟩ := Prod.mk.inj (Option.some.inj h)
    exact hs
  split at h
  · obtain ⟨-, rfl⟩ := Prod.mk.inj (Option.some.inj h)
    exact hs
  · obtain ⟨⟨r', u⟩, -, hend⟩ := Option.map_eq_some_iff.1 h
    cases r' with
    | error f =>
        obtain ⟨-, rfl⟩ := Prod.mk.inj hend
        rfl
    | ok v =>
        obtain ⟨-, rfl⟩ := Prod.mk.inj hend
        rfl

theorem approaching_of_runPhases {plan : List Phase} (hs : s.approaching = false)
    (h : runPhases budget m motors plan s = some (r, t)) : t.approaching = false := by
  induction plan generalizing s with
  | nil =>
      obtain ⟨rfl, rfl⟩ : .ok () = r ∧ s = t := by simpa [runPhases] using h
      exact hs
  | cons phase rest ih =>
      rw [runPhases_cons] at h
      obtain ⟨⟨r', u⟩, hphase, h⟩ := Option.bind_eq_some_iff.1 h
      have hu : u.approaching = false :=
        approaching_of_runPhase (s := s.note (.phaseBegins phase)) hs hphase
      cases r' with
      | error f =>
          obtain ⟨-, rfl⟩ := Prod.mk.inj (Option.some.inj h)
          exact hu
      | ok v => exact ih hu h

omit [Scalar α] in
theorem approaching_enterCycle (m : MachineSettings α) (axes : AxisSet) (s : Session σ α) :
    (s.enterCycle m axes).approaching = s.approaching := by
  unfold Session.enterCycle
  dsimp only
  split <;> simp

theorem approaching_commit (m : MachineSettings α) (axes : AxisSet) (s : Session σ α) :
    (commit m axes s).approaching = s.approaching := by
  have key (ns : List Nat) (s : Session σ α) :
      (ns.foldl (commitAxis m) s).approaching = s.approaching := by
    induction ns generalizing s with
    | nil => rfl
    | cons n ns ih =>
        rw [List.foldl_cons, ih]
        unfold commitAxis
        split
        · rfl
        · split <;> simp
  rw [commit, Session.approaching_call, key]

theorem approaching_of_runCycle (hs : s.approaching = false)
    (h : runCycle budget m axes s = some (r, t)) : t.approaching = false := by
  rcases cycleRun_of_runCycle h with ⟨-, -, rfl⟩ | ⟨hsome, -⟩
  · exact hs
  rw [runCycle_eq_map hsome] at h
  obtain ⟨⟨r', u⟩, hphases, hend⟩ := Option.map_eq_some_iff.1 h
  have hu : u.approaching = false :=
    approaching_of_runPhases ((approaching_enterCycle m _ s).trans hs) hphases
  obtain ⟨-, rfl⟩ := Prod.mk.inj hend
  cases r' with
  | error f => simp [Session.close, abandon, Session.setApproaching]
  | ok v => exact (approaching_commit m _ u).trans hu

theorem approaching_of_runNumbered {found : Bool} {ns : List Nat} (hs : s.approaching = false)
    (h : runNumbered budget m found ns s = some (e, t)) : t.approaching = false := by
  induction ns generalizing found s with
  | nil =>
      rw [runNumbered] at h
      cases found with
      | true =>
          obtain ⟨-, rfl⟩ := Prod.mk.inj (Option.some.inj h)
          exact hs
      | false =>
          obtain ⟨-, rfl⟩ := Prod.mk.inj (Option.some.inj h)
          simpa using hs
  | cons k ns ih =>
      by_cases hstate : Machine.state s.machine = .alarm
      · rw [runNumbered_of_alarm hstate] at h
        obtain ⟨-, rfl⟩ := Prod.mk.inj (Option.some.inj h)
        exact hs
      by_cases hempty : m.axesInCycle k = ∅
      · rw [runNumbered_of_empty hstate hempty] at h
        exact ih hs h
      rw [runNumbered_cons hstate hempty] at h
      obtain ⟨⟨r, u⟩, hcycle, h⟩ := Option.bind_eq_some_iff.1 h
      have hu : u.approaching = false := approaching_of_runCycle (s := s.beginCycle m k) hs hcycle
      cases r with
      | error f =>
          obtain ⟨-, rfl⟩ := Prod.mk.inj (Option.some.inj h)
          exact hu
      | ok v => exact ih hu h

theorem approaching_of_runRequest {request : Request} (hs : s.approaching = false)
    (h : runRequest budget m request s = some (e, t)) : t.approaching = false := by
  by_cases hlimits : (Machine.limits s.machine).ambiguous = ∅
  · cases request with
    | axes axes =>
        rw [runRequest_axes hlimits] at h
        obtain ⟨⟨r, u⟩, hcycle, hend⟩ := Option.map_eq_some_iff.1 h
        obtain ⟨-, rfl⟩ := Prod.mk.inj hend
        exact approaching_of_runCycle hs hcycle
    | all =>
        rw [runRequest_all hlimits] at h
        exact approaching_of_runNumbered hs h
  · unfold runRequest at h
    dsimp only at h
    rw [if_neg fun he => hlimits (MotorSet.isEmpty_iff.1 he)] at h
    obtain ⟨-, rfl⟩ := Prod.mk.inj (Option.some.inj h)
    simpa using hs

end Homing
