import Homing.Proofs.Engine.Approaching
import Homing.Proofs.Simulator.Record
import Homing.Proofs.Simulator.Requests

/-!
# What a request leaves behind

A request ends in one of many ways, and each has calls of its own that put the machine in
order: a phase that ended well halts the motion, a failed cycle drops it and clears the
signals, and either kind of cycle leaves homing mode. `Clean cs x` is what is left to say
of them together. It holds of every complete cycle and of what a request calls beside its
cycles, and it is kept when one list of calls follows another, so it holds of a whole
request however it ends (`leavesNothing_of_home`).
-/

namespace Homing

variable {α : Type u} [Scalar α] {m : MachineSettings α}

namespace Simulator

variable {axes : AxisSet} {motors : MotorSet} {phase : Phase} {plan : List Phase}
  {x : Simulator α} {r : Except Failure Unit} {e : Except HomingError Unit} {cs ds : List (Call α)}

/-! ## The move in progress -/

theorem active_apply {c : Call α} (hc : c.submitted? = none) (hx : x.active = none) :
    (apply c x).1.active = none := by
  cases c with
  | submit mv => cases hc
  | refill =>
      rcases apply_refill_cases x with h | ⟨mv, hactive, -⟩
      · rw [h, hx]
      · rw [hx] at hactive
        cases hactive
  | enterHoming axes => exact Option.map_eq_none_iff.2 hx
  | halt => rfl
  | resetMotion => rfl
  | _ => exact hx

theorem active_after (hcs : submissions cs = []) (hx : x.active = none) :
    (Machine.after cs x).active = none := by
  refine Machine.after_induction (P := fun y : Simulator α => y.active = none) hx ?_
  exact fun c hc y hy => active_apply (List.filterMap_eq_nil_iff.1 hcs c hc) hy

theorem active_phases (h : PhasesRun m motors plan x (.ok ()) cs) (hx : x.active = none) :
    (Machine.after cs x).active = none := by
  generalize hr : Except.ok () = r at h
  induction h with
  | nil => exact hx
  | cons hphase _ ih =>
      rw [Machine.after_append]
      refine ih ?_ hr
      cases hphase with
      | idle _ => exact hx
      | skipped _ _ _ => exact hx
      | moved _ _ _ _ =>
          rw [Machine.after_append]
          rfl
  | fail _ => cases hr

/-! ## Calls that leave nothing behind -/

/-- The calls leave no move in progress, take the axes out of homing mode that they put into
it, one exit for each entry, and leave no signal behind once they have handed over a move. -/
structure Clean (cs : List (Call α)) (x : Simulator α) : Prop where
  active : x.active = none → (Machine.after cs x).active = none
  homing : ∀ n, n ∈ (Machine.after cs x).homing ↔ n ∈ x.homing ∧ ∀ S ∈ entries cs, n ∉ S
  exits : (exits cs).map (·.1) = entries cs
  settled : Settled cs x

theorem Clean.append (h : Clean cs x) (g : Clean ds (Machine.after cs x)) : Clean (cs ++ ds) x := by
  refine ⟨fun hx => ?_, fun n => ?_, ?_, h.settled.append g.settled⟩
  · rw [Machine.after_append]
    exact g.active (h.active hx)
  · rw [Machine.after_append, g.homing, h.homing, entries_append, and_assoc, List.forall_mem_append]
  · rw [exits_append, List.map_append, h.exits, g.exits, entries_append]

/-- Calls that neither move nor enter nor leave a cycle. -/
theorem clean_of_keeps (hmoves : submissions cs = []) (hentries : entries cs = [])
    (hexits : Homing.exits cs = []) (hsignals : ∀ c ∈ cs, c.KeepsSignals) : Clean cs x := by
  refine ⟨active_after hmoves, fun n => ?_, ?_, settled_of_keepsSignals hmoves hsignals⟩
  · rw [homing_after hentries hexits, hentries]
    simp
  · rw [hexits, hentries]
    rfl

theorem clean_setState (state : MachineState) (x : Simulator α) : Clean [.setState state] x := by
  refine clean_of_keeps rfl rfl rfl fun c hc => ?_
  rw [List.mem_singleton.1 hc]
  exact ⟨nofun, nofun, nofun⟩

theorem clean_nil (x : Simulator α) : Clean [] x :=
  clean_of_keeps rfl rfl rfl fun _ hc => absurd hc List.not_mem_nil

theorem clean_cycle (h : CycleRun m axes x r cs) : Clean cs x := by
  have hentries := h.entries_eq
  refine ⟨fun hx => ?_, fun n => ?_, by rw [h.exits_eq, hentries]; rfl, settled_cycle h⟩
  · cases h with
    | @intro moves hphases =>
        rw [Machine.after_append, Machine.after_append]
        cases r with
        | error f => rfl
        | ok v =>
            -- The end of a good cycle drops no motion, but each of its phases has halted its own.
            have hentered := active_apply (c := .enterHoming axes) rfl hx
            exact active_after (submissions_closing m axes (.ok ()))
              (active_phases hphases hentered)
  · rw [mem_homing_cycle h, hentries]
    simp

theorem clean_numbered {ks : List Nat} (h : NumberedRun m ks x r cs) : Clean cs x := by
  induction h with
  | nil => exact clean_nil _
  | cons _ hcycle _ ih => exact (clean_cycle hcycle).append ih
  | fail _ hcycle => exact clean_cycle hcycle

theorem clean_request {request : Request} (h : RequestRun m request x e cs) : Clean cs x := by
  cases h with
  | ambiguous _ =>
      refine clean_of_keeps rfl rfl rfl fun c hc => ?_
      rw [List.mem_singleton.1 hc]
      exact ⟨nofun, nofun, nofun⟩
  | nothing _ _ => exact clean_nil x
  | cycle _ _ hcycle => exact clean_cycle hcycle
  | wildcard _ _ hrun hend =>
      refine (clean_numbered hrun).append ?_
      cases hend with
      | none _ _ => exact clean_setState .alarm _
      | _ => exact clean_nil _

/-! ## Homing as a whole -/

/-- A simulator that was `x` is as neutral as before it in the session `t`. -/
structure LeavesNothing (x : Simulator α) (t : Session (Simulator α) α) : Prop where
  active : t.machine.active = none
  blocked : t.machine.blocked = ∅
  homing : ∀ n, n ∈ t.machine.homing ↔ n ∈ x.homing ∧ ∀ S ∈ entries t.calls, n ∉ S
  /-- The exits follow the entries, and an axis that was entered is in one of them. -/
  exits : ∃ es, t.machine.totals.exits = x.totals.exits ++ es ∧ es.map (·.1) = entries t.calls ∧
    ∀ n, (∃ S ∈ entries t.calls, n ∈ S) → es.countP (n ∈ ·.1) = 1
  pending : submissions t.calls ≠ [] → t.machine.pending = ∅

/-- Nothing is left of a request of `home`, however it ends, but what it did. And whatever the
machine, no approach is marked as running after a phase, a cycle or a request. -/
theorem leavesNothing_of_home {σ : Type v} [Machine σ α] (budget : Nat) (m : MachineSettings α) :
    (∀ request (x : Simulator α) e t, x.active = none → home budget m request x = some (e, t) →
      LeavesNothing x t) ∧
    ∀ s : Session σ α, s.approaching = false →
      (∀ motors phase r t, runPhase budget m motors phase s = some (r, t) →
        t.approaching = false) ∧
      (∀ motors plan r t, runPhases budget m motors plan s = some (r, t) →
        t.approaching = false) ∧
      (∀ axes r t, runCycle budget m axes s = some (r, t) → t.approaching = false) ∧
      ∀ request e t, runRequest budget m request s = some (e, t) → t.approaching = false := by
  refine ⟨fun request x e t hx h => ?_, fun s hs => ⟨fun _ _ _ _ => approaching_of_runPhase hs,
    fun _ _ _ _ => approaching_of_runPhases hs, fun _ _ _ => approaching_of_runCycle hs,
    fun _ _ _ => approaching_of_runRequest hs⟩⟩
  obtain ⟨cs, hrun, hmakes⟩ := requestRun_of_home h
  have hcalls : t.calls = [.setState .homing] ++ cs ++ concluding e := hmakes.calls
  have hconcluding : Clean (concluding e) (Machine.after ([.setState .homing] ++ cs) x) := by
    cases e with
    | error f => exact clean_nil _
    | ok v => exact clean_setState .idle _
  have hclean : Clean t.calls x := by
    rw [hcalls]
    exact ((clean_setState .homing x).append (clean_request hrun)).append hconcluding
  have hentries : entries t.calls = entries cs := by
    have hnone : entries (concluding e : List (Call α)) = [] := by cases e <;> rfl
    rw [hcalls, entries_append, entries_append, hnone, List.append_nil]
    rfl
  have hmachine : t.machine = Machine.after t.calls x := by rw [hcalls]; exact hmakes.machine
  have hactive := hclean.active hx
  rw [← hmachine] at hactive
  refine ⟨hactive, by rw [blocked, hactive], ?_,
    ⟨Homing.exits t.calls, ?_, hclean.exits, fun n hn => ?_⟩, ?_⟩
  · rw [hmachine]
    exact hclean.homing
  · rw [hmachine]
    exact (record_after t.calls x).2
  · have honce : ((Homing.exits t.calls).map (·.1)).countP (n ∈ ·) = 1 := by
      rw [hclean.exits, hentries]
      exact hrun.countP_entries (hentries ▸ hn)
    rw [List.countP_map] at honce
    exact honce
  · rw [hmachine]
    exact fun hmoved => hclean.settled.resolve_right fun hnone => hmoved hnone.1

/-- A request whose second cycle fails, and a cycle that ends well. -/
theorem leavesNothing_of_home_gantry :
    skewedGantry.active = none ∧ ∃ t, home 20 gantry .all
        (skewedGantry.withSignalAt 6 { safetyDoor := true }) = some (.error (.failed .door), t) ∧
      LeavesNothing (skewedGantry.withSignalAt 6 { safetyDoor := true }) t ∧
      ∃ u : Session (Simulator ℚ) ℚ, runCycle 20 gantry (.single 0) (.begin skewedGantry) =
        some (.ok (), u) ∧ u.approaching = false := by
  have hactive : skewedGantry.active = none := by decide +kernel
  have hdoor : (home 20 gantry .all (skewedGantry.withSignalAt 6 { safetyDoor := true })).map
      (·.1) = some (.error (.failed .door)) := by decide +kernel
  have hcycle : (runCycle 20 gantry (.single 0) (.begin skewedGantry)).map (·.1) =
      some (.ok ()) := by decide +kernel
  obtain ⟨⟨e, t⟩, ht, rfl⟩ := Option.map_eq_some_iff.1 hdoor
  obtain ⟨⟨r, u⟩, hu, rfl⟩ := Option.map_eq_some_iff.1 hcycle
  obtain ⟨hleaves, hmark⟩ := leavesNothing_of_home (σ := Simulator ℚ) 20 gantry
  obtain ⟨-, -, hcycles, -⟩ := hmark (.begin skewedGantry) rfl
  exact ⟨hactive, t, ht, hleaves _ _ _ _ hactive ht, u, hu, hcycles _ _ _ hu⟩

end Simulator

end Homing
