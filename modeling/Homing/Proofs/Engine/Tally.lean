import Homing.Proofs.Engine.CycleRun
import Mathlib.Data.List.Nodup

/-!
# What a run hands over, enters and leaves

Three lists are read off the calls of a run: the moves that it hands over, the sets of
axes that it puts into homing mode, and those that it takes out again with the word on
how their cycle ended. A phase hands over at most one move and does neither of the other
two things; a cycle enters its axes once and leaves them once.
-/

namespace Homing

variable {σ : Type u} {α : Type v}

namespace Call

/-- The move that a call hands over. -/
def submitted? : Call α → Option (Move α)
  | submit mv => some mv
  | _ => none

/-- The axes that a call puts into homing mode. -/
def entered? : Call α → Option AxisSet
  | enterHoming axes => some axes
  | _ => none

/-- The axes that a call takes out of homing mode, and whether they are homed. -/
def exited? : Call α → Option (AxisSet × Bool)
  | exitHoming axes success => some (axes, success)
  | _ => none

end Call

/-- The moves that are handed over, in order. -/
def submissions (cs : List (Call α)) : List (Move α) := cs.filterMap Call.submitted?

/-- The sets of axes that are put into homing mode, in order. -/
def entries (cs : List (Call α)) : List AxisSet := cs.filterMap Call.entered?

/-- The sets of axes that are taken out of homing mode, in order. -/
def exits (cs : List (Call α)) : List (AxisSet × Bool) := cs.filterMap Call.exited?

section

variable {cs ds : List (Call α)} {motors : MotorSet}

@[simp] theorem submissions_append : submissions (cs ++ ds) = submissions cs ++ submissions ds :=
  List.filterMap_append

@[simp] theorem entries_append : entries (cs ++ ds) = entries cs ++ entries ds :=
  List.filterMap_append

@[simp] theorem exits_append : exits (cs ++ ds) = exits cs ++ exits ds := List.filterMap_append

theorem submissions_of_inLoop (h : ∀ c ∈ cs, c.InLoop) : submissions cs = [] := by
  refine List.filterMap_eq_nil_iff.2 fun c hc => ?_
  cases h c hc <;> rfl

theorem tally_of_inPhase (h : ∀ c ∈ cs, c.InPhase motors) : entries cs = [] ∧ exits cs = [] := by
  constructor
  · refine List.filterMap_eq_nil_iff.2 fun c hc => ?_
    cases h c hc with
    | loop hloop => cases hloop <;> rfl
    | _ => rfl
  · refine List.filterMap_eq_nil_iff.2 fun c hc => ?_
    cases h c hc with
    | loop hloop => cases hloop <;> rfl
    | _ => rfl

/-- The calls with which a move is handed over and started. -/
def handing (mv : Move α) : List (Call α) := [.submit mv, .refill, .start]

theorem starting_eq (planned : PlannedMove α) (mv : Move α) :
    starting planned mv = zeroing planned.axes maxAxes ++ handing mv :=
  rfl

@[simp] theorem submissions_zeroing (axes : AxisSet) (n : Nat) :
    submissions (zeroing axes n : List (Call α)) = [] := by
  refine List.filterMap_eq_nil_iff.2 fun c hc => ?_
  obtain ⟨k, -, rfl⟩ := List.mem_map.1 hc
  rfl

@[simp] theorem submissions_starting (planned : PlannedMove α) (mv : Move α) :
    submissions (starting planned mv) = [mv] := by
  rw [starting_eq, submissions_append, submissions_zeroing]
  rfl

theorem tally_zeroing (axes : AxisSet) (n : Nat) :
    entries (zeroing axes n : List (Call α)) = [] ∧
      exits (zeroing axes n : List (Call α)) = [] := by
  constructor
  · refine List.filterMap_eq_nil_iff.2 fun c hc => ?_
    obtain ⟨k, -, rfl⟩ := List.mem_map.1 hc
    rfl
  · refine List.filterMap_eq_nil_iff.2 fun c hc => ?_
    obtain ⟨k, -, rfl⟩ := List.mem_map.1 hc
    rfl

theorem tally_handing (mv : Move α) :
    submissions (handing mv) = [mv] ∧ entries (handing mv) = [] ∧ exits (handing mv) = [] :=
  ⟨rfl, rfl, rfl⟩

theorem tally_service (status : Bool) : submissions (service status : List (Call α)) = [] ∧
    entries (service status : List (Call α)) = [] ∧
      exits (service status : List (Call α)) = [] := by
  cases status <;> exact ⟨rfl, rfl, rfl⟩

@[simp] theorem submissions_settling (ms : Nat) (r : Except Failure Unit) :
    submissions (settling ms r : List (Call α)) = [] := by
  cases r <;> rfl

end

section Closing

variable [Scalar α] (m : MachineSettings α) (axes : AxisSet) (r : Except Failure Unit)

/-- The reference positions are given by calls that set step counters alone. -/
theorem filterMap_committing {β : Type w} {f : Call α → Option β}
    (hf : ∀ n steps, f (.setSteps n steps) = none) : (committing m axes).filterMap f = [] := by
  refine List.filterMap_eq_nil_iff.2 fun c hc => ?_
  obtain ⟨_, _, _, -, -, -, rfl⟩ := mem_committing.1 hc
  exact hf _ _

@[simp] theorem submissions_closing : submissions (closing m axes r) = [] := by
  cases r with
  | error f => rfl
  | ok v =>
      rw [closing, submissions_append, submissions, filterMap_committing m axes fun _ _ => rfl]
      rfl

@[simp] theorem entries_closing : entries (closing m axes r) = [] := by
  cases r with
  | error f => rfl
  | ok v =>
      rw [closing, entries_append, entries, filterMap_committing m axes fun _ _ => rfl]
      rfl

@[simp] theorem exits_closing : exits (closing m axes r) = [(axes, r.isOk)] := by
  cases r with
  | error f => rfl
  | ok v =>
      rw [closing, exits_append, exits, filterMap_committing m axes fun _ _ => rfl]
      rfl

end Closing

variable [Machine σ α] [Scalar α] {m : MachineSettings α} {motors : MotorSet} {phase : Phase}
  {axes : AxisSet} {x : σ} {r : Except Failure Unit} {cs : List (Call α)}

/-- A phase hands over a move unless it is left out. -/
theorem PhaseRun.submissions_eq (h : PhaseRun m motors phase x r cs) :
    cs = [] ∨ ∃ mv, submissions cs = [mv] := by
  cases h with
  | idle _ => exact .inl rfl
  | skipped _ _ _ => exact .inl rfl
  | @moved mv _ loop _ _ _ hloop =>
      refine .inr ⟨mv, ?_⟩
      rw [submissions_append, submissions_append, submissions_starting,
        submissions_of_inLoop (inLoop_of_loopRun hloop), submissions_settling]
      rfl

theorem CycleRun.entries_eq (h : CycleRun m axes x r cs) : entries cs = [axes] := by
  cases h with
  | intro hphases =>
      rw [entries_append, entries_append, (tally_of_inPhase (inPhase_of_phasesRun hphases)).1,
        entries_closing]
      rfl

theorem CycleRun.exits_eq (h : CycleRun m axes x r cs) : exits cs = [(axes, r.isOk)] := by
  cases h with
  | intro hphases =>
      rw [exits_append, exits_append, (tally_of_inPhase (inPhase_of_phasesRun hphases)).2,
        exits_closing]
      rfl

theorem NumberedRun.entries_eq {ks : List Nat} (h : NumberedRun m ks x r cs) :
    entries cs = ks.map m.axesInCycle := by
  induction h with
  | nil => rfl
  | cons _ hcycle _ ih => rw [entries_append, hcycle.entries_eq, ih]; rfl
  | fail _ hcycle => exact hcycle.entries_eq

/-- Every cycle that is entered is left, in the same order. -/
theorem NumberedRun.exits_eq {ks : List Nat} (h : NumberedRun m ks x r cs) :
    (exits cs).map (·.1) = ks.map m.axesInCycle := by
  induction h with
  | nil => rfl
  | cons _ hcycle _ ih => rw [exits_append, hcycle.exits_eq, List.map_append, ih]; rfl
  | fail _ hcycle => rw [hcycle.exits_eq]; rfl

theorem NumberedRun.exits_of_ok {ks : List Nat} (h : NumberedRun m ks x (.ok ()) cs) :
    exits cs = ks.map fun k => (m.axesInCycle k, true) := by
  generalize hr : Except.ok () = r at h
  induction h with
  | nil => rfl
  | cons _ hcycle _ ih => rw [exits_append, hcycle.exits_eq, ih hr]; rfl
  | fail => cases hr

/-- Cycles that end well commit their axes. -/
theorem NumberedRun.closing_infix {ks : List Nat} (h : NumberedRun m ks x (.ok ()) cs) {k : Nat}
    (hk : k ∈ ks) : closing m (m.axesInCycle k) (.ok ()) <:+: cs := by
  generalize hr : Except.ok () = r at h
  induction h with
  | nil => cases hk
  | cons _ hcycle _ ih =>
      subst hr
      rcases List.mem_cons.1 hk with rfl | hk
      · cases hcycle with
        | intro _ => exact (List.suffix_append _ _).isInfix.trans (List.prefix_append _ _).isInfix
      · exact (ih hk rfl).trans (List.suffix_append _ _).isInfix
  | fail => cases hr

/-- A commit among some calls is an exit among them. -/
theorem mem_exits_of_closing_infix (h : closing m axes (.ok ()) <:+: cs) :
    (axes, true) ∈ exits cs := by
  obtain ⟨front, back, rfl⟩ := h
  rw [exits_append, exits_append, exits_closing]
  exact List.mem_append_left _ (List.mem_append_right _ List.mem_cons_self)

/-- An axis is in at most one of the cycles of a request. -/
theorem RequestRun.countP_entries {request : Request} {e : Except HomingError Unit}
    (h : RequestRun m request x e cs) {n : Nat}
    (hn : ∃ S ∈ entries cs, n ∈ S) : (entries cs).countP (n ∈ ·) = 1 := by
  obtain ⟨S, hS, hn⟩ := hn
  cases h with
  | ambiguous _ => cases hS
  | nothing _ _ => cases hS
  | cycle _ _ hcycle =>
      rw [hcycle.entries_eq, List.mem_singleton] at hS
      subst hS
      rw [hcycle.entries_eq, List.countP_singleton]
      simp [hn]
  | @wildcard _ ks r _ cs ds _ hpre hrun hend =>
      have hnone : entries ds = [] := by cases hend <;> rfl
      rw [entries_append, hnone, List.append_nil, hrun.entries_eq] at hS ⊢
      obtain ⟨k, hk, rfl⟩ := List.mem_map.1 hS
      -- The numbers of the cycles are distinct, and an axis has one number only.
      have hnodup : ks.Nodup := (cycles_ascending m).imp Nat.ne_of_lt |>.sublist hpre.sublist
      have hiff : ∀ j ∈ ks, decide (n ∈ m.axesInCycle j) = true ↔ (j == k) = true := by
        intro j _
        rw [decide_eq_true_eq, beq_iff_eq]
        exact ⟨fun hj => cycle_unique hj hn, fun hj => hj ▸ hn⟩
      rw [List.countP_map, ← List.count_eq_one_of_mem hnodup hk]
      exact List.countP_congr hiff

/-- A request leaves each set of axes that it enters. -/
theorem RequestRun.exits_eq {request : Request} {e : Except HomingError Unit}
    (h : RequestRun m request x e cs) : (exits cs).map (·.1) = entries cs := by
  cases h with
  | ambiguous _ => rfl
  | nothing _ _ => rfl
  | cycle _ _ hcycle =>
      rw [hcycle.exits_eq, hcycle.entries_eq]
      rfl
  | @wildcard _ _ _ _ cs ds _ _ hrun hend =>
      have hnone : entries ds = [] ∧ exits ds = [] := by cases hend <;> exact ⟨rfl, rfl⟩
      rw [exits_append, entries_append, hnone.1, hnone.2, List.append_nil, List.append_nil,
        hrun.exits_eq, hrun.entries_eq]

/-- An axis that leaves homing mode leaves it once. -/
theorem RequestRun.filter_exits {request : Request} {e : Except HomingError Unit}
    (h : RequestRun m request x e cs) {S : AxisSet} {b : Bool} (hS : (S, b) ∈ exits cs) {n : Nat}
    (hn : n ∈ S) : (exits cs).filter (fun exit => n ∈ exit.1) = [(S, b)] := by
  have hentry : S ∈ entries cs := h.exits_eq ▸ List.mem_map_of_mem hS
  have hcount := h.countP_entries ⟨S, hentry, hn⟩
  rw [← h.exits_eq, List.countP_map, List.countP_eq_length_filter, List.length_eq_one_iff] at hcount
  obtain ⟨exit, honly⟩ := hcount
  have hmem : (S, b) ∈ (exits cs).filter (fun exit => n ∈ exit.1) :=
    List.mem_filter.2 ⟨hS, decide_eq_true hn⟩
  refine honly.trans ?_
  rw [show (S, b) = exit from List.mem_singleton.1 (honly ▸ hmem)]

/-- No axis leaves homing mode in two ways. -/
theorem RequestRun.exits_unique {request : Request} {e : Except HomingError Unit}
    (h : RequestRun m request x e cs) {S T : AxisSet} {b c : Bool} (hS : (S, b) ∈ exits cs)
    (hT : (T, c) ∈ exits cs) {n : Nat} (hnS : n ∈ S) (hnT : n ∈ T) : b = c := by
  have hsame := (h.filter_exits hS hnS).symm.trans (h.filter_exits hT hnT)
  exact congrArg Prod.snd (List.singleton_inj.1 hsame)

omit [Machine σ α] [Scalar α] in
/-- What is called around a request takes no axis out of homing mode. -/
theorem exits_around (cs : List (Call α)) (e : Except HomingError Unit) :
    exits ([.setState .homing] ++ cs ++ concluding e) = exits cs := by
  have hnone : exits (concluding e : List (Call α)) = [] := by cases e <;> rfl
  rw [exits_append, exits_append, hnone, List.append_nil]
  rfl

theorem exits_unique_of_home {budget : Nat} {request : Request} {e : Except HomingError Unit}
    {t : Session σ α} (h : home budget m request x = some (e, t)) {S T : AxisSet} {b c : Bool}
    (hS : (S, b) ∈ exits t.calls) (hT : (T, c) ∈ exits t.calls) {n : Nat} (hnS : n ∈ S)
    (hnT : n ∈ T) : b = c := by
  obtain ⟨cs, hrun, hmakes⟩ := requestRun_of_home h
  have hcalls : t.calls = [.setState .homing] ++ cs ++ concluding e := hmakes.calls
  rw [hcalls, exits_around] at hS hT
  exact hrun.exits_unique hS hT hnS hnT

end Homing
