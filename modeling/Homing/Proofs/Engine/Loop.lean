import Homing.Proofs.Engine.Calls

/-!
# The loop of a phase as a relation

`LoopRun approach remaining x r cs` says that the loop of a phase, entered with the
machine `x` and waiting for the motors `remaining`, makes the calls `cs` and ends
with `r`. It is built from single turns: `TurnGoes` is a turn after which the loop
goes on, and `TurnEnds` has one constructor for each way in which a turn ends it.
Both say what the limit switches and the signals were when the turn looked at them.

`loopRun_of_turns` reads a finished run of `turns` as such a relation, so that what
holds of a phase is proved by induction on it, without sessions, notes and budgets.
`exists_turns_of_measure` is the way back: a measure that falls in every turn that
goes on gives a budget with which the loop ends.
-/

namespace Homing

variable {σ : Type u} {α : Type v} [Machine σ α]

/-- The signals that a turn sees: those that wait after its refill. -/
def seen (x : σ) : Signals := Machine.pending (Machine.after [.refill] x)

/-- The calls at the front of a turn: it refills the step buffer and answers a
request for a status report. -/
def service (status : Bool) : List (Call α) :=
  .refill :: if status then [.acknowledge .status, .reportStatus] else []

omit [Machine σ α] in
theorem service_eq_cons (status : Bool) :
    ∃ rest, (service status : List (Call α)) = .refill :: rest :=
  ⟨_, rfl⟩

/-- The motors that a turn waits for once it has looked at the limit switches. -/
def awaited (approach : Bool) (remaining : MotorSet) (x : σ) : MotorSet :=
  if approach then remaining \ (Machine.limits x).active else remaining

/-- No signal that a turn sees ends the loop. -/
def Quiet (s : Signals) : Prop := s.reset = false ∧ s.safetyDoor = false ∧ s.cycleStop = false

/-- A turn after which the loop goes on and waits for `rest`. -/
structure TurnGoes (approach : Bool) (remaining : MotorSet) (x : σ) (rest : MotorSet)
    (cs : List (Call α)) : Prop where
  rest_eq : rest = awaited approach remaining x
  rest_ne : rest ≠ ∅
  quiet : Quiet (seen x)
  calls_eq : cs = service (seen x).statusReport ++ [.poll]

/-- A turn that ends the loop. A reset comes before an open door, and both come
before the end of the motion. -/
inductive TurnEnds (approach : Bool) (remaining : MotorSet) (x : σ) :
    Except Failure Unit → List (Call α) → Prop
  | reset (hreset : (seen x).reset = true) :
      TurnEnds approach remaining x (.error .reset) (service (seen x).statusReport)
  | door (hreset : (seen x).reset = false) (hdoor : (seen x).safetyDoor = true) :
      TurnEnds approach remaining x (.error .door) (service (seen x).statusReport)
  /-- The motion of an approach came to its end. -/
  | missed (hreset : (seen x).reset = false) (hdoor : (seen x).safetyDoor = false)
      (hstop : (seen x).cycleStop = true) (happroach : approach = true) :
      TurnEnds approach remaining x (.error .approach)
        (service (seen x).statusReport ++ [.acknowledge .stop])
  /-- The motion of a pull-off came to its end with a motor on its switch. -/
  | held (hreset : (seen x).reset = false) (hdoor : (seen x).safetyDoor = false)
      (hstop : (seen x).cycleStop = true) (happroach : approach = false)
      (hon : (Machine.limits (Machine.after
        (service (seen x).statusReport ++ [.acknowledge .stop]) x)).active ∩ remaining ≠ ∅) :
      TurnEnds approach remaining x (.error .pulloff)
        (service (seen x).statusReport ++ [.acknowledge .stop])
  /-- The motion of a pull-off came to its end with every motor off its switch. -/
  | cleared (hreset : (seen x).reset = false) (hdoor : (seen x).safetyDoor = false)
      (hstop : (seen x).cycleStop = true) (happroach : approach = false)
      (hoff : (Machine.limits (Machine.after
        (service (seen x).statusReport ++ [.acknowledge .stop]) x)).active ∩ remaining = ∅) :
      TurnEnds approach remaining x (.ok ())
        (service (seen x).statusReport ++ [.acknowledge .stop] ++ [.poll])
  /-- No motor is left to wait for. -/
  | found (hquiet : Quiet (seen x)) (hnone : awaited approach remaining x = ∅) :
      TurnEnds approach remaining x (.ok ()) (service (seen x).statusReport ++ [.poll])

/-- The loop of a phase, from the machine at its first turn to its end. -/
inductive LoopRun (approach : Bool) :
    MotorSet → σ → Except Failure Unit → List (Call α) → Prop
  | last {remaining : MotorSet} {x : σ} {r : Except Failure Unit} {cs : List (Call α)} :
      TurnEnds approach remaining x r cs → LoopRun approach remaining x r cs
  | again {remaining rest : MotorSet} {x : σ} {r : Except Failure Unit}
      {cs ds : List (Call α)} : TurnGoes approach remaining x rest cs →
      LoopRun approach rest (Machine.after cs x) r ds →
      LoopRun approach remaining x r (cs ++ ds)

/-- A call that the loop of a phase makes in some turn. -/
inductive Call.InLoop : Call α → Prop
  | refill : InLoop .refill
  | status : InLoop (.acknowledge .status)
  | report : InLoop .reportStatus
  | stop : InLoop (.acknowledge .stop)
  | poll : InLoop .poll

/-! ## One turn -/

/-- Looking at the switches changes nothing but the motors that are waited for. -/
theorem seeSwitches_eq (remaining : MotorSet) (s : Session σ α) :
    (seeSwitches remaining s).1 = awaited s.approaching remaining s.machine ∧
      s.Makes [] (seeSwitches remaining s).2 ∧
      (seeSwitches remaining s).2.approaching = s.approaching := by
  unfold seeSwitches awaited
  by_cases ha : s.approaching = true
  · rw [if_pos ha, if_pos ha]
    by_cases he : (remaining ∩ (Machine.limits s.machine).active).isEmpty = true
    · rw [if_pos he]
      refine ⟨?_, .refl s, rfl⟩
      have hdisj := MotorSet.isEmpty_iff.1 he
      ext id
      have hnot : id ∉ remaining ∩ (Machine.limits s.machine).active := by
        rw [hdisj]
        exact MotorSet.not_mem_empty id
      rw [MotorSet.mem_inter] at hnot
      rw [MotorSet.mem_sdiff]
      exact ⟨fun h => ⟨h, fun g => hnot ⟨h, g⟩⟩, And.left⟩
    · rw [if_neg he]
      exact ⟨rfl, .note _ s, rfl⟩
  · rw [if_neg ha, if_neg ha]
    exact ⟨rfl, .refl s, rfl⟩

theorem serveStatus_makes {s t : Session σ α} (h : s.Makes [.refill] t)
    (status : Signals) :
    s.Makes (service status.statusReport) (serveStatus status t) ∧
      (serveStatus status t).approaching = t.approaching := by
  unfold serveStatus service
  cases status.statusReport with
  | false => exact ⟨h, rfl⟩
  | true =>
      refine ⟨?_, by simp⟩
      simpa using (h.snoc (.acknowledge .status)).snoc .reportStatus

/-- The end of the motion ends the loop, once the status is served. -/
theorem motionStopped_ends {remaining : MotorSet} {s u : Session σ α}
    (hserve : s.Makes (service (seen s.machine).statusReport) u)
    (happ : u.approaching = s.approaching) (hreset : (seen s.machine).reset = false)
    (hdoor : (seen s.machine).safetyDoor = false) (hstop : (seen s.machine).cycleStop = true) :
    ∃ r t cs, motionStopped (awaited s.approaching remaining s.machine) u = .ended r t ∧
      TurnEnds s.approaching remaining s.machine r cs ∧ s.Makes cs t := by
  have hack := hserve.snoc (.acknowledge .stop)
  simp only [motionStopped, Session.approaching_call, happ, hack.machine]
  by_cases ha : s.approaching = true
  · exact ⟨_, _, _, by rw [if_pos ha], .missed hreset hdoor hstop ha, hack⟩
  rw [if_neg ha]
  rw [Bool.not_eq_true] at ha
  have hawait : awaited s.approaching remaining s.machine = remaining := by
    rw [awaited, ha]
    rfl
  rw [hawait]
  by_cases hoff : ((Machine.limits (Machine.after (service (seen s.machine).statusReport ++
      [.acknowledge .stop]) s.machine)).active ∩ remaining).isEmpty = true
  · exact ⟨_, _, _, by rw [if_pos hoff],
      .cleared hreset hdoor hstop ha (MotorSet.isEmpty_iff.1 hoff), hack.snoc .poll⟩
  · exact ⟨_, _, _, by rw [if_neg hoff],
      .held hreset hdoor hstop ha fun he => hoff (MotorSet.isEmpty_iff.2 he), hack⟩

/-- Either the loop goes on after a turn, or it ends in one of the six ways. -/
theorem turn_cases (remaining : MotorSet) (s : Session σ α) :
    (∃ rest t cs, turn remaining s = .more rest t ∧
      TurnGoes s.approaching remaining s.machine rest cs ∧ s.Makes cs t ∧
      t.approaching = s.approaching) ∨
    (∃ r t cs, turn remaining s = .ended r t ∧
      TurnEnds s.approaching remaining s.machine r cs ∧ s.Makes cs t) := by
  obtain ⟨hrest, hmakes, happ⟩ := seeSwitches_eq remaining s
  have hrefill : s.Makes [.refill] ((seeSwitches remaining s).2.call .refill) := by
    simpa using hmakes.snoc .refill
  have hseen : Machine.pending ((seeSwitches remaining s).2.call .refill).machine =
      seen s.machine := by rw [hrefill.machine, seen]
  obtain ⟨hserve, hserveApp⟩ := serveStatus_makes hrefill (seen s.machine)
  rw [Session.approaching_call, happ] at hserveApp
  unfold turn
  simp only [hrest, hseen]
  generalize serveStatus (seen s.machine) ((seeSwitches remaining s).2.call .refill) = u at *
  by_cases hreset : (seen s.machine).reset = true
  · exact .inr ⟨_, u, _, by rw [if_pos hreset], .reset hreset, hserve⟩
  rw [if_neg hreset]
  rw [Bool.not_eq_true] at hreset
  by_cases hdoor : (seen s.machine).safetyDoor = true
  · exact .inr ⟨_, u, _, by rw [if_pos hdoor], .door hreset hdoor, hserve⟩
  rw [if_neg hdoor]
  rw [Bool.not_eq_true] at hdoor
  by_cases hstop : (seen s.machine).cycleStop = true
  · rw [if_pos hstop]
    exact .inr (motionStopped_ends hserve hserveApp hreset hdoor hstop)
  rw [if_neg hstop]
  rw [Bool.not_eq_true] at hstop
  by_cases hnone : (awaited s.approaching remaining s.machine).isEmpty = true
  · exact .inr ⟨_, _, _, by rw [if_pos hnone],
      .found ⟨hreset, hdoor, hstop⟩ (MotorSet.isEmpty_iff.1 hnone), hserve.snoc .poll⟩
  · refine .inl ⟨_, _, _, by rw [if_neg hnone], ⟨rfl, ?_, ⟨hreset, hdoor, hstop⟩, rfl⟩,
      hserve.snoc .poll, by rw [Session.approaching_call, hserveApp]⟩
    exact fun he => hnone (MotorSet.isEmpty_iff.2 he)

/-! ## Whole runs -/

omit [Machine σ α] in
theorem inLoop_of_mem_service {status : Bool} {c : Call α} (hc : c ∈ service status) :
    c.InLoop := by
  cases status with
  | false =>
      obtain rfl : c = .refill := by simpa [service] using hc
      exact .refill
  | true =>
      rcases (by simpa [service] using hc : c = .refill ∨ c = .acknowledge .status ∨
        c = .reportStatus) with rfl | rfl | rfl
      · exact .refill
      · exact .status
      · exact .report

theorem inLoop_of_loopRun {approach : Bool} {remaining : MotorSet} {x : σ}
    {r : Except Failure Unit} {cs : List (Call α)} (h : LoopRun approach remaining x r cs) :
    ∀ c ∈ cs, c.InLoop := by
  have snoc {status : Bool} {ds : List (Call α)} (hds : ∀ c ∈ ds, c.InLoop) :
      ∀ c ∈ service status ++ ds, c.InLoop := by
    intro c hc
    rcases List.mem_append.1 hc with hc | hc
    · exact inLoop_of_mem_service hc
    · exact hds c hc
  have poll : ∀ c ∈ [(.poll : Call α)], c.InLoop := by
    intro c hc
    rw [List.mem_singleton.1 hc]
    exact .poll
  have stop : ∀ c ∈ [(.acknowledge .stop : Call α)], c.InLoop := by
    intro c hc
    rw [List.mem_singleton.1 hc]
    exact .stop
  have both : ∀ c ∈ [(.acknowledge .stop : Call α)] ++ [.poll], c.InLoop := by
    intro c hc
    rcases List.mem_append.1 hc with hc | hc
    · exact stop c hc
    · exact poll c hc
  induction h with
  | last hends =>
      cases hends with
      | reset => exact fun c hc => inLoop_of_mem_service hc
      | door => exact fun c hc => inLoop_of_mem_service hc
      | missed => exact snoc stop
      | held => exact snoc stop
      | cleared => rw [List.append_assoc]; exact snoc both
      | found => exact snoc poll
  | again hgoes _ ih =>
      intro c hc
      rcases List.mem_append.1 hc with hc | hc
      · rw [hgoes.calls_eq] at hc
        exact snoc poll c hc
      · exact ih c hc

theorem loopRun_of_turns {n : Nat} {remaining : MotorSet} {s t : Session σ α}
    {r : Except Failure Unit} (h : turns n remaining s = some (r, t)) :
    ∃ cs, LoopRun s.approaching remaining s.machine r cs ∧ s.Makes cs t := by
  induction n generalizing remaining s with
  | zero => simp [turns] at h
  | succ n ih =>
      rw [turns] at h
      rcases turn_cases remaining s with ⟨rest, u, cs, heq, hgoes, hmakes, happ⟩ |
        ⟨r', u, cs, heq, hends, hmakes⟩
      · rw [heq] at h
        obtain ⟨ds, hrun, hmakes'⟩ := ih h
        rw [happ, hmakes.machine] at hrun
        exact ⟨cs ++ ds, .again hgoes hrun, hmakes.trans hmakes'⟩
      · rw [heq] at h
        obtain ⟨rfl, rfl⟩ : r' = r ∧ u = t := by simpa using h
        exact ⟨cs, .last hends, hmakes⟩

/-! ## How a loop ends -/

/-- A loop ends in its last turn. A pull-off waits for all its motors until then. -/
theorem LoopRun.exists_last {approach : Bool} {remaining : MotorSet} {x : σ}
    {r : Except Failure Unit} {cs : List (Call α)} (h : LoopRun approach remaining x r cs) :
    ∃ pre last rest, cs = pre ++ last ∧ TurnEnds approach rest (Machine.after pre x) r last ∧
      (approach = false → rest = remaining) := by
  induction h with
  | @last remaining x r cs hends => exact ⟨[], cs, remaining, rfl, hends, fun _ => rfl⟩
  | @again remaining rest x r cs ds hgoes _ ih =>
      obtain ⟨pre, last, awaiting, rfl, hends, hall⟩ := ih
      rw [← Machine.after_append] at hends
      refine ⟨cs ++ pre, last, awaiting, (List.append_assoc _ _ _).symm, hends, fun hpull => ?_⟩
      rw [hall hpull, hgoes.rest_eq, awaited, hpull]
      rfl

/-- Without a signal from outside a loop fails only at the end of its motion, and in a pull-off
only with a motor on its switch. -/
theorem TurnEnds.of_error {approach : Bool} {remaining : MotorSet} {x : σ} {f : Failure}
    {cs : List (Call α)} (h : TurnEnds approach remaining x (.error f) cs)
    (hreset : (seen x).reset = false) (hdoor : (seen x).safetyDoor = false) :
    (seen x).cycleStop = true ∧ cs = service (seen x).statusReport ++ [.acknowledge .stop] ∧
      (approach = false → (Machine.limits (Machine.after cs x)).active ∩ remaining ≠ ∅) := by
  cases h with
  | reset h =>
      rw [hreset] at h
      cases h
  | door _ h =>
      rw [hdoor] at h
      cases h
  | missed _ _ hstop happroach =>
      refine ⟨hstop, rfl, fun hpull => ?_⟩
      rw [happroach] at hpull
      cases hpull
  | held _ _ hstop _ hon => exact ⟨hstop, rfl, fun _ => hon⟩

/-- An approach that ends well has seen each motor on its switch. -/
theorem LoopRun.exists_seen {remaining : MotorSet} {x : σ} {cs : List (Call α)}
    (h : LoopRun true remaining x (.ok ()) cs) {id : Motor} (hid : id ∈ remaining) :
    ∃ loop rest, cs = loop ++ rest ∧ id ∈ (Machine.limits (Machine.after loop x)).active := by
  generalize happroach : true = approach at h
  generalize hr : Except.ok () = r at h
  induction h with
  | @last remaining x r cs hends =>
      cases hends with
      | reset => cases hr
      | door => cases hr
      | missed => cases hr
      | held => cases hr
      | cleared _ _ _ hfalse => rw [← happroach] at hfalse; cases hfalse
      | found _ hnone =>
          rw [awaited, if_pos happroach.symm] at hnone
          have hnot : id ∉ remaining \ (Machine.limits x).active := by
            rw [hnone]
            exact MotorSet.not_mem_empty id
          refine ⟨[], _, rfl, ?_⟩
          exact Decidable.byContradiction fun hoff => hnot (MotorSet.mem_sdiff.2 ⟨hid, hoff⟩)
  | @again remaining rest x r cs ds hgoes _ ih =>
      by_cases hon : id ∈ (Machine.limits x).active
      · exact ⟨[], _, rfl, hon⟩
      · have hrest : id ∈ rest := by
          rw [hgoes.rest_eq, awaited, if_pos happroach.symm]
          exact MotorSet.mem_sdiff.2 ⟨hid, hon⟩
        obtain ⟨loop, tail, hds, hseen⟩ := ih hrest hr
        refine ⟨cs ++ loop, tail, by rw [hds, List.append_assoc], ?_⟩
        rw [Machine.after_append]
        exact hseen

/-- A pull-off that ends well has seen the end of its motion, and then no motor on its
switch. -/
theorem LoopRun.exists_cleared {remaining : MotorSet} {x : σ} {cs : List (Call α)}
    (h : LoopRun false remaining x (.ok ()) cs) (hne : remaining ≠ ∅) :
    ∃ pre status, cs = pre ++ (service status ++ [.acknowledge .stop] ++ [.poll]) ∧
      (seen (Machine.after pre x)).cycleStop = true ∧
      (Machine.limits (Machine.after (pre ++ (service status ++ [.acknowledge .stop])) x)).active ∩
        remaining = ∅ := by
  obtain ⟨pre, last, rest, rfl, hends, hall⟩ := h.exists_last
  obtain rfl := hall rfl
  cases hends with
  | cleared _ _ hstop _ hoff =>
      rw [← Machine.after_append] at hoff
      exact ⟨pre, _, rfl, hstop, hoff⟩
  | found _ hnone => exact absurd hnone hne

/-! ## Termination -/

/-- The loop ends when every turn that goes on keeps a property of the machine and
lowers a measure of it. -/
theorem exists_turns_of_measure {approach : Bool} (P : MotorSet → σ → Prop) (μ : σ → Nat)
    (hstep : ∀ remaining x rest cs, P remaining x → TurnGoes approach remaining x rest cs →
      P rest (Machine.after cs x) ∧ μ (Machine.after cs x) < μ x)
    {remaining : MotorSet} {s : Session σ α} (hs : s.approaching = approach)
    (hP : P remaining s.machine) : ∃ n, (turns n remaining s).isSome = true := by
  induction hμ : μ s.machine using Nat.strongRecOn generalizing remaining s with
  | _ k ih =>
      subst hμ
      rcases turn_cases remaining s with ⟨rest, u, cs, heq, hgoes, hmakes, happ⟩ |
        ⟨r, u, cs, heq, -, -⟩
      · rw [hs] at hgoes
        obtain ⟨hP', hlt⟩ := hstep _ _ _ _ hP hgoes
        rw [← hmakes.machine] at hP' hlt
        obtain ⟨n, hn⟩ := ih _ hlt (happ.trans hs) hP' rfl
        exact ⟨n + 1, by rw [turns, heq]; exact hn⟩
      · exact ⟨1, by rw [turns, heq]; rfl⟩

end Homing
