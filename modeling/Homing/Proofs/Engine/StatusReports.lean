import Homing.Proofs.Engine.Coupled
import Homing.Proofs.Engine.Tally
import Homing.Scripted

/-!
# More requests for status reports

A request for a status report is served at the front of the turn that sees it, and nothing
else depends on it. So a machine that is asked for more reports goes through the same run as
one that is not, and the calls of the two runs differ only at the fronts of turns: `Reported`
reads the two lists side by side, call by call and front by front.

The request may already have been raised by the refill that starts a move. Until the first
turn has served it the two machines differ in it, which is why the relation between them
allows one more request to wait in the second one (`Signals.Asks`), and why no request waits
in only one of them once a turn has served its status (`Same`).
-/

namespace Homing

/-! ## Signals -/

/-- Requests for status reports at these times. -/
def reports (ns : List Nat) : List (Nat × Signals) := ns.map fun n => (n, .status)

/-- The signals `t` are those of `s`, but that a status report may be asked for as well. -/
structure Signals.Asks (s t : Signals) : Prop where
  reset : s.reset = t.reset
  safetyDoor : s.safetyDoor = t.safetyDoor
  cycleStop : s.cycleStop = t.cycleStop
  statusReport : s.statusReport = true → t.statusReport = true

namespace Signals.Asks

variable {s t u v : Signals}

theorem refl (s : Signals) : s.Asks s := ⟨rfl, rfl, rfl, id⟩

theorem sdiff_status (h : s.Asks t) : s \ .status = t \ .status :=
  sdiff_status_eq_iff.2 ⟨h.reset, h.safetyDoor, h.cycleStop⟩

theorem union (h : s.Asks t) (g : u.Asks v) : (s ∪ u).Asks (t ∪ v) := by
  obtain ⟨hreset, hdoor, hstop, hstatus⟩ := h
  obtain ⟨greset, gdoor, gstop, gstatus⟩ := g
  rw [union_def, union_def]
  refine ⟨?_, ?_, ?_, fun hany => ?_⟩
  · rw [Signals.union, Signals.union, hreset, greset]
  · rw [Signals.union, Signals.union, hdoor, gdoor]
  · rw [Signals.union, Signals.union, hstop, gstop]
  · exact Bool.or_eq_true_iff.2 ((Bool.or_eq_true_iff.1 hany).imp hstatus gstatus)

theorem sdiff (h : s.Asks t) (u : Signals) : (s \ u).Asks (t \ u) := by
  obtain ⟨hreset, hdoor, hstop, hstatus⟩ := h
  rw [sdiff_def, sdiff_def]
  refine ⟨?_, ?_, ?_, fun hany => ?_⟩
  · rw [diff, diff, hreset]
  · rw [diff, diff, hdoor]
  · rw [diff, diff, hstop]
  · obtain ⟨hs, hu⟩ := (Bool.and_eq_true_iff).1 hany
    exact (Bool.and_eq_true_iff).2 ⟨hstatus hs, hu⟩

theorem eq (h : s.Asks t) (hstatus : s.statusReport = t.statusReport) : s = t := by
  obtain ⟨hreset, hdoor, hstop, -⟩ := h
  obtain ⟨_, _, _, _⟩ := s
  obtain ⟨_, _, _, _⟩ := t
  rw [Signals.mk.injEq]
  exact ⟨hstatus, hreset, hdoor, hstop⟩

/-- Once the report is served that only `t` asks for, nothing more waits. -/
theorem eq_sdiff_status (h : s.Asks t) (hstatus : s.statusReport = false) : s = t \ .status := by
  have hserved : (s \ .status).Asks (t \ .status) := h.sdiff .status
  have hnone : s \ .status = s := by
    obtain ⟨_, reset, door, stop⟩ := s
    subst hstatus
    cases reset <;> cases door <;> cases stop <;> rfl
  rw [← hnone]
  exact hserved.eq (by simp [sdiff_def, diff, status])

/-- A schedule raises the same signals with requests for reports added to it. -/
theorem foldl (h : s.Asks t) (l : List (Nat × Signals)) (ns : List Nat) (k : Nat) :
    ((l.filter (·.1 == k)).foldl (fun all e => all ∪ e.2) s).Asks
      (((l ++ reports ns).filter (·.1 == k)).foldl (fun all e => all ∪ e.2) t) := by
  have hadded (ks : List (Nat × Signals)) (hks : ∀ e ∈ ks, e.2 = .status) {s t : Signals}
      (h : s.Asks t) : s.Asks (ks.foldl (fun all e => all ∪ e.2) t) := by
    induction ks generalizing t with
    | nil => exact h
    | cons e ks ih =>
        refine ih (fun e he => hks e (List.mem_cons_of_mem _ he)) ?_
        dsimp only
        rw [hks e List.mem_cons_self, union_def]
        refine ⟨?_, ?_, ?_, fun hs => ?_⟩ <;> simp [Signals.union, Signals.status, h.reset,
          h.safetyDoor, h.cycleStop]
  have hboth (es : List (Nat × Signals)) {s t : Signals} (h : s.Asks t) :
      (es.foldl (fun all e => all ∪ e.2) s).Asks (es.foldl (fun all e => all ∪ e.2) t) := by
    induction es generalizing s t with
    | nil => exact h
    | cons e es ih => exact ih (h.union (.refl _))
  rw [List.filter_append, List.foldl_append]
  refine hadded _ (fun e he => ?_) (hboth _ h)
  obtain ⟨n, -, rfl⟩ := List.mem_map.1 (List.mem_filter.1 he).1
  rfl

end Signals.Asks

variable {σ : Type u} {α : Type v}

/-! ## Calls side by side -/

/-- A call that neither starts a move nor belongs to the front of a turn. -/
def Call.Plain : Call α → Prop
  | submit _ | refill | start | reportStatus => False
  | acknowledge signals => signals ≠ .status
  | _ => True

variable [Machine σ α]

/-- The calls of a run from `x` beside those of a run from `y` that may see more requests for
status reports. They are the same, but that in either run the front of a turn serves a report
exactly when the turn sees a request for one. -/
inductive Reported (x y : σ) : List (Call α) → List (Call α) → Prop
  | nil : Reported x y [] []
  | call {cs ds : List (Call α)} {c : Call α} (hc : c.Plain) (h : Reported x y cs ds) :
      Reported x y (cs ++ [c]) (ds ++ [c])
  | handing {cs ds : List (Call α)} (mv : Move α) (h : Reported x y cs ds) :
      Reported x y (cs ++ handing mv) (ds ++ handing mv)
  | front {cs ds : List (Call α)}
      (hmore : (seen (Machine.after cs x)).statusReport = true →
        (seen (Machine.after ds y)).statusReport = true) (h : Reported x y cs ds) :
      Reported x y (cs ++ service (seen (Machine.after cs x)).statusReport)
        (ds ++ service (seen (Machine.after ds y)).statusReport)

/-! ## Machines side by side -/

/-- Machines in the relation `R` show the same but for requests for status reports, of which
the second may have more, and stay so whatever is called. -/
structure ReportTwins (R : σ → σ → Prop) : Prop where
  limits : ∀ {x y}, R x y → Machine.limits x = Machine.limits y
  steps : ∀ {x y}, R x y → Machine.steps x = Machine.steps y
  homeable : ∀ {x y}, R x y → Machine.homeable x = Machine.homeable y
  state : ∀ {x y}, R x y → Machine.state x = Machine.state y
  pending : ∀ {x y}, R x y → (Machine.pending x).Asks (Machine.pending y)
  apply : ∀ {x y} c, R x y → R (Machine.apply c x).1 (Machine.apply c y).1
  /-- Only a refill raises signals. -/
  raises : ∀ {x y} c, c ≠ .refill → R x y → Machine.pending x = Machine.pending y →
    Machine.pending (Machine.apply c x).1 = Machine.pending (Machine.apply c y).1
  serve : ∀ {x y}, R x y → (Machine.pending x).statusReport = false →
    R x (Machine.after [.acknowledge .status, .reportStatus] y)
  served : ∀ y : σ, Machine.pending (Machine.after [.acknowledge .status, .reportStatus] y) =
    Machine.pending y \ .status

/-- Two machines in the relation `R` in which the same signals wait. -/
structure Same (R : σ → σ → Prop) (x y : σ) : Prop where
  twins : R x y
  pending : Machine.pending x = Machine.pending y

/-- Two tracks that began as `x` and `y`, with their machines in the relation `R`. -/
structure Paired (R : σ → σ → Prop) (x y : σ) (p q : Track σ α) : Prop where
  machines : R p.machine q.machine
  calls : Reported x y p.calls q.calls
  first : p.machine = Machine.after p.calls x
  second : q.machine = Machine.after q.calls y

/-- Only in front of a turn may a request wait in one of the machines alone. -/
def pairing (R : σ → σ → Prop) (x y : σ) : Pairing σ α where
  between := Paired (Same R) x y
  within _ _ := Paired (Same R) x y
  before _ _ := Paired R x y
  after _ _ := Paired (Same R) x y

namespace ReportTwins

variable {R : σ → σ → Prop} {x y : σ} {cs : List (Call α)} {p q : Track σ α}

theorem after (hR : ReportTwins R) (cs : List (Call α)) (h : R x y) :
    R (Machine.after cs x) (Machine.after cs y) := by
  induction cs generalizing x y with
  | nil => exact h
  | cons c cs ih => exact ih (hR.apply c h)

theorem same_after (hR : ReportTwins R) (hcs : .refill ∉ cs) (h : Same R x y) :
    Same R (Machine.after cs x) (Machine.after cs y) := by
  induction cs generalizing x y with
  | nil => exact h
  | cons c cs ih =>
      obtain ⟨hc, hcs⟩ := not_or.1 (mt List.mem_cons.2 hcs)
      exact ih hcs ⟨hR.apply c h.twins, hR.raises c (Ne.symm hc) h.twins h.pending⟩

theorem alikeAlong (hR : ReportTwins R) (hcs : .refill ∉ cs) (h : Same R x y) :
    AlikeAlong cs x y := by
  intro pre hpre
  obtain ⟨htwins, hpending⟩ := hR.same_after (fun hmem => hcs (hpre.subset hmem)) h
  exact ⟨hR.limits htwins, hR.steps htwins, hR.homeable htwins, hR.state htwins, hpending⟩

theorem paired_plain (hR : ReportTwins R) (hcs : ∀ c ∈ cs, c.Plain)
    (h : Paired (Same R) x y p q) : Paired (Same R) x y (p.makes cs) (q.makes cs) := by
  induction cs generalizing p q with
  | nil =>
      rw [Track.makes_nil, Track.makes_nil]
      exact h
  | cons c cs ih =>
      have hc := hcs c List.mem_cons_self
      have hrefill : (.refill : Call α) ∉ [c] := by
        intro hmem
        rw [← List.mem_singleton.1 hmem] at hc
        exact hc
      have hsplit (p : Track σ α) : p.makes (c :: cs) = (p.makes [c]).makes cs :=
        p.makes_append [c] cs
      rw [hsplit, hsplit]
      refine ih (fun d hd => hcs d (List.mem_cons_of_mem c hd)) ⟨?_, ?_, ?_, ?_⟩
      · exact hR.same_after hrefill h.machines
      · exact .call hc h.calls
      · rw [Track.makes, Machine.after_append, ← h.first]
      · rw [Track.makes, Machine.after_append, ← h.second]

/-- The front of a turn serves a request that waits in only one of the machines. -/
theorem same_served (hR : ReportTwins R) (h : R x y) :
    Same R (Machine.after (service (seen x).statusReport) x)
      (Machine.after (service (seen y).statusReport) y) := by
  have hrefill : R (Machine.after [.refill] x) (Machine.after [.refill] y) := hR.after [.refill] h
  have hasks := hR.pending hrefill
  cases hx : (seen x).statusReport with
  | true =>
      have hy : (seen y).statusReport = true := hasks.statusReport hx
      rw [hy]
      refine ⟨hR.after [.acknowledge .status, .reportStatus] hrefill, ?_⟩
      have hserved (z : σ) : Machine.pending (Machine.after (service true) z) =
          Machine.pending (Machine.after [.refill] z) \ .status := hR.served _
      rw [hserved, hserved]
      exact hasks.sdiff_status
  | false =>
      cases hy : (seen y).statusReport with
      | true =>
          refine ⟨hR.serve hrefill hx, ?_⟩
          have hserved : Machine.pending (Machine.after (service true) y) =
            Machine.pending (Machine.after [.refill] y) \ .status := hR.served _
          rw [hserved]
          exact hasks.eq_sdiff_status hx
      | false => exact ⟨hrefill, hasks.eq (hx.trans hy.symm)⟩

/-- From the move that starts a phase to its first turn a request may wait in only one of the
machines. -/
theorem paired_handing (hR : ReportTwins R) (mv : Move α) (h : Paired (Same R) x y p q) :
    Paired R x y (p.makes (handing mv)) (q.makes (handing mv)) := by
  refine ⟨hR.after _ h.machines.twins, .handing mv h.calls, ?_, ?_⟩
  · rw [Track.makes, Machine.after_append, ← h.first]
  · rw [Track.makes, Machine.after_append, ← h.second]

theorem loopCoupling (hR : ReportTwins R) :
    LoopCoupling (Paired R x y) (Paired (Same R) x y) where
  before h := ⟨h.machines.twins, h.calls, h.first, h.second⟩
  limits h := by rw [hR.limits h.machines]
  signals h := (hR.pending (hR.after [.refill] h.machines)).sdiff_status
  served {p q} h := by
    refine ⟨hR.same_served h.machines, ?_, ?_, ?_⟩
    · have hmore := (hR.pending (hR.after [.refill] h.machines)).statusReport
      rw [h.first, h.second] at hmore ⊢
      exact .front hmore h.calls
    · rw [Track.makes, Machine.after_append, ← h.first]
    · rw [Track.makes, Machine.after_append, ← h.second]
  stop h := hR.paired_plain (by simp [Call.Plain, Signals.stop, Signals.status]) h
  poll h := hR.paired_plain (by simp [Call.Plain]) h

variable [Scalar α] {m : MachineSettings α}

/-- Requests for status reports leave a run as it is. -/
theorem coupling (hR : ReportTwins R) (m : MachineSettings α) :
    Coupling m m (pairing R x y) where
  homingAxes := rfl
  axesInCycle _ := rfl
  phasePlan _ := rfl
  settle _ _ := rfl
  state h := hR.state h.machines.twins
  ambiguous h := by rw [hR.limits h.machines.twins]
  homeable h := hR.homeable h.machines.twins
  setState state := hR.paired_plain (by simp [Call.Plain])
  raiseAlarm alarm := hR.paired_plain (by simp [Call.Plain])
  enter _ := hR.paired_plain (by simp [Call.Plain])
  limits h := by rw [hR.limits h.machines.twins]
  start {axes motors phase s w} h := by
    obtain ⟨mv, -, hbegin, -⟩ := Session.beginPhase_spec m motors phase s
    have hzeroing : ∀ c ∈ (zeroing (planMove m motors phase).axes maxAxes : List (Call α)),
        c.Plain ∧ c ≠ .refill := by
      intro c hc
      obtain ⟨n, -, rfl⟩ := List.mem_map.1 hc
      exact ⟨trivial, nofun⟩
    have hbegin' := Session.beginPhase_alike hbegin
      (hR.alikeAlong (fun hmem => (hzeroing _ hmem).2 rfl) h.machines).counters
    rw [hbegin.track_eq, hbegin'.track_eq, starting_eq, Track.makes_append, Track.makes_append]
    exact hR.paired_handing mv (hR.paired_plain (fun c hc => (hzeroing c hc).1) h)
  loop _ _ := hR.loopCoupling
  rest ms := hR.paired_plain (by simp [Call.Plain])
  commit := by
    refine hR.paired_plain fun c hc => ?_
    rcases List.mem_append.1 hc with hc | hc
    · obtain ⟨n, a, g, -, -, -, rfl⟩ := mem_committing.1 hc
      trivial
    · rw [List.mem_singleton.1 hc]
      trivial
  abandon f := hR.paired_plain (by simp [Call.Plain, closing])

/-- A run of `home` beside that of a machine that is asked for more status reports: both end
with the same turn and the same result, or neither ends. -/
theorem home_reported (hR : ReportTwins R) (h : Same R x y) (budget : Nat) (m : MachineSettings α)
    (request : Request) :
    Option.Rel (fun e e' => e.1 = e'.1 ∧ Same R e.2.machine e'.2.machine ∧
      Reported x y e.2.calls e'.2.calls) (home budget m request x) (home budget m request y) := by
  refine rel_mono (home_coupled (hR.coupling m) request ⟨h, .nil, rfl, rfl⟩) ?_
  intro e e' hend
  cases hend with
  | between _ hend => exact ⟨rfl, hend.machines, hend.calls⟩
  | failed _ _ _ hend _ => exact ⟨rfl, hend.machines, hend.calls⟩

end ReportTwins

/-! ## Scripted machines -/

namespace Scripted

/-- The machine that is asked for a status report at these refills as well. -/
def addReports (ns : List Nat) (x : Scripted α) : Scripted α :=
  { x with script := { x.script with signals := x.script.signals ++ reports ns } }

/-- `y` is `x` with reports added, but for the signals that wait. -/
structure Twin (ns : List Nat) (x y : Scripted α) : Prop where
  eq : y = { x.addReports ns with pending := y.pending }
  pending : x.pending.Asks y.pending

theorem raisedAt_asks (k : Nat) (script : Script) (ns : List Nat) : (raisedAt k script).Asks
    (raisedAt k { script with signals := script.signals ++ reports ns }) := by
  have hraised := (Signals.Asks.refl ∅).foldl script.signals ns k
  unfold raisedAt
  dsimp only
  split
  · exact ⟨rfl, hraised.safetyDoor, hraised.cycleStop, hraised.statusReport⟩
  · exact hraised

theorem reportTwins (ns : List Nat) : ReportTwins (Twin (α := α) ns) where
  limits h := by rw [h.eq]; rfl
  steps h := by rw [h.eq]; rfl
  homeable h := by rw [h.eq]; rfl
  state h := by rw [h.eq]; rfl
  pending h := h.pending
  apply {x y} c h := by
    obtain ⟨heq, hpending⟩ := h
    generalize y.pending = p at heq hpending
    subst heq
    cases c with
    | refill => exact ⟨rfl, hpending.union (raisedAt_asks _ _ ns)⟩
    | acknowledge signals => exact ⟨rfl, hpending.sdiff signals⟩
    | dispatch => exact ⟨rfl, .refl ∅⟩
    | exitHoming axes success =>
        obtain ⟨⟨_, _, _, _, alarmOnExit, _⟩, _, _, _, _⟩ := x
        cases alarmOnExit <;> exact ⟨rfl, hpending⟩
    | _ => exact ⟨rfl, hpending⟩
  raises {x y} c hc h hpending := by
    obtain ⟨heq, -⟩ := h
    rw [heq]
    change x.pending = y.pending at hpending
    rw [← hpending]
    cases c with
    | refill => exact absurd rfl hc
    | exitHoming axes success =>
        obtain ⟨⟨_, _, _, _, alarmOnExit, _⟩, _, _, _, _⟩ := x
        cases alarmOnExit <;> rfl
    | _ => rfl
  serve {x y} h hstatus := by
    obtain ⟨heq, hpending⟩ := h
    generalize y.pending = p at heq hpending
    subst heq
    refine ⟨rfl, ?_⟩
    change x.pending.Asks (p \ .status)
    rw [← hpending.eq_sdiff_status hstatus]
    exact .refl x.pending
  served _ := rfl

end Scripted

end Homing
