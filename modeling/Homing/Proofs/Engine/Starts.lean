import Homing.Proofs.Engine.Alike
import Homing.Proofs.Engine.Tally

/-!
# Where a request hands over a move

`RequestStart budget m request s done S u` says that the request, begun in the session `s`,
comes to hand over a move: the cycles of the axes `done` have ended well, the cycle of the
axes `S` has come to a phase that moves, and `u` is the session in which the loop of this
phase begins. Nothing is said about what follows, so a request need not end in order to
start a move.

A start is found for each move of a request that ends (`exists_start_of_runRequest`), and
every run of the request goes through it and its loop (`RequestStart.makes_front`). It is
carried over to a machine that shows the same up to the move (`RequestStart.alike`). And
where the loop fails from there, the whole request fails with it (`RequestStart.fails`).
-/

namespace Homing

variable {σ : Type u} {α : Type v} [Machine σ α] [Scalar α]

/-- A list of phases, begun in `s`, comes to the loop of one of them in `u`. -/
inductive PhasesStart (budget : Nat) (m : MachineSettings α) (motors : MotorSet) :
    List Phase → Session σ α → Session σ α → Prop
  /-- The first phase moves. -/
  | here {phase : Phase} {rest : List Phase} {s : Session σ α} (hmotors : motors ≠ ∅)
      (hon : phase = .prePulloff → (Machine.limits s.machine).active ∩ motors ≠ ∅) :
      PhasesStart budget m motors (phase :: rest) s
        ((s.note (.phaseBegins phase)).beginPhase m motors phase)
  /-- The first phase has ended well. -/
  | later {phase : Phase} {rest : List Phase} {s t u : Session σ α}
      (hphase : runPhase budget m motors phase (s.note (.phaseBegins phase)) = some (.ok (), t))
      (hrest : PhasesStart budget m motors rest t u) :
      PhasesStart budget m motors (phase :: rest) s u

/-- A cycle of axes that all home comes to the loop of one of its phases. -/
structure CycleStart (budget : Nat) (m : MachineSettings α) (axes : AxisSet) (s u : Session σ α) :
    Prop where
  nonempty : axes ≠ ∅
  phases : PhasesStart budget m (Machine.homeable s.machine axes)
    (phasePlan m (Machine.homeable s.machine axes)) (s.enterCycle m axes) u

/-- Numbered cycles come to the loop of a phase in the cycle of the axes `S`, after those of
the axes `done`. -/
inductive NumberedStart (budget : Nat) (m : MachineSettings α) :
    List Nat → Session σ α → List AxisSet → AxisSet → Session σ α → Prop
  | here {k : Nat} {ns : List Nat} {s u : Session σ α} (hstate : Machine.state s.machine ≠ .alarm)
      (hcycle : CycleStart budget m (m.axesInCycle k) (s.beginCycle m k) u) :
      NumberedStart budget m (k :: ns) s [] (m.axesInCycle k) u
  /-- The first number has no axis. -/
  | empty {k : Nat} {ns : List Nat} {s u : Session σ α} {done : List AxisSet} {S : AxisSet}
      (hstate : Machine.state s.machine ≠ .alarm) (hempty : m.axesInCycle k = ∅)
      (hrest : NumberedStart budget m ns s done S u) : NumberedStart budget m (k :: ns) s done S u
  /-- The cycle of the first number has ended well. -/
  | later {k : Nat} {ns : List Nat} {s t u : Session σ α} {done : List AxisSet} {S : AxisSet}
      (hstate : Machine.state s.machine ≠ .alarm) (hsome : m.axesInCycle k ≠ ∅)
      (hcycle : runCycle budget m (m.axesInCycle k) (s.beginCycle m k) = some (.ok (), t))
      (hrest : NumberedStart budget m ns t done S u) :
      NumberedStart budget m (k :: ns) s (m.axesInCycle k :: done) S u

/-- A request comes to the loop of a phase in the cycle of the axes `S`, after the cycles of
the axes `done`. -/
inductive RequestStart (budget : Nat) (m : MachineSettings α) :
    Request → Session σ α → List AxisSet → AxisSet → Session σ α → Prop
  | axes {axes : AxisSet} {s u : Session σ α} (hlimits : (Machine.limits s.machine).ambiguous = ∅)
      (hcycle : CycleStart budget m (axes ∩ m.homingAxes) s u) :
      RequestStart budget m (.axes axes) s [] (axes ∩ m.homingAxes) u
  | all {s u : Session σ α} {done : List AxisSet} {S : AxisSet}
      (hlimits : (Machine.limits s.machine).ambiguous = ∅)
      (hrun : NumberedStart budget m cycleNumbers s done S u) :
      RequestStart budget m .all s done S u

variable {budget : Nat} {m : MachineSettings α} {motors : MotorSet} {plan : List Phase}
  {axes S : AxisSet} {ns : List Nat} {done : List AxisSet} {request : Request}
  {s w t u : Session σ α} {pre : List (Call α)} {mv : Move α}

/-! ## What comes before the move -/

/-- The calls before the move of a start, from the machine `x` on: the cycles of `done`, then
the phases of the cycle of `S` that have ended, and the axes that the plan of the move zeroes. -/
inductive Lead (m : MachineSettings α) (x : σ) : List AxisSet → AxisSet → List (Call α) → Prop
  | intro {ks : List Nat} {S : AxisSet} {front : List Phase} {ds es : List (Call α)}
      (hrun : NumberedRun m ks x (.ok ()) ds)
      (hphases : PhasesRun m (Machine.homeable (Machine.after ds x) S) front
        (Machine.after (ds ++ [.enterHoming S]) x) (.ok ()) es) (planned : AxisSet) :
      Lead m x (ks.map m.axesInCycle) S (ds ++ [.enterHoming S] ++ es ++ zeroing planned maxAxes)

theorem Lead.cons {k : Nat} {x : σ} {cs : List (Call α)} (hstate : Machine.state x ≠ .alarm)
    (hcycle : CycleRun m (m.axesInCycle k) x (.ok ()) cs)
    (h : Lead m (Machine.after cs x) done S pre) :
    Lead m x (m.axesInCycle k :: done) S (cs ++ pre) := by
  cases h with
  | @intro ks _ front ds es hrun hphases planned =>
      rw [← Machine.after_append, ← Machine.after_append, ← List.append_assoc] at hphases
      have hlead := Lead.intro (.cons hstate hcycle hrun) hphases planned
      simpa only [List.map_cons, List.append_assoc] using hlead

/-- The cycles before a move have ended well, and the one of the move has not ended. -/
theorem Lead.tally {x : σ} (h : Lead m x done S pre) :
    entries pre = done ++ [S] ∧ exits pre = done.map (·, true) := by
  cases h with
  | @intro ks S front ds es hrun hphases planned =>
      obtain ⟨hentries, hexits⟩ := tally_of_inPhase (inPhase_of_phasesRun hphases)
      obtain ⟨hnone, hnone'⟩ := tally_zeroing (α := α) planned maxAxes
      have henter : entries ([.enterHoming S] : List (Call α)) = [S] ∧
        exits ([.enterHoming S] : List (Call α)) = [] := ⟨rfl, rfl⟩
      constructor
      · rw [entries_append, entries_append, entries_append, hrun.entries_eq, henter.1, hentries,
          hnone, List.append_nil, List.append_nil]
      · rw [exits_append, exits_append, exits_append, hrun.exits_of_ok, henter.2, hexits, hnone',
          List.append_nil, List.append_nil, List.append_nil, List.map_map]
        rfl

theorem Lead.closing_infix {x : σ} (h : Lead m x done S pre) (haxes : axes ∈ done) :
    closing m axes (.ok ()) <:+: pre := by
  cases h with
  | intro hrun _ planned =>
      obtain ⟨k, hk, rfl⟩ := List.mem_map.1 haxes
      rw [List.append_assoc, List.append_assoc]
      exact (hrun.closing_infix hk).trans (List.prefix_append _ _).isInfix

theorem PhasesStart.exists_front (h : PhasesStart budget m motors plan s u) :
    ∃ front es planned mv, PhasesRun m motors front s.machine (.ok ()) es ∧
      s.Makes (es ++ zeroing planned maxAxes ++ handing mv) u := by
  induction h with
  | @here phase rest s _ _ =>
      obtain ⟨mv, -, hbegin, -⟩ :=
        Session.beginPhase_spec m motors phase (s.note (.phaseBegins phase))
      exact ⟨[], [], (planMove m motors phase).axes, mv, .nil, hbegin.of_note⟩
  | @later phase rest s t u hphase _ ih =>
      obtain ⟨ds, hrun, hfirst⟩ := phaseRun_of_runPhase hphase
      obtain ⟨front, es, planned, mv, hfront, hmakes⟩ := ih
      rw [hfirst.machine] at hfront
      refine ⟨phase :: front, ds ++ es, planned, mv, .cons hrun hfront, ?_⟩
      simpa only [List.append_assoc] using hfirst.of_note.trans hmakes

theorem CycleStart.exists_lead (h : CycleStart budget m axes s u) :
    ∃ pre mv, Lead m s.machine [] axes pre ∧ s.Makes (pre ++ handing mv) u := by
  have henter := s.enterCycle_makes m axes
  obtain ⟨front, es, planned, mv, hfront, hmakes⟩ := h.phases.exists_front
  rw [henter.machine] at hfront
  have hlead := Lead.intro (.nil (x := s.machine)) hfront planned
  refine ⟨_, mv, hlead, ?_⟩
  simpa only [List.nil_append, List.append_assoc] using henter.trans hmakes

theorem NumberedStart.exists_lead (h : NumberedStart budget m ns s done S u) :
    ∃ pre mv, Lead m s.machine done S pre ∧ s.Makes (pre ++ handing mv) u := by
  induction h with
  | @here k ns s u _ hcycle =>
      obtain ⟨pre, mv, hlead, hmakes⟩ := hcycle.exists_lead
      exact ⟨pre, mv, hlead, hmakes.of_note⟩
  | empty _ _ _ ih => exact ih
  | later hstate hsome hcycle _ ih =>
      obtain ⟨cs, hrun, hfirst⟩ := cycleRun_of_axesInCycle hsome hcycle
      obtain ⟨pre, mv, hlead, hmakes⟩ := ih
      rw [hfirst.machine] at hlead
      refine ⟨cs ++ pre, mv, .cons hstate hrun hlead, ?_⟩
      rw [List.append_assoc]
      exact hfirst.of_note.trans hmakes

theorem RequestStart.exists_lead (h : RequestStart budget m request s done S u) :
    ∃ pre mv, Lead m s.machine done S pre ∧ s.Makes (pre ++ handing mv) u := by
  cases h with
  | axes _ hcycle => exact hcycle.exists_lead
  | all _ hrun => exact hrun.exists_lead

omit [Scalar α] [Machine σ α] in
theorem handing_inj {pre' : List (Call α)} {mv' : Move α}
    (h : pre ++ handing mv = pre' ++ handing mv') : pre = pre' ∧ mv = mv' := by
  obtain ⟨hpre, hhanding⟩ := List.append_inj' h rfl
  obtain ⟨hsubmit, -⟩ := List.cons.inj hhanding
  exact ⟨hpre, Call.submit.inj hsubmit⟩

omit [Scalar α] in
/-- The calls up to a move come apart where a session between them is known. -/
theorem split_handing {cs ds : List (Call α)} {mv' : Move α} (h : s.Makes (pre ++ handing mv) u)
    (hfirst : s.Makes cs t) (hlast : t.Makes (ds ++ handing mv') u) :
    pre = cs ++ ds ∧ mv = mv' := by
  have hsplit := h.calls_unique (hfirst.trans hlast)
  rw [← List.append_assoc] at hsplit
  exact handing_inj hsplit

/-! ## The same start on another machine -/

theorem PhasesStart.alike (h : PhasesStart budget m motors plan s u)
    (hmakes : s.Makes (pre ++ handing mv) u) (ha : AlikeAlong pre s.machine w.machine) :
    ∃ u', PhasesStart budget m motors plan w u' ∧ w.Makes (pre ++ handing mv) u' := by
  induction h generalizing w pre with
  | @here phase rest s hmotors hon =>
      obtain ⟨mv', -, hbegin, -⟩ :=
        Session.beginPhase_spec m motors phase (s.note (.phaseBegins phase))
      rw [starting_eq] at hbegin
      obtain ⟨rfl, rfl⟩ := handing_inj (hmakes.calls_unique hbegin.of_note)
      have hbegin' : (w.note (.phaseBegins phase)).Makes _ _ :=
        Session.beginPhase_alike hbegin ha.counters
      rw [ha.first.limits] at hon
      exact ⟨_, .here hmotors hon, hbegin'.of_note⟩
  | @later phase rest s t u hphase hrest ih =>
      obtain ⟨ds, -, hfirst⟩ := phaseRun_of_runPhase hphase
      obtain ⟨-, es, planned, mv', -, hlast⟩ := hrest.exists_front
      obtain ⟨rfl, rfl⟩ := split_handing hmakes hfirst.of_note hlast
      obtain ⟨t', hphase', hfirst'⟩ :=
        runPhase_alike (w := w.note (.phaseBegins phase)) hphase hfirst ha.left
      have halike := ha.right
      rw [← hfirst.of_note.machine, ← hfirst'.of_note.machine] at halike
      obtain ⟨u', hrest', hlast'⟩ := ih hlast halike
      refine ⟨u', .later hphase' hrest', ?_⟩
      rw [List.append_assoc]
      exact hfirst'.of_note.trans hlast'

theorem CycleStart.alike (h : CycleStart budget m axes s u)
    (hmakes : s.Makes (pre ++ handing mv) u) (ha : AlikeAlong pre s.machine w.machine) :
    ∃ u', CycleStart budget m axes w u' ∧ w.Makes (pre ++ handing mv) u' := by
  have henter (s : Session σ α) := s.enterCycle_makes m axes
  obtain ⟨-, es, planned, mv', -, hphases⟩ := h.phases.exists_front
  obtain ⟨rfl, rfl⟩ := split_handing hmakes (henter s) hphases
  have halike := ha.right
  rw [← (henter s).machine, ← (henter w).machine] at halike
  obtain ⟨u', hphases', hmakes'⟩ := h.phases.alike hphases halike
  rw [ha.first.homeable] at hphases'
  exact ⟨u', ⟨h.nonempty, hphases'⟩, by rw [List.append_assoc]; exact (henter w).trans hmakes'⟩

theorem NumberedStart.alike (h : NumberedStart budget m ns s done S u)
    (hmakes : s.Makes (pre ++ handing mv) u) (ha : AlikeAlong pre s.machine w.machine) :
    ∃ u', NumberedStart budget m ns w done S u' ∧ w.Makes (pre ++ handing mv) u' := by
  induction h generalizing w pre with
  | @here k ns s u hstate hcycle =>
      obtain ⟨pre', mv', -, hbegin⟩ := hcycle.exists_lead
      obtain ⟨rfl, rfl⟩ := handing_inj (hmakes.calls_unique hbegin.of_note)
      obtain ⟨u', hcycle', hbegin'⟩ :=
        hcycle.alike (w := w.beginCycle m k) hbegin ha
      rw [ha.first.state] at hstate
      exact ⟨u', .here hstate hcycle', hbegin'.of_note⟩
  | empty hstate hempty _ ih =>
      obtain ⟨u', hrest', hmakes'⟩ := ih hmakes ha
      rw [ha.first.state] at hstate
      exact ⟨u', .empty hstate hempty hrest', hmakes'⟩
  | @later k ns s t u done S hstate hsome hcycle hrest ih =>
      obtain ⟨cs, -, hfirst⟩ := cycleRun_of_axesInCycle hsome hcycle
      obtain ⟨pre', mv', -, hlast⟩ := hrest.exists_lead
      obtain ⟨rfl, rfl⟩ := split_handing hmakes hfirst.of_note hlast
      obtain ⟨t', hcycle', hfirst'⟩ :=
        runCycle_alike (w := w.beginCycle m k) hcycle hfirst ha.left
      have halike := ha.right
      rw [← hfirst.of_note.machine, ← hfirst'.of_note.machine] at halike
      obtain ⟨u', hrest', hlast'⟩ := ih hlast halike
      rw [ha.first.state] at hstate
      refine ⟨u', .later hstate hsome hcycle' hrest', ?_⟩
      rw [List.append_assoc]
      exact hfirst'.of_note.trans hlast'

theorem RequestStart.alike (h : RequestStart budget m request s done S u)
    (hmakes : s.Makes (pre ++ handing mv) u) (ha : AlikeAlong pre s.machine w.machine) :
    ∃ u', RequestStart budget m request w done S u' ∧ w.Makes (pre ++ handing mv) u' := by
  cases h with
  | axes hlimits hcycle =>
      obtain ⟨u', hcycle', hmakes'⟩ := hcycle.alike hmakes ha
      rw [ha.first.limits] at hlimits
      exact ⟨u', .axes hlimits hcycle', hmakes'⟩
  | all hlimits hrun =>
      obtain ⟨u', hrun', hmakes'⟩ := hrun.alike hmakes ha
      rw [ha.first.limits] at hlimits
      exact ⟨u', .all hlimits hrun', hmakes'⟩

/-! ## A start whose loop fails -/

/-- The loop that begins in `u` fails with the calls `es`, whatever motors it waits for. -/
def LoopFails (budget : Nat) (u : Session σ α) (f : Failure) (es : List (Call α)) : Prop :=
  ∀ motors, ∃ v, turns budget motors u = some (.error f, v) ∧ u.Makes es v

variable {f : Failure} {es : List (Call α)}

theorem PhasesStart.fails (h : PhasesStart budget m motors plan s u)
    (hu : LoopFails budget u f es) :
    ∃ t, runPhases budget m motors plan s = some (.error f, t) ∧ u.Makes es t := by
  induction h with
  | @here phase rest s hmotors hon =>
      obtain ⟨v, hturns, hmakes⟩ := hu motors
      refine ⟨v.setApproaching false, ?_, hmakes.snoc_setApproaching false⟩
      rw [runPhases_cons, runPhase_eq_map (s := s.note (.phaseBegins phase)) hmotors hon, hturns]
      rfl
  | @later phase rest s t u hphase _ ih =>
      obtain ⟨v, hrest, hmakes⟩ := ih hu
      exact ⟨v, by rw [runPhases_cons, hphase]; exact hrest, hmakes⟩

theorem CycleStart.fails (h : CycleStart budget m axes s u) (haxes : S ∩ m.homingAxes = axes)
    (hu : LoopFails budget u f es) :
    ∃ t, runCycle budget m S s = some (.error f, t) ∧
      u.Makes (es ++ closing m axes (.error f)) t := by
  subst haxes
  obtain ⟨v, hphases, hmakes⟩ := h.phases.fails hu
  refine ⟨_, ?_, hmakes.trans (v.close_makes m _ (.error f))⟩
  rw [runCycle_eq_map h.nonempty, hphases]
  rfl

theorem NumberedStart.fails {found : Bool} (h : NumberedStart budget m ns s done S u)
    (hu : LoopFails budget u f es) :
    ∃ t, runNumbered budget m found ns s = some (.error (.failed f), t) ∧
      u.Makes (es ++ closing m S (.error f)) t := by
  induction h generalizing found with
  | @here k ns s u hstate hcycle =>
      obtain ⟨t, hrun, hmakes⟩ := hcycle.fails (axesInCycle_inter_homingAxes m k) hu
      exact ⟨t, by rw [runNumbered_cons hstate hcycle.nonempty, hrun]; rfl, hmakes⟩
  | empty hstate hempty _ ih =>
      obtain ⟨t, hrun, hmakes⟩ := @ih found hu
      exact ⟨t, by rw [runNumbered_of_empty hstate hempty, hrun], hmakes⟩
  | later hstate hsome hcycle _ ih =>
      obtain ⟨t, hrun, hmakes⟩ := @ih true hu
      exact ⟨t, by rw [runNumbered_cons hstate hsome, hcycle]; exact hrun, hmakes⟩

/-- Where the loop of a move fails, the request fails, and the cycle of the move with it. -/
theorem RequestStart.fails (h : RequestStart budget m request s done S u)
    (hu : LoopFails budget u f es) :
    ∃ t, runRequest budget m request s = some (.error (.failed f), t) ∧
      u.Makes (es ++ closing m S (.error f)) t := by
  cases h with
  | axes hlimits hcycle =>
      obtain ⟨t, hrun, hmakes⟩ := hcycle.fails rfl hu
      exact ⟨t, by rw [runRequest_axes hlimits, hrun]; rfl, hmakes⟩
  | all hlimits hrun =>
      obtain ⟨t, hrun', hmakes⟩ := hrun.fails hu
      exact ⟨t, by rw [runRequest_all hlimits, hrun'], hmakes⟩

/-! ## Starts with more turns -/

theorem runCycle_mono {n k : Nat} (hnk : n ≤ k) {e : Except Failure Unit × Session σ α}
    (h : runCycle n m axes s = some e) : runCycle k m axes s = some e := by
  by_cases hsome : axes ∩ m.homingAxes = ∅
  · unfold runCycle at h ⊢
    dsimp only at h ⊢
    rw [if_pos (AxisSet.isEmpty_iff.2 hsome)] at h ⊢
    exact h
  · rw [runCycle_eq_map hsome] at h ⊢
    obtain ⟨e', hphases, hend⟩ := Option.map_eq_some_iff.1 h
    rw [runPhases_mono hnk hphases, ← hend]
    rfl

theorem PhasesStart.mono {n k : Nat} (hnk : n ≤ k) (h : PhasesStart n m motors plan s u) :
    PhasesStart k m motors plan s u := by
  induction h with
  | here hmotors hon => exact .here hmotors hon
  | later hphase _ ih => exact .later (runPhase_mono hnk hphase) ih

theorem NumberedStart.mono {n k : Nat} (hnk : n ≤ k) (h : NumberedStart n m ns s done S u) :
    NumberedStart k m ns s done S u := by
  induction h with
  | here hstate hcycle => exact .here hstate ⟨hcycle.nonempty, hcycle.phases.mono hnk⟩
  | empty hstate hempty _ ih => exact .empty hstate hempty ih
  | later hstate hsome hcycle _ ih => exact .later hstate hsome (runCycle_mono hnk hcycle) ih

theorem RequestStart.mono {n k : Nat} (hnk : n ≤ k) (h : RequestStart n m request s done S u) :
    RequestStart k m request s done S u := by
  cases h with
  | axes hlimits hcycle => exact .axes hlimits ⟨hcycle.nonempty, hcycle.phases.mono hnk⟩
  | all hlimits hrun => exact .all hlimits (hrun.mono hnk)

/-! ## Starts and runs that end -/

/-- Two budgets that suffice give the same answer, where more turns keep an answer. -/
theorem answer_unique {β : Type w} (run : Nat → Option β)
    (hmono : ∀ {n k : Nat}, n ≤ k → ∀ {e}, run n = some e → run k = some e) {n k : Nat} {d e : β}
    (hd : run n = some d) (he : run k = some e) : d = e := by
  have hboth := hmono (Nat.le_max_left n k) hd
  rw [hmono (Nat.le_max_right n k) he] at hboth
  exact (Option.some.inj hboth).symm

variable {budget' : Nat} {r : Except Failure Unit} {e : Except HomingError Unit}
  {cs : List (Call α)}

/-- Every loop that begins in `u` makes the calls `front` first, whatever motors it waits for. -/
def LoopBegins (u : Session σ α) (front : List (Call α)) : Prop :=
  ∀ n motors r v, turns n motors u = some (r, v) → ∃ es, u.Makes (front ++ es) v

omit [Scalar α] in
theorem LoopBegins.nil (u : Session σ α) : LoopBegins u [] := by
  intro n motors r v hturns
  obtain ⟨es, -, hloop⟩ := loopRun_of_turns hturns
  exact ⟨es, hloop⟩

variable {front : List (Call α)}

/-- A run of phases goes through each of its starts. -/
theorem PhasesStart.makes_front (h : PhasesStart budget m motors plan s u)
    (hfront : LoopBegins u front) (hrun : runPhases budget' m motors plan s = some (r, t)) :
    ∃ rest, u.Makes (front ++ rest) t := by
  induction h with
  | @here phase plan s hmotors hon =>
      rw [runPhases_cons, runPhase_eq_map (s := s.note (.phaseBegins phase)) hmotors hon] at hrun
      obtain ⟨⟨r', v⟩, hphase, hrun⟩ := Option.bind_eq_some_iff.1 hrun
      obtain ⟨⟨r'', w⟩, hturns, hend⟩ := Option.map_eq_some_iff.1 hphase
      obtain ⟨rfl, rfl⟩ := Prod.mk.inj hend
      obtain ⟨es, hloop⟩ := hfront budget' motors r'' w hturns
      have hsettled := hloop.trans (w.settle_makes phase (planMove m motors phase).settle r'')
      rw [List.append_assoc] at hsettled
      cases r'' with
      | error f =>
          obtain ⟨-, rfl⟩ := Prod.mk.inj (Option.some.inj hrun)
          exact ⟨_, hsettled⟩
      | ok _ =>
          obtain ⟨ds, -, hrest⟩ := phasesRun_of_runPhases hrun
          have hall := hsettled.trans hrest
          rw [List.append_assoc] at hall
          exact ⟨_, hall⟩
  | @later phase plan s v u hphase _ ih =>
      rw [runPhases_cons] at hrun
      obtain ⟨e, hphase', hrun⟩ := Option.bind_eq_some_iff.1 hrun
      obtain rfl := answer_unique (fun n => runPhase n m motors phase _)
        (fun hnk _ => runPhase_mono hnk) hphase hphase'
      exact ih hfront hrun

theorem CycleStart.makes_front (h : CycleStart budget m axes s u) (haxes : S ∩ m.homingAxes = axes)
    (hfront : LoopBegins u front) (hrun : runCycle budget' m S s = some (r, t)) :
    ∃ rest, u.Makes (front ++ rest) t := by
  subst haxes
  rw [runCycle_eq_map h.nonempty] at hrun
  obtain ⟨⟨r', v⟩, hphases, hend⟩ := Option.map_eq_some_iff.1 hrun
  obtain ⟨-, rfl⟩ := Prod.mk.inj hend
  obtain ⟨rest, hrest⟩ := h.phases.makes_front hfront hphases
  have hclosed := hrest.trans (v.close_makes m (S ∩ m.homingAxes) r')
  rw [List.append_assoc] at hclosed
  exact ⟨_, hclosed⟩

theorem NumberedStart.makes_front {found : Bool} (h : NumberedStart budget m ns s done S u)
    (hfront : LoopBegins u front) (hrun : runNumbered budget' m found ns s = some (e, t)) :
    ∃ rest, u.Makes (front ++ rest) t := by
  induction h generalizing found with
  | @here k ns s u hstate hcycle =>
      rw [runNumbered_cons hstate hcycle.nonempty] at hrun
      obtain ⟨⟨r, v⟩, hcycle', hrun⟩ := Option.bind_eq_some_iff.1 hrun
      obtain ⟨rest, hrest⟩ :=
        hcycle.makes_front (axesInCycle_inter_homingAxes m k) hfront hcycle'
      cases r with
      | error f =>
          obtain ⟨-, rfl⟩ := Prod.mk.inj (Option.some.inj hrun)
          exact ⟨rest, hrest⟩
      | ok _ =>
          obtain ⟨_, _, cs, ds, -, -, -, hmakes⟩ := numberedRun_of_runNumbered hrun
          have hall := hrest.trans hmakes
          rw [List.append_assoc] at hall
          exact ⟨_, hall⟩
  | empty hstate hempty _ ih =>
      rw [runNumbered_of_empty hstate hempty] at hrun
      exact ih hfront hrun
  | @later k ns s v u done S hstate hsome hcycle _ ih =>
      rw [runNumbered_cons hstate hsome] at hrun
      obtain ⟨c, hcycle', hrun⟩ := Option.bind_eq_some_iff.1 hrun
      obtain rfl := answer_unique (fun n => runCycle n m (m.axesInCycle k) _)
        (fun hnk _ => runCycle_mono hnk) hcycle hcycle'
      exact ih hfront hrun

/-- Every run of a request goes through each of its starts, and through the loop there. -/
theorem RequestStart.makes_front (h : RequestStart budget m request s done S u)
    (hfront : LoopBegins u front) (hrun : runRequest budget' m request s = some (e, t)) :
    ∃ rest, u.Makes (front ++ rest) t := by
  cases h with
  | axes hlimits hcycle =>
      rw [runRequest_axes hlimits] at hrun
      obtain ⟨⟨r, v⟩, hcycle', hend⟩ := Option.map_eq_some_iff.1 hrun
      obtain ⟨-, rfl⟩ := Prod.mk.inj hend
      exact hcycle.makes_front rfl hfront hcycle'
  | all hlimits hstart =>
      rw [runRequest_all hlimits] at hrun
      exact hstart.makes_front hfront hrun

/-- Each move of phases that end has its start. -/
theorem exists_start_of_runPhases {k : Nat} (h : runPhases budget m motors plan s = some (r, t))
    (hmakes : s.Makes cs t) (hk : k < (submissions cs).length) :
    ∃ u pre mv, PhasesStart budget m motors plan s u ∧ s.Makes (pre ++ handing mv) u ∧
      (submissions pre).length = k := by
  induction plan generalizing s cs k with
  | nil =>
      obtain ⟨-, rfl⟩ : .ok () = r ∧ s = t := by simpa [runPhases] using h
      obtain rfl := hmakes.calls_unique (.refl s)
      cases hk
  | cons phase rest ih =>
      rw [runPhases_cons] at h
      obtain ⟨⟨r', v⟩, hphase, h⟩ := Option.bind_eq_some_iff.1 h
      obtain ⟨ds, hrun, hfirst⟩ := phaseRun_of_runPhase hphase
      -- A phase hands over one move at most, so the one asked for is its own or one of the rest.
      by_cases hnow : k < (submissions ds).length
      · obtain rfl | ⟨mv, hsubmit⟩ := hrun.submissions_eq
        · cases hnow
        · rw [hsubmit, List.length_singleton, Nat.lt_one_iff] at hnow
          subst hnow
          obtain ⟨mv', -, hbegin, -⟩ :=
            Session.beginPhase_spec m motors phase (s.note (.phaseBegins phase))
          rw [starting_eq] at hbegin
          cases hrun with
          | idle _ => cases hsubmit
          | skipped _ _ _ => cases hsubmit
          | moved hmotors hon _ _ =>
              exact ⟨_, _, mv', .here hmotors hon, hbegin.of_note, by simp⟩
      · cases r' with
        | error f =>
            obtain ⟨-, rfl⟩ := Prod.mk.inj (Option.some.inj h)
            obtain rfl := hmakes.calls_unique hfirst.of_note
            exact absurd hk hnow
        | ok _ =>
            obtain ⟨es, -, hrest⟩ := phasesRun_of_runPhases h
            obtain rfl := hmakes.calls_unique (hfirst.of_note.trans hrest)
            rw [submissions_append, List.length_append] at hk
            obtain ⟨u, pre, mv, hstart, hmoves, hlength⟩ :=
              ih (k := k - (submissions ds).length) h hrest (by omega)
            refine ⟨u, ds ++ pre, mv, .later hphase hstart, ?_, ?_⟩
            · rw [List.append_assoc]
              exact hfirst.of_note.trans hmoves
            · rw [submissions_append, List.length_append, hlength]
              omega

theorem exists_start_of_runCycle {k : Nat} (h : runCycle budget m axes s = some (r, t))
    (hmakes : s.Makes cs t) (hk : k < (submissions cs).length) :
    ∃ u pre mv, CycleStart budget m (axes ∩ m.homingAxes) s u ∧ s.Makes (pre ++ handing mv) u ∧
      (submissions pre).length = k := by
  obtain ⟨-, -, rfl⟩ | ⟨hsome, -⟩ := cycleRun_of_runCycle h
  · obtain rfl := hmakes.calls_unique (.refl t)
    cases hk
  rw [runCycle_eq_map hsome] at h
  obtain ⟨⟨r', v⟩, hphases, hend⟩ := Option.map_eq_some_iff.1 h
  obtain ⟨-, rfl⟩ := Prod.mk.inj hend
  have henter := s.enterCycle_makes m (axes ∩ m.homingAxes)
  obtain ⟨es, -, hmoves⟩ := phasesRun_of_runPhases hphases
  obtain rfl := hmakes.calls_unique ((henter.trans hmoves).trans (v.close_makes m _ r'))
  rw [submissions_append, submissions_append, submissions_closing, List.append_nil] at hk
  obtain ⟨u, pre, mv, hstart, hbegin, hlength⟩ := exists_start_of_runPhases hphases hmoves hk
  refine ⟨u, [.enterHoming (axes ∩ m.homingAxes)] ++ pre, mv, ⟨hsome, hstart⟩, ?_, hlength⟩
  rw [List.append_assoc]
  exact henter.trans hbegin

theorem exists_start_of_runNumbered {found : Bool} {k : Nat}
    (h : runNumbered budget m found ns s = some (e, t)) (hmakes : s.Makes cs t)
    (hk : k < (submissions cs).length) :
    ∃ done S u pre mv, NumberedStart budget m ns s done S u ∧ s.Makes (pre ++ handing mv) u ∧
      (submissions pre).length = k := by
  induction ns generalizing found s cs k with
  | nil =>
      cases found with
      | true =>
          obtain ⟨-, rfl⟩ : .ok () = e ∧ s = t := by simpa [runNumbered] using h
          obtain rfl := hmakes.calls_unique (.refl s)
          cases hk
      | false =>
          obtain ⟨-, rfl⟩ := Prod.mk.inj (Option.some.inj h)
          obtain rfl := hmakes.calls_unique ((Session.Makes.note _ s).snoc (.setState .alarm))
          cases hk
  | cons j ns ih =>
      by_cases hstate : Machine.state s.machine = .alarm
      · rw [runNumbered_of_alarm hstate] at h
        obtain ⟨-, rfl⟩ := Prod.mk.inj (Option.some.inj h)
        obtain rfl := hmakes.calls_unique (.refl s)
        cases hk
      by_cases hempty : m.axesInCycle j = ∅
      · rw [runNumbered_of_empty hstate hempty] at h
        obtain ⟨done, S, u, pre, mv, hstart, hmoves⟩ := ih h hmakes hk
        exact ⟨done, S, u, pre, mv, .empty hstate hempty hstart, hmoves⟩
      rw [runNumbered_cons hstate hempty] at h
      obtain ⟨⟨r, v⟩, hcycle, h⟩ := Option.bind_eq_some_iff.1 h
      obtain ⟨ds, -, hfirst⟩ := cycleRun_of_axesInCycle hempty hcycle
      by_cases hnow : k < (submissions ds).length
      · obtain ⟨u, pre, mv, hstart, hmoves, hlength⟩ :=
          exists_start_of_runCycle hcycle hfirst hnow
        rw [axesInCycle_inter_homingAxes] at hstart
        exact ⟨[], _, u, pre, mv, .here hstate hstart, hmoves.of_note, hlength⟩
      · cases r with
        | error f =>
            obtain ⟨-, rfl⟩ := Prod.mk.inj (Option.some.inj h)
            obtain rfl := hmakes.calls_unique hfirst.of_note
            exact absurd hk hnow
        | ok _ =>
            obtain ⟨_, _, es, es', -, -, -, hrest⟩ := numberedRun_of_runNumbered h
            obtain rfl := hmakes.calls_unique (hfirst.of_note.trans hrest)
            rw [submissions_append, List.length_append] at hk
            obtain ⟨done, S, u, pre, mv, hstart, hmoves, hlength⟩ :=
              ih (k := k - (submissions ds).length) h hrest (by omega)
            refine ⟨_, S, u, ds ++ pre, mv, .later hstate hempty hcycle hstart, ?_, ?_⟩
            · rw [List.append_assoc]
              exact hfirst.of_note.trans hmoves
            · rw [submissions_append, List.length_append, hlength]
              omega

/-- Each move of a request that ends has its start. -/
theorem exists_start_of_runRequest {k : Nat} (h : runRequest budget m request s = some (e, t))
    (hmakes : s.Makes cs t) (hk : k < (submissions cs).length) :
    ∃ done S u pre mv, RequestStart budget m request s done S u ∧
      s.Makes (pre ++ handing mv) u ∧ (submissions pre).length = k := by
  by_cases hlimits : (Machine.limits s.machine).ambiguous = ∅
  · cases request with
    | axes axes =>
        rw [runRequest_axes hlimits] at h
        obtain ⟨⟨r, v⟩, hcycle, hend⟩ := Option.map_eq_some_iff.1 h
        obtain ⟨-, rfl⟩ := Prod.mk.inj hend
        obtain ⟨u, pre, mv, hstart, hmoves⟩ := exists_start_of_runCycle hcycle hmakes hk
        exact ⟨[], _, u, pre, mv, .axes hlimits hstart, hmoves⟩
    | all =>
        rw [runRequest_all hlimits] at h
        obtain ⟨done, S, u, pre, mv, hstart, hmoves⟩ := exists_start_of_runNumbered h hmakes hk
        exact ⟨done, S, u, pre, mv, .all hlimits hstart, hmoves⟩
  · obtain ⟨ds, hrun, hmakes'⟩ := requestRun_of_runRequest h
    obtain rfl := hmakes.calls_unique hmakes'
    cases hrun with
    | ambiguous _ => cases hk
    | nothing hnone _ => exact absurd hnone hlimits
    | cycle hnone _ _ => exact absurd hnone hlimits
    | wildcard hnone _ _ _ => exact absurd hnone hlimits

/-! ## Homing as a whole -/

/-- `home` comes to hand over `mv` as its move number `k`, counted from zero. The calls `pre`
come before it: the cycles of the axes `done` have ended well, and the move is one of the cycle
of the axes `S`. -/
def HomeStarts (m : MachineSettings α) (request : Request) (x : σ) (k : Nat)
    (done : List AxisSet) (S : AxisSet) (pre : List (Call α)) (mv : Move α) : Prop :=
  ∃ budget u, RequestStart budget m request ((Session.begin x).call (.setState .homing)) done S u ∧
    u.calls = pre ++ handing mv ∧ (submissions pre).length = k

variable {k : Nat} {x : σ}

omit [Scalar α] in
theorem begin_makes (h : ((Session.begin x : Session σ α).call (.setState .homing)).Makes cs t) :
    t.calls = .setState .homing :: cs := by
  simpa using h.calls

/-- Each move that `home` hands over before it ends has its start. -/
theorem exists_homeStarts_of_home (h : home budget m request x = some (e, t))
    (hk : k < (submissions t.calls).length) :
    ∃ done S pre mv, HomeStarts m request x k done S pre mv := by
  obtain ⟨u, hrequest, hend⟩ := exists_runRequest_of_home h
  obtain ⟨cs, -, hmakes⟩ := requestRun_of_runRequest hrequest
  have hcalls := begin_makes (hmakes.trans hend)
  have hnone : submissions (concluding e : List (Call α)) = [] := by cases e <;> rfl
  have hlt : k < (submissions cs).length := by
    have hsplit : submissions t.calls = submissions cs ++ submissions (concluding e) := by
      rw [hcalls, ← submissions_append]
      rfl
    rwa [hsplit, hnone, List.append_nil] at hk
  obtain ⟨done, S, v, pre, mv, hstart, hmoves, hlength⟩ :=
    exists_start_of_runRequest hrequest hmakes hlt
  exact ⟨done, S, .setState .homing :: pre, mv, budget, v, hstart, begin_makes hmoves, hlength⟩

/-- Every run of `home` goes through each of its starts. -/
theorem HomeStarts.isPrefix (h : HomeStarts m request x k done S pre mv)
    (hrun : home budget m request x = some (e, t)) : pre ++ handing mv <+: t.calls := by
  obtain ⟨budget', u, hstart, hcalls, -⟩ := h
  obtain ⟨v, hrequest, hend⟩ := exists_runRequest_of_home hrun
  obtain ⟨rest, hrest⟩ := hstart.makes_front (.nil u) hrequest
  rw [← hcalls, (hrest.trans hend).calls]
  exact List.prefix_append _ _

end Homing
