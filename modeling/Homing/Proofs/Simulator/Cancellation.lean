import Homing.Proofs.Engine.Starts
import Homing.Proofs.Simulator.Record
import Homing.Proofs.Simulator.Requests

/-!
# Cancelling a request at a move

Signals that are scheduled for a move are raised by the first refill that ticks it, and
nothing but that tick reads the schedule. So a simulator with signals scheduled for a
later move shows the same as one without them until that move is handed over, and the
request takes the same way there (`alikeAlong_withSignalAt`). The first turn of the loop
of the move then sees the signals (`flag_seen_handed`), even if the move ends in its first
tick, and a reset or an open door ends the loop before anything else is looked at.

The index of a move in the schedule counts every move that the simulator was ever handed,
so move `k` of a request has the index `s.totals.moves.length + k`.
-/

namespace Homing

variable {α : Type u} [Scalar α]

namespace Simulator

variable {s x : Simulator α} {index : Nat} {signals : Signals} {cs : List (Call α)}

/-! ## A schedule for a later move -/

/-- The move in progress is one of those that the simulator lists. -/
def ActiveListed (s : Simulator α) : Prop :=
  ∀ mv, s.active = some mv → mv.index < s.totals.moves.length

theorem ActiveListed.apply (hs : ActiveListed s) (c : Call α) : ActiveListed (apply c s).1 := by
  intro mv hmv
  have hmoves := (record_apply c s).1
  rw [hmoves, List.length_append]
  cases c with
  | submit move =>
      obtain rfl := Option.some.inj hmv
      exact Nat.lt_succ_self _
  | refill =>
      rcases apply_refill_cases s with h | ⟨mv', hactive, h⟩
      · rw [h] at hmv
        exact hs mv hmv
      · rw [h] at hmv
        rcases tick_cases (s := s) mv' with ⟨-, hnone, -⟩ | ⟨-, -, hsome⟩
        · rw [hnone] at hmv
          cases hmv
        · rw [hsome] at hmv
          obtain rfl := Option.some.inj hmv
          exact hs mv' hactive
  | enterHoming axes =>
      obtain ⟨mv', hactive, rfl⟩ := Option.map_eq_some_iff.1 hmv
      exact hs mv' hactive
  | halt => cases hmv
  | resetMotion => cases hmv
  | _ => exact hs mv hmv

omit [Scalar α] in
theorem raiseScheduled_withSignalAt {i : Nat} (hi : i ≠ index) :
    (s.withSignalAt index signals).raiseScheduled i = s.raiseScheduled i := by
  have hfilter : (s.withSignalAt index signals).scheduled.filter (·.1 == i) =
      s.scheduled.filter (·.1 == i) := by
    show (s.scheduled ++ [(index, signals)]).filter (·.1 == i) = _
    rw [List.filter_append]
    simp [Ne.symm hi]
  unfold raiseScheduled
  rw [hfilter]
  rfl

theorem tick_withSignalAt {mv : ActiveMove α} (hmv : mv.index ≠ index) :
    ((s.withSignalAt index signals).tick mv).1 = (s.tick mv).1.withSignalAt index signals := by
  have htickMs : (s.withSignalAt index signals).tickMs = s.tickMs := rfl
  unfold tick
  rw [raiseScheduled_withSignalAt hmv, htickMs]
  dsimp only
  split <;> rfl

/-- A call does the same with the schedule and without it, unless it ticks the move that the
signals are scheduled for. -/
theorem apply_withSignalAt (hactive : ∀ mv, s.active = some mv → mv.index ≠ index) (c : Call α) :
    (apply c (s.withSignalAt index signals)).1 = (apply c s).1.withSignalAt index signals := by
  cases c with
  | refill =>
      have hrefill (s : Simulator α) : (apply .refill s).1 = s.refill.1 := rfl
      rw [hrefill, hrefill]
      unfold refill
      have hrunning : (s.withSignalAt index signals).running = s.running := rfl
      have hmove : (s.withSignalAt index signals).active = s.active := rfl
      rw [hrunning, hmove]
      cases s.running with
      | false => rfl
      | true =>
          cases hmv : s.active with
          | none => rfl
          | some mv => exact tick_withSignalAt (hactive mv hmv)
  | _ => rfl

/-- Signals that are scheduled for a move wait until it is handed over. -/
theorem after_withSignalAt (hs : ActiveListed s)
    (hindex : s.totals.moves.length + (submissions cs).length ≤ index) :
    Machine.after cs (s.withSignalAt index signals) =
      (Machine.after cs s).withSignalAt index signals := by
  induction cs generalizing s with
  | nil => rfl
  | cons c cs ih =>
      have hle : s.totals.moves.length ≤ index := by omega
      have hactive : ∀ mv, s.active = some mv → mv.index ≠ index := by
        intro mv hmv
        have := hs mv hmv
        omega
      have hsubmissions : submissions (c :: cs) = submissions [c] ++ submissions cs := by
        rw [← submissions_append]
        rfl
      rw [hsubmissions, List.length_append] at hindex
      have happly : (Machine.apply c (s.withSignalAt index signals)).1 =
          (Machine.apply c s).1.withSignalAt index signals := apply_withSignalAt hactive c
      rw [Machine.after_cons, Machine.after_cons, happly]
      refine ih (hs.apply c) ?_
      have hmoves : (Machine.apply c s).1.totals.moves = s.totals.moves ++ submissions [c] :=
        (record_apply c s).1
      rw [hmoves, List.length_append]
      omega

theorem alike_withSignalAt (s : Simulator α) (index : Nat) (signals : Signals) :
    Alike s (s.withSignalAt index signals) :=
  ⟨rfl, rfl, rfl, rfl, rfl⟩

/-- Nothing shows of signals that are scheduled for a later move. -/
theorem alikeAlong_withSignalAt (hs : ActiveListed s)
    (hindex : s.totals.moves.length + (submissions cs).length ≤ index) :
    AlikeAlong cs s (s.withSignalAt index signals) := by
  rintro pre ⟨rest, rfl⟩
  rw [submissions_append, List.length_append] at hindex
  rw [after_withSignalAt hs (by omega)]
  exact alike_withSignalAt _ index signals

/-! ## The first tick of a move -/

theorem refill_of_running {mv : ActiveMove α} (hrunning : s.running = true)
    (hactive : s.active = some mv) : (apply .refill s).1 = (s.tick mv).1 := by
  show s.refill.1 = _
  unfold refill
  rw [hrunning, hactive]

theorem refill_of_stopped (hrunning : s.running = false) : (apply .refill s).1 = s := by
  show s.refill.1 = s
  unfold refill
  rw [hrunning]

section

variable {flag : Signals → Bool} (hunion : ∀ a b, flag (a ∪ b) = (flag a || flag b))
include hunion

omit [Scalar α] in
theorem flag_raiseScheduled (s : Simulator α) (i : Nat) : flag (s.raiseScheduled i) =
    (flag s.pending || (s.scheduled.filter (·.1 == i)).any fun e => flag e.2) := by
  unfold raiseScheduled
  generalize s.scheduled.filter (·.1 == i) = es
  generalize s.pending = p
  induction es generalizing p with
  | nil => simp
  | cons e es ih => rw [List.foldl_cons, ih, hunion, List.any_cons, ← Bool.or_assoc]

variable (hstop : flag .stop = false)
include hstop

/-- The end of a move adds no signal but that of the end of a motion. -/
theorem flag_tick (mv : ActiveMove α) : flag (s.tick mv).1.pending = flag (s.raised mv) := by
  rw [pending_tick]
  split
  · rw [hunion, hstop, Bool.or_false]
  · rfl

/-- A refill that is not the first one of a move raises no signal from outside. -/
theorem flag_refill (hticks : ∀ mv, s.active = some mv → mv.ticks ≠ 0) :
    flag (apply .refill s).1.pending = flag s.pending := by
  rcases apply_refill_cases s with h | ⟨mv, hactive, h⟩
  · rw [h]
  · have hlater : ¬ mv.ticks + 1 = 1 := fun he => hticks mv hactive (Nat.succ.inj he)
    rw [h, flag_tick hunion hstop, raised, if_neg hlater]

/-- The first turn of a loop sees the signals that are scheduled for its move, also where the
step generator was running before the move was handed over. -/
theorem flag_seen_handed (s : Simulator α) (mv : Move α) :
    flag (seen (Machine.after (handing mv) s)) = (flag s.pending ||
      (s.scheduled.filter (·.1 == s.totals.moves.length)).any fun e => flag e.2) := by
  obtain ⟨tk, hactive, hindex, hticks⟩ : ∃ tk, (s.submit mv).1.active = some tk ∧
      tk.index = s.totals.moves.length ∧ tk.ticks = 0 := ⟨_, rfl, rfl, rfl⟩
  have hraised (z : Simulator α) (hpending : z.pending = s.pending)
      (hscheduled : z.scheduled = s.scheduled) : flag (z.tick tk).1.pending = (flag s.pending ||
        (s.scheduled.filter (·.1 == s.totals.moves.length)).any fun e => flag e.2) := by
    rw [flag_tick hunion hstop, raised, hticks, if_pos rfl, flag_raiseScheduled hunion, hpending,
      hscheduled, hindex]
  have hseen : seen (Machine.after (handing mv) s) =
      (apply .refill (apply .start (apply .refill (s.submit mv).1).1).1).1.pending := rfl
  rw [hseen]
  cases hrunning : s.running with
  | false =>
      -- The refill before the start finds the generator stopped, so the one after it ticks first.
      have hstopped : (apply .refill (s.submit mv).1).1 = (s.submit mv).1 :=
        refill_of_stopped hrunning
      have hstarted : (apply .start (s.submit mv).1).1.running = true :=
        congrArg Option.isSome hactive
      rw [hstopped, refill_of_running hstarted hactive]
      exact hraised (apply .start (s.submit mv).1).1 rfl rfl
  | true =>
      rw [refill_of_running (s := (s.submit mv).1) hrunning hactive, flag_refill hunion hstop]
      · exact hraised (s.submit mv).1 rfl rfl
      · intro mv' hmv'
        rcases tick_cases (s := (s.submit mv).1) tk with ⟨-, hnone, -⟩ | ⟨-, -, hsome⟩
        · have hactive' : ((s.submit mv).1.tick tk).1.active = some mv' := hmv'
          rw [hnone] at hactive'
          cases hactive'
        · have hactive' : ((s.submit mv).1.tick tk).1.active = some mv' := hmv'
          rw [hsome] at hactive'
          obtain rfl := Option.some.inj hactive'
          exact Nat.succ_ne_zero _

end

/-! ## Cancelled requests -/

/-- The signals `signals` end a request of `x` with `f` when they are scheduled for the move of
an index: a reset in any case, and an open door where no reset comes before it. -/
inductive Cancels (x : Simulator α) (index : Nat) (signals : Signals) : Failure → Prop
  | reset (hreset : signals.reset = true) : Cancels x index signals .reset
  | door (hdoor : signals.safetyDoor = true) (hreset : signals.reset = false)
      (hpending : x.pending.reset = false)
      (hscheduled : ∀ e ∈ x.scheduled, e.1 = index → e.2.reset = false) :
      Cancels x index signals .door

/-- The session that a request leaves which was cancelled at the move `mv`: the cycles of `done`
are complete and that of `S` failed with `f`. -/
structure Cancelled (m : MachineSettings α) (x : Simulator α) (done : List AxisSet) (S : AxisSet)
    (pre : List (Call α)) (mv : Move α) (f : Failure) (t : Session (Simulator α) α) : Prop where
  /-- One turn follows the move, and the end of its cycle. -/
  calls : ∃ status, t.calls = pre ++ handing mv ++ service status ++ closing m S (.error f)
  moves : t.machine.totals.moves = x.totals.moves ++ submissions pre ++ [mv]
  entries : entries t.calls = done ++ [S]
  exits : t.machine.totals.exits = x.totals.exits ++ done.map (·, true) ++ [(S, false)]
  /-- The axes that are given their reference positions are those of `done`. -/
  commits : ∀ A, closing m A (.ok ()) <:+: t.calls ↔ A ∈ done
  resetAlarm : f = .reset → t.machine.alarm = some .homingFailReset
  doorAlarm : f = .door → t.machine.alarm = some .homingFailDoor
  state : t.machine.state = .alarm

variable {m : MachineSettings α} {request : Request} {k : Nat} {done : List AxisSet} {S : AxisSet}
  {pre : List (Call α)} {mv : Move α} {f : Failure}

theorem loopFails_of_reset {budget : Nat} {u : Session (Simulator α) α}
    (hreset : (seen u.machine).reset = true) :
    LoopFails (budget + 1) u .reset (service (seen u.machine).statusReport) := by
  intro motors
  have hends : TurnEnds u.approaching motors u.machine (.error .reset)
      (service (seen u.machine).statusReport) := .reset hreset
  obtain ⟨v, hturn, hmakes⟩ := turn_of_ends hends
  exact ⟨v, by rw [turns, hturn], hmakes⟩

theorem loopFails_of_door {budget : Nat} {u : Session (Simulator α) α}
    (hreset : (seen u.machine).reset = false) (hdoor : (seen u.machine).safetyDoor = true) :
    LoopFails (budget + 1) u .door (service (seen u.machine).statusReport) := by
  intro motors
  have hends : TurnEnds u.approaching motors u.machine (.error .door)
      (service (seen u.machine).statusReport) := .door hreset hdoor
  obtain ⟨v, hturn, hmakes⟩ := turn_of_ends hends
  exact ⟨v, by rw [turns, hturn], hmakes⟩

/-- Before a move either no signal waits or those that waited from the start. -/
theorem pending_of_lead (h : Lead m x done S pre) :
    (Machine.after pre x).pending = ∅ ∨ (Machine.after pre x).pending = x.pending := by
  cases h with
  | @intro ks S front ds es hrun hphases planned =>
      have henter := settled_enter S (Machine.after ds x)
      rw [Machine.after_append] at hphases
      have hsettled := (settled_numbered hrun).append (henter.append (settled_phases hphases))
      rw [List.append_assoc ds, Machine.after_append,
        pending_after (keepsSignals_zeroing planned maxAxes)]
      exact hsettled.imp id And.right

/-- The first turn of a move that signals are scheduled for fails, whatever motors it waits
for. -/
theorem loopFails_of_cancels (budget : Nat) {u : Session (Simulator α) α} {y : Simulator α}
    (hu : u.machine = Machine.after (handing mv) (y.withSignalAt index signals))
    (hindex : y.totals.moves.length = index) (hscheduled : y.scheduled = x.scheduled)
    (hpending : y.pending = ∅ ∨ y.pending = x.pending) (h : Cancels x index signals f) :
    ∃ status, LoopFails (budget + 1) u f (service status) := by
  have hsched : (y.withSignalAt index signals).scheduled = x.scheduled ++ [(index, signals)] := by
    rw [← hscheduled]
    rfl
  have hmoves : (y.withSignalAt index signals).totals.moves.length = index := hindex
  have hwaits : (y.withSignalAt index signals).pending = y.pending := rfl
  have hflag (flag : Signals → Bool) (hunion : ∀ a b, flag (a ∪ b) = (flag a || flag b))
      (hstop : flag .stop = false) : flag (seen u.machine) = (flag y.pending ||
        ((x.scheduled.filter (·.1 == index)).any (fun e => flag e.2) || flag signals)) := by
    rw [hu, flag_seen_handed hunion hstop, hsched, hmoves, hwaits, List.filter_append,
      List.any_append]
    simp
  have hreset := hflag (·.reset) (fun _ _ => rfl) rfl
  have hdoor := hflag (·.safetyDoor) (fun _ _ => rfl) rfl
  cases h with
  | reset hsignal =>
      exact ⟨_, loopFails_of_reset (by rw [hreset, hsignal, Bool.or_true, Bool.or_true])⟩
  | door hsignal hnone hstart hothers =>
      refine ⟨_, loopFails_of_door ?_ (by rw [hdoor, hsignal, Bool.or_true, Bool.or_true])⟩
      have hwaiting : y.pending.reset = false := by
        rcases hpending with hy | hy
        · rw [hy]
          rfl
        · rw [hy, hstart]
      have hfiltered : (x.scheduled.filter (·.1 == index)).any (fun e => e.2.reset) = false := by
        rw [List.any_eq_false]
        intro e he
        obtain ⟨hmem, heq⟩ := List.mem_filter.1 he
        rw [hothers e hmem (beq_iff_eq.1 heq)]
        exact Bool.false_ne_true
      rw [hreset, hwaiting, hfiltered, hnone]
      rfl

theorem Cancels.setState (h : Cancels x index signals f) (state : MachineState) :
    Cancels (apply (.setState state) x).1 index signals f := by
  cases h with
  | reset hreset => exact .reset hreset
  | door hdoor hreset hpending hscheduled => exact .door hdoor hreset hpending hscheduled

/-- A request that is cancelled at a move takes the same way there, and fails in the first turn
of its loop. -/
theorem runRequest_of_cancels {budget : Nat} {s w u : Session (Simulator α) α}
    (hlisted : ActiveListed s.machine) (hw : w.machine = s.machine.withSignalAt index signals)
    (hstart : RequestStart budget m request s done S u) (hmakes : s.Makes (pre ++ handing mv) u)
    (hindex : s.machine.totals.moves.length + (submissions pre).length = index)
    (hcancels : Cancels s.machine index signals f) :
    ∃ status t, runRequest (budget + 1) m request w = some (.error (.failed f), t) ∧
      w.Makes (pre ++ handing mv ++ service status ++ closing m S (.error f)) t := by
  -- The start is carried over to the machine with the schedule, and there its loop fails.
  obtain ⟨pre', mv', hlead, hmakes'⟩ := hstart.exists_lead
  obtain ⟨rfl, rfl⟩ := handing_inj (hmakes.calls_unique hmakes')
  have halike : AlikeAlong pre s.machine w.machine := by
    rw [hw]
    exact alikeAlong_withSignalAt hlisted (Nat.le_of_eq hindex)
  obtain ⟨u', hstart', hbegin⟩ := hstart.alike hmakes halike
  have hu : u'.machine =
      Machine.after (handing mv) ((Machine.after pre s.machine).withSignalAt index signals) := by
    rw [hbegin.machine, hw, Machine.after_append, after_withSignalAt hlisted (Nat.le_of_eq hindex)]
  have hmoves : (Machine.after pre s.machine).totals.moves.length = index := by
    rw [(record_after pre s.machine).1, List.length_append, hindex]
  obtain ⟨status, hfails⟩ := loopFails_of_cancels budget hu hmoves
    (fixed_after pre s.machine).2.1 (pending_of_lead hlead) hcancels
  obtain ⟨t, hrun, hclosed⟩ := (hstart'.mono (Nat.le_succ budget)).fails hfails
  refine ⟨status, t, hrun, ?_⟩
  rw [List.append_assoc _ (service status)]
  exact hbegin.trans hclosed

theorem cancelled_of_calls {y : Simulator α} {t : Session (Simulator α) α} {status : Bool}
    (htotals : y.totals = x.totals) (hentries : entries pre = done ++ [S])
    (hexits : exits pre = done.map (·, true))
    (hcommits : ∀ A ∈ done, closing m A (.ok ()) <:+: pre)
    (hcalls : t.calls = pre ++ handing mv ++ service status ++ closing m S (.error f))
    (hmachine : t.machine = Machine.after t.calls y) : Cancelled m x done S pre mv f t := by
  obtain ⟨hmoves, hleft⟩ := record_after t.calls y
  obtain ⟨hhanded, hhandedIn, hhandedOut⟩ := tally_handing mv
  obtain ⟨hserved, hservedIn, hservedOut⟩ := tally_service (α := α) status
  have hall : exits t.calls = done.map (·, true) ++ [(S, false)] := by
    rw [hcalls, exits_append, exits_append, exits_append, hexits, hhandedOut, hservedOut,
      exits_closing, List.append_nil, List.append_nil]
    rfl
  have halarm : t.machine.alarm = some f.alarm := by
    rw [hmachine, hcalls, Machine.after_append]
    rfl
  refine
    { calls := ⟨status, hcalls⟩
      moves := ?_
      entries := ?_
      exits := ?_
      commits := fun A => ⟨fun hcommit => ?_, fun hA => ?_⟩
      resetAlarm := fun hf => halarm.trans (congrArg some (Failure.alarm_eq_iff.2 (.inl ⟨hf, rfl⟩)))
      doorAlarm := fun hf =>
        halarm.trans (congrArg some (Failure.alarm_eq_iff.2 (.inr (.inl ⟨hf, rfl⟩))))
      state := ?_ }
  · rw [hmachine, hmoves, htotals, hcalls, submissions_append, submissions_append,
      submissions_append, hhanded, hserved, submissions_closing, List.append_nil,
      List.append_nil, List.append_assoc]
  · rw [hcalls, entries_append, entries_append, entries_append, hentries, hhandedIn, hservedIn,
      entries_closing, List.append_nil, List.append_nil, List.append_nil]
  · rw [hmachine, hleft, htotals, hall, List.append_assoc]
  · have hmem := mem_exits_of_closing_infix hcommit
    rw [hall] at hmem
    simpa using hmem
  · rw [hcalls, List.append_assoc, List.append_assoc]
    exact (hcommits A hA).trans (List.prefix_append _ _).isInfix
  · rw [hmachine, hcalls, Machine.after_append]
    rfl

/-- A reset that is scheduled for a move of `home`, or an open door where no reset comes before
it, ends the request in the first turn of the move. Up to the move the run is the one without
the schedule; the cycles before that of the move are complete, and no other one is. Each of the
two latches its own alarm. -/
theorem cancelled_of_home (hactive : x.active = none)
    (hcancels : Cancels x (x.totals.moves.length + k) signals f) :
    (∀ budget e t, home budget m request x = some (e, t) → k < (submissions t.calls).length →
      ∃ done S pre mv, HomeStarts m request x k done S pre mv) ∧
    ∀ done S pre mv, HomeStarts m request x k done S pre mv →
      (∀ budget e t, home budget m request x = some (e, t) → pre ++ handing mv <+: t.calls) ∧
      (∀ front, front <+: pre → Machine.after front
        (x.withSignalAt (x.totals.moves.length + k) signals) =
          (Machine.after front x).withSignalAt (x.totals.moves.length + k) signals) ∧
      ∃ budget t, home budget m request (x.withSignalAt (x.totals.moves.length + k) signals) =
        some (.error (.failed f), t) ∧ Cancelled m x done S pre mv f t := by
  have hlisted : ActiveListed x := by
    intro tk htk
    rw [hactive] at htk
    cases htk
  refine ⟨fun budget e t => exists_homeStarts_of_home, fun done S pre mv hstart => ?_⟩
  refine ⟨fun budget e t => hstart.isPrefix, ?_, ?_⟩
  · obtain ⟨-, -, -, -, hlength⟩ := hstart
    rintro front ⟨rest, rfl⟩
    rw [submissions_append, List.length_append] at hlength
    exact after_withSignalAt hlisted (by omega)
  obtain ⟨budget, u, hstart, hcalls, hlength⟩ := hstart
  obtain ⟨pre', mv', hlead, hmakes⟩ := hstart.exists_lead
  rw [begin_makes hmakes, ← List.cons_append] at hcalls
  obtain ⟨rfl, rfl⟩ := handing_inj hcalls.symm
  obtain ⟨status, t, hrun, hend⟩ := runRequest_of_cancels
    (w := (Session.begin (x.withSignalAt (x.totals.moves.length + k) signals)).call
      (.setState .homing)) (by rw [machine_begin]; exact hlisted.apply _)
    (by rw [machine_begin, machine_begin]; rfl) hstart hmakes
    (by rw [machine_begin]; exact congrArg _ hlength)
    (by rw [machine_begin]; exact hcancels.setState .homing)
  have hall := begin_makes hend
  have hmachine := hend.machine
  rw [machine_begin] at hmachine
  refine ⟨budget + 1, t, by rw [home, hrun]; rfl, cancelled_of_calls (y :=
    x.withSignalAt (x.totals.moves.length + k) signals) rfl hlead.tally.1 hlead.tally.2 ?_ hall ?_⟩
  · exact fun A hA => (hlead.closing_infix hA).trans (List.suffix_cons _ _).isInfix
  · rw [hall]
    exact hmachine

/-- The door is opened in the second move of the second of two cycles. -/
theorem cancelled_of_home_gantry :
    skewedGantry.active = none ∧
      Cancels skewedGantry (skewedGantry.totals.moves.length + 6) { safetyDoor := true } .door ∧
      ∃ done S pre mv, HomeStarts gantry .all skewedGantry 6 done S pre mv ∧
        ∃ budget t, home budget gantry .all (skewedGantry.withSignalAt
          (skewedGantry.totals.moves.length + 6) { safetyDoor := true }) =
            some (.error (.failed .door), t) ∧
          Cancelled gantry skewedGantry done S pre mv .door t ∧
          t.machine.alarm = some .homingFailDoor := by
  have hactive : skewedGantry.active = none := by decide +kernel
  have hcancels : Cancels skewedGantry (skewedGantry.totals.moves.length + 6)
      { safetyDoor := true } .door := .door rfl rfl (by decide +kernel) (by decide +kernel)
  have hrun : (home 20 gantry .all skewedGantry).map (fun e => (submissions e.2.calls).length) =
      some 9 := by decide +kernel
  obtain ⟨⟨e, t⟩, h, hlength⟩ := Option.map_eq_some_iff.1 hrun
  have hlt : 6 < (submissions t.calls).length := by
    rw [hlength]
    decide
  obtain ⟨done, S, pre, mv, hstart⟩ := (cancelled_of_home hactive hcancels).1 20 e t h hlt
  obtain ⟨-, -, budget, t, hhome, hcancelled⟩ :=
    (cancelled_of_home hactive hcancels).2 done S pre mv hstart
  exact ⟨hactive, hcancels, done, S, pre, mv, hstart, budget, t, hhome, hcancelled,
    hcancelled.doorAlarm rfl⟩

end Simulator

end Homing
