import Homing.Proofs.Engine.StaleStop
import Homing.Proofs.Exact.Scalar
import Homing.Proofs.Simulator.Views
import Homing.Settings.Fault

/-!
# A stop that waits in a simulator

A move that runs to its end leaves the end of the motion waiting in a simulator, and neither handing
over a move nor starting it clears the signal. So homing may begin with it (`withStop`). As long as
no call acknowledges it, it stays beside all that the simulator does (`addsStop_withStop`), and what
it does to a request is that of any machine: nothing, or it is taken for the end of the first move.
-/

namespace Homing

variable {α : Type u}

namespace Simulator

/-- The simulator in which the end of a motion waits. -/
def withStop (x : Simulator α) : Simulator α := { x with pending := x.pending ∪ .stop }

/-- Signals are raised in any order. -/
theorem union_stop_union (p q : Signals) : p ∪ .stop ∪ q = p ∪ q ∪ .stop := by
  simp [Signals.union_def, Signals.union, Signals.stop]

theorem union_stop_sdiff {p q : Signals} (hq : q.cycleStop = false) :
    (p ∪ .stop) \ q = (p \ q) ∪ .stop := by
  simp [Signals.union_def, Signals.union, Signals.sdiff_def, Signals.diff, Signals.stop, hq]

theorem sdiff_stop_of_union (p : Signals) : (p ∪ .stop) \ .stop = p \ .stop := by
  simp [Signals.union_def, Signals.union, Signals.sdiff_def, Signals.diff, Signals.stop]

theorem raiseScheduled_withStop (i : Nat) (x : Simulator α) :
    x.withStop.raiseScheduled i = x.raiseScheduled i ∪ .stop := by
  have key (es : List (Nat × Signals)) (p : Signals) :
      es.foldl (fun all e => all ∪ e.2) (p ∪ .stop) =
        es.foldl (fun all e => all ∪ e.2) p ∪ .stop := by
    induction es generalizing p with
    | nil => rfl
    | cons e es ih => rw [List.foldl_cons, List.foldl_cons, union_stop_union, ih]
  exact key _ x.pending

variable [Scalar α]

theorem tick_withStop (mv : ActiveMove α) (x : Simulator α) :
    (x.withStop.tick mv).1 = (x.tick mv).1.withStop := by
  have hframe : (x.withStop.tick mv).1 =
      { (x.tick mv).1 with pending := (x.withStop.tick mv).1.pending } := by
    unfold tick
    dsimp only [withStop]
    split <;> rfl
  have hraised : x.withStop.raised mv = x.raised mv ∪ .stop := by
    unfold raised
    split
    · exact raiseScheduled_withStop mv.index x
    · rfl
  have htickMs : x.withStop.tickMs = x.tickMs := rfl
  have hstepped : x.withStop.stepped mv = x.stepped mv := rfl
  have hpending : (x.withStop.tick mv).1.pending = (x.tick mv).1.pending ∪ .stop := by
    rw [pending_tick, pending_tick, hraised, htickMs, hstepped]
    split
    · exact union_stop_union _ _
    · rfl
  rw [hframe, hpending]
  rfl

theorem addsStop_withStop : AddsStop (withStop : Simulator α → Simulator α) where
  limits _ := rfl
  steps _ := rfl
  homeable _ := rfl
  state _ := rfl
  pending _ := rfl
  apply c x hc := by
    cases c with
    | refill =>
        show x.withStop.refill.1 = x.refill.1.withStop
        unfold refill
        have hrunning : x.withStop.running = x.running := rfl
        have hactive : x.withStop.active = x.active := rfl
        rw [hrunning, hactive]
        cases x.running with
        | false => rfl
        | true =>
            cases x.active with
            | none => rfl
            | some mv => exact tick_withStop mv x
    | acknowledge signals =>
        show { x.withStop with pending := (x.pending ∪ .stop) \ signals } = _
        rw [union_stop_sdiff hc]
        rfl
    | dispatch => exact hc.elim
    | _ => rfl
  acknowledge x := by
    show { x.withStop with pending := (x.pending ∪ .stop) \ .stop } = _
    rw [sdiff_stop_of_union]
    rfl
  dispatch _ := rfl

/-- A stop that waits when homing begins makes no difference to the result, to the positions and
step counters of the axes, or to what is called, unless the first turn after the first move would
see nothing that ends its loop. In that case the engine takes the stop for the end of this move,
and an approach fails. -/
theorem home_withStop (m : MachineSettings α) (request : Request) (x : Simulator α) :
    (∀ n, Option.Rel (fun e e' => e'.1 = e.1 ∧ e'.2.machine.axes = e.2.machine.axes ∧
        e'.2.calls = e.2.calls) (home n m request x) (home n m request x.withStop)) ∨
      ∃ pre mv, TakenForEnd withStop m request x pre mv := by
  refine (home_addsStop addsStop_withStop m request x).imp_left fun h n => ?_
  refine rel_mono (h n) fun e e' hagrees => ⟨hagrees.result, ?_⟩
  cases hagrees.abreast with
  | waits h => exact ⟨by rw [h.machine]; rfl, h.calls⟩
  | same h => exact ⟨by rw [h.machine], h.calls⟩

/-- An axis two millimetres from its switch. -/
def nearAxis : MachineSettings ℚ where
  logLevel := .info
  axes :=
    [{ name := "X", maxTravel := 100, stepsPerMm := 80, homing := some HomingSettings.default,
       motors := [.default] }]

/-- The axis after a move of its own, whose end nobody has asked for. -/
def movedAxis : Simulator ℚ :=
  let move : Move ℚ :=
    { target := #v[-1, 0, 0, 0, 0, 0], feedRate := 50, flags := .homing, approach := false,
      overrides := ⟨∅⟩ }
  Machine.after [.submit move, .start, .refill, .refill, .refill, .refill]
    (((ofSettings nearAxis).withTickMs 300).withSwitchDistance 0 2)

/-- The end of that move decides the fast approach, which would find its switch. -/
theorem not_agrees_movedAxis :
    nearAxis.validate = .ok () ∧ movedAxis.active = none ∧ movedAxis.pending = .stop ∧
      (home 60 nearAxis (.axes (.single 0)) (Machine.after [.acknowledge .stop] movedAxis)).map
        (fun e => (e.1, e.2.machine.motorPosition? ⟨0, .primary⟩)) = some (.ok (), some 1) ∧
      (home 60 nearAxis (.axes (.single 0)) movedAxis).map
        (fun e => (e.1, e.2.machine.motorPosition? ⟨0, .primary⟩)) =
          some (.error (.failed .approach), some 0) := by
  refine ⟨MachineSettings.validate_eq_ok_iff.2 (by decide +kernel), by decide +kernel,
    by decide +kernel, ?_, ?_⟩
  · decide +kernel
  · decide +kernel

end Simulator

end Homing
