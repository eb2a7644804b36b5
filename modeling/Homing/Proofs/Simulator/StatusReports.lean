import Homing.Proofs.Engine.StatusReports
import Homing.Proofs.Simulator.Views

/-!
# Status reports and simulators

A simulator raises the signals that are scheduled for a move at the first tick of the move,
which is the refill before the loop of the phase. Requests for status reports among them are
served in the first turn, so a simulator with more of them scheduled ends up in the same
state, but for the schedule itself and the number of reports that it has sent.
-/

namespace Homing

variable {α : Type v}

namespace Simulator

/-- The simulator that is asked for a status report at the first tick of these moves as well. -/
def addReports (ns : List Nat) (x : Simulator α) : Simulator α :=
  ns.foldl (fun s n => s.withSignalAt n .status) x

theorem addReports_eq (ns : List Nat) (x : Simulator α) :
    x.addReports ns = { x with scheduled := x.scheduled ++ reports ns } := by
  unfold addReports
  induction ns generalizing x with
  | nil => rw [reports, List.map_nil, List.append_nil]; rfl
  | cons n ns ih =>
      rw [List.foldl_cons, ih, withSignalAt, List.append_assoc]
      rfl

/-- The simulator `x` with reports added to its schedule, with these signals waiting, and with
this number of reports sent. -/
def asked (ns : List Nat) (pending : Signals) (sent : Nat) (x : Simulator α) : Simulator α :=
  { x with
    scheduled := x.scheduled ++ reports ns
    pending
    totals := { x.totals with statusReports := sent } }

/-- `y` is `x` with reports added, but for the signals that wait and the number of reports
sent. -/
structure Twin (ns : List Nat) (x y : Simulator α) : Prop where
  eq : y = x.asked ns y.pending y.totals.statusReports
  pending : x.pending.Asks y.pending

variable {x y : Simulator α}

theorem raised_asks {p : Signals} (hpending : x.pending.Asks p) (ns : List Nat) (k : Nat)
    (mv : ActiveMove α) : (x.raised mv).Asks ((x.asked ns p k).raised mv) := by
  unfold raised
  split
  · exact hpending.foldl x.scheduled ns mv.index
  · exact hpending

variable [Scalar α] {ns : List Nat}

theorem Twin.tick (h : Twin ns x y) (mv : ActiveMove α) : Twin ns (x.tick mv).1 (y.tick mv).1 := by
  obtain ⟨heq, hpending⟩ := h
  generalize y.pending = p at heq hpending
  generalize y.totals.statusReports = k at heq
  subst heq
  refine ⟨?_, ?_⟩
  · unfold Simulator.tick
    dsimp only [asked]
    split <;> rfl
  · rw [pending_tick, pending_tick]
    have hlength : (x.asked ns p k).tickMs = x.tickMs := rfl
    have hstepped : (x.asked ns p k).stepped mv = x.stepped mv := rfl
    have hraised := raised_asks hpending ns k mv
    rw [hlength, hstepped]
    split
    · exact hraised.union (.refl .stop)
    · exact hraised

theorem Twin.refill (h : Twin ns x y) : Twin ns (apply .refill x).1 (apply .refill y).1 := by
  have hrunning : y.running = x.running := by rw [h.eq]; rfl
  have hactive : y.active = x.active := by rw [h.eq]; rfl
  have hrefill (s : Simulator α) : (apply .refill s).1 = s.refill.1 := rfl
  rw [hrefill, hrefill]
  unfold Simulator.refill
  rw [hrunning, hactive]
  cases x.running with
  | false => exact h
  | true =>
      cases x.active with
      | none => exact h
      | some mv => exact h.tick mv

theorem reportTwins (ns : List Nat) : ReportTwins (Twin (α := α) ns) where
  limits h := by rw [h.eq]; rfl
  steps h := by rw [h.eq]; rfl
  homeable h := by rw [h.eq]; rfl
  state h := by rw [h.eq]; rfl
  pending h := h.pending
  apply {x y} c h := by
    by_cases hc : c = .refill
    · rw [hc]
      exact h.refill
    obtain ⟨heq, hpending⟩ := h
    generalize y.pending = p at heq hpending
    generalize y.totals.statusReports = k at heq
    subst heq
    cases c with
    | refill => exact absurd rfl hc
    | acknowledge signals => exact ⟨rfl, hpending.sdiff signals⟩
    | dispatch => exact ⟨rfl, .refl ∅⟩
    | _ => exact ⟨rfl, hpending⟩
  raises {x y} c hc h hpending := by
    change x.pending = y.pending at hpending
    rw [h.eq, ← hpending]
    cases c with
    | refill => exact absurd rfl hc
    | _ => rfl
  serve {x y} h hstatus := by
    obtain ⟨heq, hpending⟩ := h
    generalize y.pending = p at heq hpending
    generalize y.totals.statusReports = k at heq
    subst heq
    refine ⟨rfl, ?_⟩
    change x.pending.Asks (p \ .status)
    rw [← hpending.eq_sdiff_status hstatus]
    exact .refl x.pending
  served _ := rfl

/-- Requests for status reports do not disturb homing. However many are added, at whatever
refills of a scripted machine or moves of a simulator, the result is the same, the machine that
is left differs in its schedule and in the number of reports that it sent, and the calls differ
in the reports that turns serve. -/
theorem home_addReports (budget : Nat) (m : MachineSettings α) (request : Request)
    (ns : List Nat) :
    (∀ x : Scripted α, Option.Rel (fun e e' => e.1 = e'.1 ∧
        e'.2.machine = e.2.machine.addReports ns ∧
        Reported x (x.addReports ns) e.2.calls e'.2.calls)
      (home budget m request x) (home budget m request (x.addReports ns))) ∧
    ∀ x : Simulator α, Option.Rel (fun e e' => e.1 = e'.1 ∧
        e'.2.machine = { e.2.machine.addReports ns with
          totals := { e.2.machine.totals with
            statusReports := e'.2.machine.totals.statusReports } } ∧
        Reported x (x.addReports ns) e.2.calls e'.2.calls)
      (home budget m request x) (home budget m request (x.addReports ns)) := by
  refine ⟨fun x => ?_, fun x => ?_⟩
  · have hsame : Same (Scripted.Twin ns) x (x.addReports ns) := ⟨⟨rfl, .refl _⟩, rfl⟩
    refine rel_mono ((Scripted.reportTwins ns).home_reported hsame budget m request) ?_
    rintro ⟨e, t⟩ ⟨_, u⟩ ⟨rfl, ⟨⟨heq, -⟩, hpending⟩, hcalls⟩
    refine ⟨rfl, ?_, hcalls⟩
    change t.machine.pending = u.machine.pending at hpending
    rw [← hpending] at heq
    exact heq
  · have hsame : Same (Twin ns) x (x.addReports ns) := by
      rw [addReports_eq]
      exact ⟨⟨rfl, .refl _⟩, rfl⟩
    refine rel_mono ((reportTwins ns).home_reported hsame budget m request) ?_
    rintro ⟨e, t⟩ ⟨_, u⟩ ⟨rfl, ⟨⟨heq, -⟩, hpending⟩, hcalls⟩
    refine ⟨rfl, ?_, hcalls⟩
    change t.machine.pending = u.machine.pending at hpending
    rw [← hpending] at heq
    rw [addReports_eq]
    exact heq

end Simulator

end Homing
