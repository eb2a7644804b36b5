import Homing.CommandLine.Program
import Homing.Proofs.Engine.Tally

/-!
# The axes that a request has homed

The program works out from the settings and the request which axes were homed, while the
engine passes over axes and cycles as it goes. The two agree on every request that ends
well (`HomedRun.homedAxes_eq`): the axes are those that left homing mode as homed. Each
of them left it once, and just before that it was given the step count of its reference
position (`RequestRun.committedBy`).
-/

namespace Homing

open CommandLine

theorem AxisSet.mem_foldl_union {n : Nat} {ss : List AxisSet} {s : AxisSet} :
    n ∈ ss.foldl (· ∪ ·) s ↔ n ∈ s ∨ ∃ t ∈ ss, n ∈ t := by
  induction ss generalizing s with
  | nil => simp
  | cons t ss ih =>
      rw [List.foldl_cons, ih, AxisSet.mem_union, or_assoc]
      simp only [List.mem_cons, exists_eq_or_imp]

variable {σ : Type u} {α : Type v}

/-- The axes that left homing mode as homed. -/
def homedIn (cs : List (Call α)) : AxisSet :=
  (((exits cs).filter (·.2)).map (·.1)).foldl (· ∪ ·) ∅

theorem mem_homedIn {cs : List (Call α)} {n : Nat} :
    n ∈ homedIn cs ↔ ∃ S, (S, true) ∈ exits cs ∧ n ∈ S := by
  simp [homedIn, AxisSet.mem_foldl_union]

/-- Axis `n` left homing mode once, with the axes `S` and as homed, and just before that it
was given `k` steps: only counters of other axes were set in between. -/
structure CommittedBy (cs : List (Call α)) (n : Nat) (S : AxisSet) (k : Int) : Prop where
  mem : n ∈ S
  once : (exits cs).filter (fun exit => n ∈ exit.1) = [(S, true)]
  last : ∃ front others back,
    cs = front ++ .setSteps n k :: (others ++ .exitHoming S true :: back) ∧
      ∀ c ∈ others, ∃ j ≠ n, ∃ steps, c = .setSteps j steps

/-- Calls around a run that take no axis out of homing mode change nothing about it. -/
theorem CommittedBy.append {cs pre post : List (Call α)} {n : Nat} {S : AxisSet}
    {k : Int} (h : CommittedBy cs n S k) (hpre : exits pre = []) (hpost : exits post = []) :
    CommittedBy (pre ++ cs ++ post) n S k := by
  obtain ⟨hmem, honce, front, others, back, rfl, hothers⟩ := h
  refine ⟨hmem, ?_, pre ++ front, others, back ++ post, by simp, hothers⟩
  rwa [exits_append, exits_append, hpre, hpost, List.nil_append, List.append_nil]

variable [Machine σ α] [Scalar α] {m : MachineSettings α} {request : Request} {x : σ}
  {cs : List (Call α)} {n : Nat}

/-- A request that ends well, from the machine before it. -/
inductive HomedRun (m : MachineSettings α) : Request → σ → List (Call α) → Prop
  | nothing {axes : AxisSet} {x : σ} (hnone : axes ∩ m.homingAxes = ∅) :
      HomedRun m (.axes axes) x []
  | cycle {axes : AxisSet} {x : σ} {cs : List (Call α)}
      (hcycle : CycleRun m (axes ∩ m.homingAxes) x (.ok ()) cs) : HomedRun m (.axes axes) x cs
  | wildcard {x : σ} {cs : List (Call α)} (hrun : NumberedRun m m.cycles x (.ok ()) cs) :
      HomedRun m .all x cs

theorem RequestRun.homedRun (h : RequestRun m request x (.ok ()) cs) : HomedRun m request x cs := by
  generalize he : Except.ok () = e at h
  cases h with
  | ambiguous _ => cases he
  | nothing _ hnone => exact .nothing hnone
  | @cycle _ _ r _ _ _ hcycle =>
      cases r with
      | error f => cases he
      | ok v => exact .cycle hcycle
  | wildcard _ _ hrun hend =>
      subst he
      cases hend with
      | homed hall _ =>
          rw [List.append_nil]
          exact .wildcard (hall ▸ hrun)

omit [Scalar α] in
/-- The axes of the numbered cycles are those that have a number. -/
theorem mem_homedAxes_all :
    n ∈ homedAxes m .all ↔ ∃ k ∈ m.cycles, n ∈ m.axesInCycle k := by
  rw [homedAxes, AxisSet.mem_foldl_union]
  simp only [AxisSet.not_mem_empty, false_or, List.mem_map, exists_exists_and_eq_and]
  constructor
  · rintro ⟨k, hk, hn⟩
    exact ⟨k, mem_withAxes_iff.2 ⟨hk, AxisSet.ne_empty_of_mem hn⟩, hn⟩
  · rintro ⟨k, hk, hn⟩
    exact ⟨k, (mem_withAxes_iff.1 hk).1, hn⟩

omit [Scalar α] in
theorem mem_homingAxes_of_homedAxes (hn : n ∈ homedAxes m request) : n ∈ m.homingAxes := by
  cases request with
  | axes axes => exact (AxisSet.mem_inter.1 hn).2
  | all =>
      obtain ⟨k, -, hn⟩ := mem_homedAxes_all.1 hn
      exact mem_homingAxes_of_cycle hn

/-- Each axis that is taken to be homed is in a cycle that ended well. -/
theorem HomedRun.exists_closing (h : HomedRun m request x cs) (hn : n ∈ homedAxes m request) :
    ∃ S, n ∈ S ∧ closing m S (.ok ()) <:+: cs := by
  cases h with
  | nothing hnone =>
      rw [homedAxes, hnone] at hn
      exact absurd hn (AxisSet.not_mem_empty n)
  | cycle hcycle =>
      cases hcycle with
      | intro _ => exact ⟨_, hn, (List.suffix_append _ _).isInfix⟩
  | wildcard hrun =>
      obtain ⟨k, hk, hn⟩ := mem_homedAxes_all.1 hn
      exact ⟨_, hn, hrun.closing_infix hk⟩

/-- The axes that are taken to be homed are those that left homing mode as homed. -/
theorem HomedRun.homedAxes_eq (h : HomedRun m request x cs) : homedAxes m request = homedIn cs := by
  ext n
  rw [mem_homedIn]
  constructor
  · intro hn
    obtain ⟨S, hS, hclosing⟩ := h.exists_closing hn
    exact ⟨S, mem_exits_of_closing_infix hclosing, hS⟩
  · rintro ⟨S, hexit, hn⟩
    cases h with
    | nothing _ => cases hexit
    | cycle hcycle =>
        rw [hcycle.exits_eq, List.mem_singleton] at hexit
        obtain ⟨rfl, -⟩ := Prod.mk.inj hexit
        exact hn
    | wildcard hrun =>
        rw [hrun.exits_of_ok] at hexit
        obtain ⟨k, hk, heq⟩ := List.mem_map.1 hexit
        obtain ⟨rfl, -⟩ := Prod.mk.inj heq
        exact mem_homedAxes_all.2 ⟨k, hk, hn⟩

/-- Each axis that is taken to be homed was given the step count of its reference position
by its own cycle. -/
theorem RequestRun.committedBy (h : RequestRun m request x (.ok ()) cs)
    (hn : n ∈ homedAxes m request) {a : AxisSettings α} {g : HomingSettings α}
    (ha : m.axes[n]? = some a) (hg : a.homing = some g) :
    ∃ S, CommittedBy cs n S (a.stepsAt g.reference) := by
  obtain ⟨S, hS, hclosing⟩ := h.homedRun.exists_closing hn
  have hexit := mem_exits_of_closing_infix hclosing
  refine ⟨S, hS, h.filter_exits hexit hS, ?_⟩
  obtain ⟨front, others, hcommit, hothers⟩ := exists_committing_eq hS ha hg
  obtain ⟨pre, post, rfl⟩ := hclosing
  refine ⟨pre ++ front, others, post, ?_, hothers⟩
  rw [closing, hcommit]
  simp

end Homing
