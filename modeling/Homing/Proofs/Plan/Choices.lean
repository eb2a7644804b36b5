import Homing.Plan
import Homing.Proofs.Binary.Order

/-!
# The choices of a plan

Two quantities of a plan are chosen from a list by comparisons: the pull-off that the motors of an
axis share, and the axis that limits the fast approach. Each choice is described by what is chosen
and by what it is compared with, for every arithmetic whose comparisons are lawful. A pull-off that
is no number is passed over where there is another one, while a time that is no number would hide
the times before it, so the times are asked to be numbers.
-/

namespace Homing

variable {α : Type u} [Scalar α]

/-- A value is one of a list below which there is none, and a number if any of them is. -/
structure LeastNumber (xs : List α) (x : α) : Prop where
  mem : x ∈ xs
  least : ∀ y ∈ xs, Scalar.lt y x = false
  isNumber : ∀ y ∈ xs, Scalar.IsNumber y → Scalar.IsNumber x

/-- The time that the travel of a share takes at its own rate. -/
def Share.time (s : Share α) : α := s.travel / s.rate

/-- The longest time so far and the rate that goes with it, after one more share. -/
def Share.limit (best : α × α) (s : Share α) : α × α :=
  if Scalar.lt best.1 s.time then (s.time, s.rate) else best

theorem limitingRate_eq (ss : List (Share α)) :
    limitingRate ss = (ss.foldl Share.limit (0.0, 0.0)).2 := rfl

variable [LawfulComparisons α]

theorem leastNumber_singleton (x : α) : LeastNumber [x] x := by
  refine ⟨List.mem_cons_self, fun y hy => ?_, fun y hy hnumber => ?_⟩
  · rw [List.mem_singleton.1 hy]
    exact LawfulComparisons.lt_irrefl x
  · rwa [← List.mem_singleton.1 hy]

theorem LeastNumber.snoc {xs : List α} {x : α} (h : LeastNumber xs x) (y : α) :
    LeastNumber (xs ++ [y]) (Scalar.min x y) := by
  -- The old value stays when it is below the new one, or when the new one is no number.
  have hkeep (hy : Scalar.lt y x = false) (hnumber : Scalar.IsNumber y → Scalar.IsNumber x) :
      LeastNumber (xs ++ [y]) x := by
    refine ⟨List.mem_append_left _ h.mem, fun z hz => ?_, fun z hz => ?_⟩
    · rcases List.mem_append.1 hz with hz | hz
      · exact h.least z hz
      · rw [List.mem_singleton.1 hz]
        exact hy
    · rcases List.mem_append.1 hz with hz | hz
      · exact h.isNumber z hz
      · rw [List.mem_singleton.1 hz]
        exact hnumber
  unfold Scalar.min
  by_cases hlt : Scalar.lt x y = true
  · rw [hlt, Bool.true_or, if_pos rfl]
    exact hkeep (LawfulComparisons.lt_asymm hlt) fun _ => LawfulComparisons.isNumber_of_lt hlt
  · by_cases hnumber : Scalar.IsNumber y
    · have heq : Scalar.eq y y = true := hnumber
      rw [if_neg (by simp [hlt, heq])]
      refine ⟨List.mem_append_right _ List.mem_cons_self, fun z hz => ?_, fun _ _ _ => hnumber⟩
      rcases List.mem_append.1 hz with hz | hz
      · rw [← Bool.not_eq_true]
        intro hbelow
        have hx := h.isNumber z hz (LawfulComparisons.isNumber_of_lt hbelow)
        rcases LawfulComparisons.lt_or_lt hbelow hx with hzx | hxy
        · rw [h.least z hz] at hzx
          cases hzx
        · exact hlt hxy
      · rw [List.mem_singleton.1 hz]
        exact LawfulComparisons.lt_irrefl y
    · rw [if_pos (by simpa [Scalar.IsNumber] using Or.inr hnumber)]
      refine hkeep ?_ fun hy => absurd hy hnumber
      rw [← Bool.not_eq_true]
      exact fun hyx => hnumber (LawfulComparisons.isNumber_of_lt hyx)

/-- The pull-off that the motors of an axis share is a smallest one. -/
theorem AxisSettings.leastNumber_commonPulloff {a : AxisSettings α} (hne : a.motors ≠ []) :
    LeastNumber (a.motors.map (·.pulloff)) a.commonPulloff := by
  have key (xs ys : List α) (x : α) (h : LeastNumber xs x) :
      LeastNumber (xs ++ ys) (ys.foldl Scalar.min x) := by
    induction ys generalizing xs x with
    | nil => simpa using h
    | cons y ys ih => simpa using ih _ _ (h.snoc y)
  unfold AxisSettings.commonPulloff
  cases hmotors : a.motors with
  | nil => exact absurd hmotors hne
  | cons mo rest => exact key [mo.pulloff] _ _ (leastNumber_singleton _)

/-- The limiting rate is that of the first share that takes longest, or zero when none takes any
time. -/
theorem limitingRate_cases {ss : List (Share α)} (hnumbers : ∀ s ∈ ss, Scalar.IsNumber s.time) :
    (limitingRate ss = 0.0 ∧ ∀ s ∈ ss, Scalar.lt 0.0 s.time = false) ∨
    ∃ l s r, ss = l ++ s :: r ∧ limitingRate ss = s.rate ∧ Scalar.lt 0.0 s.time = true ∧
      (∀ t ∈ l, Scalar.lt t.time s.time = true) ∧ ∀ t ∈ r, Scalar.lt s.time t.time = false := by
  -- The fold holds the time of the share that it has chosen beside its rate.
  have key : (ss.foldl Share.limit (0.0, 0.0) = (0.0, 0.0) ∧
        ∀ s ∈ ss, Scalar.lt 0.0 s.time = false) ∨
      ∃ l s r, ss = l ++ s :: r ∧ ss.foldl Share.limit (0.0, 0.0) = (s.time, s.rate) ∧
        Scalar.lt 0.0 s.time = true ∧ (∀ t ∈ l, Scalar.lt t.time s.time = true) ∧
        ∀ t ∈ r, Scalar.lt s.time t.time = false := by
    induction ss using List.reverseRecOn with
    | nil => exact .inl ⟨rfl, nofun⟩
    | append_singleton ss u ih =>
        have hnumber (t : Share α) (ht : t ∈ ss) := hnumbers t (List.mem_append_left _ ht)
        rw [List.foldl_append, List.foldl_cons, List.foldl_nil]
        -- A share that is longer than the best so far is longer than all that are not above it.
        have hover {x : α} (hlt : Scalar.lt x u.time = true) (t : Share α) (ht : t ∈ ss)
            (hnot : Scalar.lt x t.time = false) : Scalar.lt t.time u.time = true := by
          refine (LawfulComparisons.lt_or_lt hlt (hnumber t ht)).resolve_left ?_
          rw [hnot]
          exact Bool.false_ne_true
        obtain ⟨hfold, hnone⟩ | ⟨l, s, r, rfl, hfold, hpos, hl, hr⟩ := ih hnumber
        · rw [hfold, Share.limit]
          by_cases hlt : Scalar.lt 0.0 u.time = true
          · exact .inr ⟨ss, u, [], rfl, if_pos hlt, hlt,
              fun t ht => hover hlt t ht (hnone t ht), nofun⟩
          · refine .inl ⟨if_neg hlt, fun t ht => ?_⟩
            rcases List.mem_append.1 ht with ht | ht
            · exact hnone t ht
            · rw [List.mem_singleton.1 ht]
              exact Bool.eq_false_iff.2 hlt
        · rw [hfold, Share.limit]
          right
          by_cases hlt : Scalar.lt s.time u.time = true
          · refine ⟨l ++ s :: r, u, [], rfl, if_pos hlt,
              LawfulComparisons.lt_trans hpos hlt, fun t ht => ?_, nofun⟩
            rcases List.mem_append.1 ht with ht | ht
            · exact LawfulComparisons.lt_trans (hl t ht) hlt
            rcases List.mem_cons.1 ht with rfl | ht
            · exact hlt
            · exact hover hlt t (List.mem_append_right _ (List.mem_cons_of_mem s ht)) (hr t ht)
          · refine ⟨l, s, r ++ [u], by simp, if_neg hlt, hpos, hl, fun t ht => ?_⟩
            rcases List.mem_append.1 ht with ht | ht
            · exact hr t ht
            · rw [List.mem_singleton.1 ht]
              exact Bool.eq_false_iff.2 hlt
  obtain ⟨hfold, hnone⟩ | ⟨l, s, r, hss, hfold, hpos, hl, hr⟩ := key
  · exact .inl ⟨by rw [limitingRate_eq, hfold], hnone⟩
  · exact .inr ⟨l, s, r, hss, by rw [limitingRate_eq, hfold], hpos, hl, hr⟩

end Homing
