import Homing.Plan

/-!
# The parts of a plan

An axis takes part in a phase when it homes and one of its motors does
(`TakesPart`). The shares of a phase are exactly those of the axes that take part,
one for each, so the fields of `planMove` can be read axis by axis: where an axis
goes, which motor of it stands still, and how long the phase settles.
-/

namespace Homing

variable {α : Type u} {m : MachineSettings α} {motors : MotorSet}

theorem MotorSet.exists_mem_of_ne_empty (hne : motors ≠ ∅) : ∃ id, id ∈ motors := by
  apply Classical.byContradiction
  intro hnone
  refine hne (MotorSet.ext fun id => ⟨fun hid => absurd ⟨id, hid⟩ hnone, fun hid => ?_⟩)
  exact absurd hid (MotorSet.not_mem_empty id)

theorem AxisSet.exists_mem_of_ne_empty {axes : AxisSet} (hne : axes ≠ ∅) : ∃ n, n ∈ axes := by
  apply Classical.byContradiction
  intro hnone
  refine hne (AxisSet.ext fun n => ⟨fun hn => absurd ⟨n, hn⟩ hnone, fun hn => ?_⟩)
  exact absurd hn (AxisSet.not_mem_empty n)

theorem AxisSet.ne_empty_of_mem {axes : AxisSet} {n : Nat} (hn : n ∈ axes) : axes ≠ ∅ := by
  rintro rfl
  exact AxisSet.not_mem_empty n hn

/-- An axis of a set of motors has a motor in it. -/
theorem MotorSet.mem_axes_iff_exists {n : Nat} : n ∈ motors.axes ↔ ∃ side, ⟨n, side⟩ ∈ motors := by
  rw [MotorSet.mem_axes]
  constructor
  · rintro (hid | hid)
    · exact ⟨.primary, hid⟩
    · exact ⟨.secondary, hid⟩
  · rintro ⟨side, hid⟩
    cases side with
    | primary => exact .inl hid
    | secondary => exact .inr hid

theorem MachineSettings.exists_of_mem_homingAxes {n : Nat} (hn : n ∈ m.homingAxes) :
    ∃ a h, m.axes[n]? = some a ∧ a.homing = some h := by
  obtain ⟨-, a, ha, hhoming⟩ := MachineSettings.mem_axesWhere.1 hn
  obtain ⟨h, hh⟩ := Option.isSome_iff_exists.1 hhoming
  exact ⟨a, h, ha, hh⟩

/-- The axis `n`, with the settings `a` and `h`, homes with one of the motors. -/
structure TakesPart (m : MachineSettings α) (motors : MotorSet) (n : Nat) (a : AxisSettings α)
    (h : HomingSettings α) : Prop where
  axis : m.axes[n]? = some a
  homing : a.homing = some h
  motor : n ∈ motors.axes

namespace TakesPart

variable {n : Nat} {a b : AxisSettings α} {h k : HomingSettings α}

theorem lt (hp : TakesPart m motors n a h) : n < maxAxes := AxisSet.lt_of_mem hp.motor

theorem unique (hp : TakesPart m motors n a h) (hq : TakesPart m motors n b k) :
    a = b ∧ h = k := by
  obtain rfl : a = b := Option.some.inj (hp.axis.symm.trans hq.axis)
  exact ⟨rfl, Option.some.inj (hp.homing.symm.trans hq.homing)⟩

end TakesPart

variable [Scalar α] {phase : Phase} {n : Nat} {a : AxisSettings α} {h : HomingSettings α}

theorem mem_shares {s : Share α} : s ∈ shares m motors phase ↔
    ∃ n a h, TakesPart m motors n a h ∧ s = Share.ofAxis phase n a h := by
  unfold shares
  rw [List.mem_filterMap]
  constructor
  · rintro ⟨⟨a, n⟩, hmem, hs⟩
    have haxis : m.axes[n]? = some a :=
      List.mk_mem_zipIdx_iff_getElem?.1 (List.mem_of_mem_take hmem)
    dsimp only at hs
    by_cases hn : n ∈ motors.axes
    · rw [if_pos hn, Option.map_eq_some_iff] at hs
      obtain ⟨h, hh, rfl⟩ := hs
      exact ⟨n, a, h, ⟨haxis, hh, hn⟩, rfl⟩
    · rw [if_neg hn] at hs
      cases hs
  · rintro ⟨n, a, h, hp, rfl⟩
    refine ⟨(a, n), ?_, by simp [hp.motor, hp.homing]⟩
    apply List.mem_of_getElem? (i := n)
    rw [List.getElem?_take_of_lt hp.lt, List.getElem?_zipIdx, hp.axis]
    simp

/-- The shares are listed by their axes, each of which has at most one. -/
theorem ascending_shares (m : MachineSettings α) (motors : MotorSet) (phase : Phase) :
    ((shares m motors phase).map (·.axis)).Pairwise (· < ·) := by
  have key (l : List (AxisSettings α × Nat)) :
      ((l.filterMap fun e => if e.2 ∈ motors.axes then
        e.1.homing.map (Share.ofAxis phase e.2 e.1) else none).map (·.axis)).Sublist
        (l.map (·.2)) := by
    induction l with
    | nil => exact .slnil
    | cons e l ih =>
        obtain ⟨a, n⟩ := e
        rw [List.filterMap_cons, List.map_cons]
        by_cases hn : n ∈ motors.axes
        · cases hh : a.homing with
          | none => simpa [hn, hh] using ih.cons n
          | some g => simpa [hn, hh, Share.ofAxis] using ih.cons_cons n
        · simpa [hn] using ih.cons n
  refine List.Pairwise.sublist (key _) ?_
  rw [List.map_take, List.zipIdx_map_snd]
  exact (List.pairwise_lt_range' 1).sublist (List.take_sublist _ _)

omit [Scalar α] in
/-- Two lists in ascending order of a key are equal when they have the same members. -/
theorem eq_of_ascending {β : Type w} (key : β → Nat) {xs ys : List β}
    (hx : (xs.map key).Pairwise (· < ·)) (hy : (ys.map key).Pairwise (· < ·))
    (hmem : ∀ x, x ∈ xs ↔ x ∈ ys) : xs = ys := by
  rw [List.pairwise_map] at hx hy
  have hnodup {l : List β} (hl : l.Pairwise fun x y => key x < key y) : l.Nodup :=
    hl.imp fun hlt heq => Nat.ne_of_lt hlt (congrArg key heq)
  refine List.Perm.eq_of_pairwise (fun x y _ _ hxy hyx => ?_) hx hy
    ((List.perm_ext_iff_of_nodup (hnodup hx) (hnodup hy)).2 hmem)
  exact absurd hxy (Nat.lt_asymm hyx)

theorem phasePlan_eq (m : MachineSettings α) (motors : MotorSet) : phasePlan m motors =
    .prePulloff :: .fastApproach :: .pulloff0 :: .slowApproach :: .pulloff1 ::
      if needsSquaring m motors then [.pulloff2] else [] := by
  unfold phasePlan
  split <;> rfl

/-- The share of an axis is found by its number. -/
theorem find?_shares (hp : TakesPart m motors n a h) :
    (shares m motors phase).find? (·.axis == n) = some (Share.ofAxis phase n a h) := by
  cases hfind : (shares m motors phase).find? (·.axis == n) with
  | none =>
      have hnone := List.find?_eq_none.1 hfind _ (mem_shares.2 ⟨n, a, h, hp, rfl⟩)
      exact absurd (beq_self_eq_true n) hnone
  | some s =>
      have haxis := List.find?_some hfind
      obtain ⟨k, b, g, hq, rfl⟩ := mem_shares.1 (List.mem_of_find?_eq_some hfind)
      obtain rfl : k = n := by simpa [Share.ofAxis] using haxis
      obtain ⟨rfl, rfl⟩ := hp.unique hq
      rfl

theorem find?_shares_eq_none (hn : ∀ a h, ¬ TakesPart m motors n a h) :
    (shares m motors phase).find? (·.axis == n) = none := by
  rw [List.find?_eq_none]
  intro s hs haxis
  obtain ⟨k, b, g, hq, rfl⟩ := mem_shares.1 hs
  obtain rfl : k = n := by simpa [Share.ofAxis] using haxis
  exact hn b g hq

theorem mem_axes_planMove :
    n ∈ (planMove m motors phase).axes ↔ ∃ a h, TakesPart m motors n a h := by
  rw [planMove, PlannedMove.ofShares, AxisSet.mem_ofList, List.mem_map]
  constructor
  · rintro ⟨⟨s, hs, haxis⟩, -⟩
    obtain ⟨k, a, h, hp, rfl⟩ := mem_shares.1 hs
    obtain rfl : k = n := haxis
    exact ⟨a, h, hp⟩
  · rintro ⟨a, h, hp⟩
    exact ⟨⟨_, mem_shares.2 ⟨n, a, h, hp, rfl⟩, rfl⟩, hp.lt⟩

theorem getElem?_perAxis (ss : List (Share α)) (value : Share α → α) (hn : n < maxAxes) :
    (perAxis ss value)[n]? = some (match ss.find? (·.axis == n) with
      | some s => value s
      | none => 0.0) := by
  rw [Vector.getElem?_eq_getElem hn]
  exact congrArg some (Vector.getElem_ofFn hn)

/-- An axis that takes part goes where its share says. -/
theorem target_planMove (hp : TakesPart m motors n a h) :
    (planMove m motors phase).target[n]? = some ((Share.ofAxis phase n a h).displacement phase
      (limitingRate (shares m motors phase))) := by
  rw [planMove, PlannedMove.ofShares, getElem?_perAxis _ _ hp.lt, find?_shares hp]

theorem rates_planMove (hp : TakesPart m motors n a h) :
    (planMove m motors phase).rates[n]? = some (h.rate phase) := by
  rw [planMove, PlannedMove.ofShares, getElem?_perAxis _ _ hp.lt, find?_shares hp]
  rfl

/-- The motors that a plan blocks are those of its shares. -/
theorem mem_blocked_planMove {id : Motor} :
    id ∈ (planMove m motors phase).overrides.blocked ↔
      id.axis < maxAxes ∧
        ∃ n a h, TakesPart m motors n a h ∧ Share.blockedOf phase n a = some id := by
  have key (ids : List Motor) (o : Overrides) : id ∈ (ids.foldl (fun o i => o.block i) o).blocked ↔
      id ∈ o.blocked ∨ (id ∈ ids ∧ id.axis < maxAxes) := by
    induction ids generalizing o with
    | nil => simp
    | cons i ids ih =>
        rw [List.foldl_cons, ih, Overrides.block, MotorSet.mem_insert, List.mem_cons]
        constructor
        · rintro ((hid | ⟨rfl, hlt⟩) | ⟨hid, hlt⟩)
          · exact .inl hid
          · exact .inr ⟨.inl rfl, hlt⟩
          · exact .inr ⟨.inr hid, hlt⟩
        · rintro (hid | ⟨rfl | hid, hlt⟩)
          · exact .inl (.inl hid)
          · exact .inl (.inr ⟨rfl, hlt⟩)
          · exact .inr ⟨hid, hlt⟩
  rw [planMove, PlannedMove.ofShares, key, List.mem_filterMap]
  constructor
  · rintro (hid | ⟨⟨s, hs, hb⟩, hlt⟩)
    · exact absurd hid (MotorSet.not_mem_empty id)
    · obtain ⟨n, a, h, hp, rfl⟩ := mem_shares.1 hs
      exact ⟨hlt, n, a, h, hp, hb⟩
  · rintro ⟨hlt, n, a, h, hp, hb⟩
    exact .inr ⟨⟨_, mem_shares.2 ⟨n, a, h, hp, rfl⟩, hb⟩, hlt⟩

theorem blocked_planMove (hphase : phase ≠ .pulloff2) :
    (planMove m motors phase).overrides.blocked = ∅ := by
  ext id
  rw [mem_blocked_planMove]
  constructor
  · rintro ⟨-, k, b, g, -, hb⟩
    cases phase with
    | pulloff2 => exact absurd rfl hphase
    | prePulloff | fastApproach | pulloff0 | slowApproach | pulloff1 => cases hb
  · exact fun hid => absurd hid (MotorSet.not_mem_empty id)

theorem axis_of_blockedOf {id : Motor} (hb : Share.blockedOf phase n a = some id) :
    id.axis = n := by
  unfold Share.blockedOf at hb
  cases phase with
  | prePulloff | fastApproach | pulloff0 | slowApproach | pulloff1 => cases hb
  | pulloff2 =>
      dsimp only at hb
      split at hb
      · obtain rfl := Option.some.inj hb
        rfl
      · split at hb
        · obtain rfl := Option.some.inj hb
          rfl
        · cases hb

theorem mem_blocked_pulloff2 (hp : TakesPart m motors n a h) (side : Side) :
    ⟨n, side⟩ ∈ (planMove m motors .pulloff2).overrides.blocked ↔
      Share.blockedOf .pulloff2 n a = some ⟨n, side⟩ := by
  rw [mem_blocked_planMove]
  constructor
  · rintro ⟨-, k, b, g, hq, hb⟩
    obtain rfl : n = k := axis_of_blockedOf hb
    obtain ⟨rfl, rfl⟩ := hp.unique hq
    exact hb
  · exact fun hb => ⟨hp.lt, n, a, h, hp, hb⟩

/-- A time is the longest settle time of the axes that take part, or zero when
there is none. -/
structure LongestSettle (m : MachineSettings α) (motors : MotorSet) (ms : Nat) : Prop where
  le : ∀ n a h, TakesPart m motors n a h → h.settle ≤ ms
  attained : ms = 0 ∨ ∃ n a h, TakesPart m motors n a h ∧ h.settle = ms

theorem longestSettle_planMove : LongestSettle m motors (planMove m motors phase).settle := by
  have key (ss : List (Share α)) (k : Nat) :
      k ≤ ss.foldl (fun longest s => max longest s.settle) k ∧
      (∀ s ∈ ss, s.settle ≤ ss.foldl (fun longest s => max longest s.settle) k) ∧
      (ss.foldl (fun longest s => max longest s.settle) k = k ∨
        ∃ s ∈ ss, s.settle = ss.foldl (fun longest s => max longest s.settle) k) := by
    induction ss generalizing k with
    | nil => simp
    | cons s ss ih =>
        obtain ⟨hle, hall, hex⟩ := ih (max k s.settle)
        rw [List.foldl_cons]
        refine ⟨by omega, ?_, ?_⟩
        · intro t ht
          rcases List.mem_cons.1 ht with rfl | ht
          · omega
          · exact hall t ht
        · rcases hex with heq | ⟨t, ht, heq⟩
          · rcases Nat.le_total k s.settle with hks | hks
            · exact .inr ⟨s, List.mem_cons_self, by omega⟩
            · exact .inl (by omega)
          · exact .inr ⟨t, List.mem_cons_of_mem s ht, heq⟩
  obtain ⟨-, hall, hex⟩ := key (shares m motors phase) 0
  refine ⟨fun n a h hp => hall _ (mem_shares.2 ⟨n, a, h, hp, rfl⟩), ?_⟩
  rcases hex with heq | ⟨s, hs, heq⟩
  · exact .inl heq
  · obtain ⟨n, a, h, hp, rfl⟩ := mem_shares.1 hs
    exact .inr ⟨n, a, h, hp, heq⟩

end Homing
