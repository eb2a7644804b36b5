import Homing.AxisSet

/-!
# Sets of motors

An axis is driven by one motor or by two, its primary and its secondary side.
`MotorSet` stores a set of motors in one 32-bit word: the primary motor of axis
`n` is bit `n`, the secondary one bit `n + 16`, so each side is one half of the
word. The field `lt_of_getLsbD` says that neither half has a bit at or above
`maxAxes`. As for axes, membership is the view, and `axesOn`, `axes` and
`squared` are the projection on one side, the union of the sides and their
intersection.
-/

namespace Homing

/-- The largest number of motors of one axis. -/
def maxMotorsPerAxis : Nat := 2

/-- The width of the half of a motor word that belongs to one side. -/
def sideBits : Nat := 16

/-- Which motor of an axis. An axis with one motor has only the primary one. -/
inductive Side where
  | primary
  | secondary
deriving DecidableEq, Repr

namespace Side

/-- Both sides, the primary one first. -/
def all : List Side := [primary, secondary]

/-- The position of the motor in its axis's list of motors. -/
def index : Side → Nat
  | primary => 0
  | secondary => 1

end Side

/-- One motor of the machine. -/
structure Motor where
  axis : Nat
  side : Side
deriving DecidableEq, Repr

/-- The bit of a motor in the word of a motor set. -/
def Motor.bit (m : Motor) : Nat := m.side.index * sideBits + m.axis

/-- A set of motors of axes below `maxAxes`. -/
structure MotorSet where
  /-- The primary side in the lower half, the secondary one in the upper. -/
  bits : BitVec 32
  lt_of_getLsbD : ∀ i, bits.getLsbD i = true → i % sideBits < maxAxes
deriving DecidableEq

namespace MotorSet

/-- The word in which the bit of every motor is set. -/
def mask : BitVec 32 := AxisSet.mask.setWidth 32 ||| AxisSet.mask.setWidth 32 <<< sideBits

@[simp] theorem getLsbD_mask (i : Nat) :
    mask.getLsbD i = decide (i < 2 * sideBits ∧ i % sideBits < maxAxes) := by
  rw [Bool.eq_iff_iff]
  simp only [mask, BitVec.getLsbD_or, BitVec.getLsbD_shiftLeft, BitVec.getLsbD_setWidth,
    AxisSet.getLsbD_mask, Bool.or_eq_true, Bool.and_eq_true, Bool.not_eq_true', decide_eq_true_eq,
    decide_eq_false_iff_not]
  simp only [sideBits, maxAxes]
  omega

instance : Membership Motor MotorSet where
  mem s m := m.axis < maxAxes ∧ s.bits.getLsbD m.bit = true

theorem mem_def {m : Motor} {s : MotorSet} :
    m ∈ s ↔ m.axis < maxAxes ∧ s.bits.getLsbD m.bit = true := Iff.rfl

instance (m : Motor) (s : MotorSet) : Decidable (m ∈ s) :=
  inferInstanceAs (Decidable (m.axis < maxAxes ∧ s.bits.getLsbD m.bit = true))

/-- A set bit is the bit of a motor of the set. -/
theorem exists_mem_of_getLsbD {s : MotorSet} {i : Nat} (h : s.bits.getLsbD i = true) :
    ∃ m, m.bit = i ∧ m ∈ s := by
  have hi : i % 16 < 6 := s.lt_of_getLsbD i h
  have hw : i < 32 := BitVec.lt_of_getLsbD h
  by_cases g : i < 16
  · exact ⟨⟨i, .primary⟩, by simp [Motor.bit, Side.index],
      ⟨show i < 6 by omega, by simpa [Motor.bit, Side.index] using h⟩⟩
  · have e : Motor.bit ⟨i - 16, .secondary⟩ = i := by
      simp only [Motor.bit, Side.index, sideBits]
      omega
    exact ⟨⟨i - 16, .secondary⟩, e, ⟨show i - 16 < 6 by omega, by rw [e]; exact h⟩⟩

@[ext] theorem ext {s t : MotorSet} (h : ∀ m, m ∈ s ↔ m ∈ t) : s = t := by
  have : s.bits = t.bits := BitVec.eq_of_getLsbD_eq fun i _ => Bool.eq_iff_iff.2 <| by
    constructor
    · intro hs
      obtain ⟨m, rfl, hm⟩ := exists_mem_of_getLsbD hs
      exact ((h m).1 hm).2
    · intro ht
      obtain ⟨m, rfl, hm⟩ := exists_mem_of_getLsbD ht
      exact ((h m).2 hm).2
  obtain ⟨a, ha⟩ := s
  obtain ⟨b, hb⟩ := t
  simp only at this
  subst this
  rfl

/-- The set with no motor. -/
def empty : MotorSet := ⟨0#32, by simp⟩

instance : EmptyCollection MotorSet := ⟨empty⟩
instance : Inhabited MotorSet := ⟨empty⟩

@[simp] theorem not_mem_empty (m : Motor) : ¬ m ∈ (∅ : MotorSet) := by
  simp [mem_def, EmptyCollection.emptyCollection, empty]

/-- The set that a word stands for. Bits that belong to no motor are dropped. -/
def ofBits (word : BitVec 32) : MotorSet :=
  ⟨word &&& mask, fun i h => by
    rw [BitVec.getLsbD_and, Bool.and_eq_true, getLsbD_mask, decide_eq_true_eq] at h
    exact h.2.2⟩

@[simp] theorem mem_ofBits {m : Motor} {word : BitVec 32} :
    m ∈ ofBits word ↔ m.axis < maxAxes ∧ word.getLsbD m.bit = true := by
  simp only [mem_def, ofBits, BitVec.getLsbD_and, getLsbD_mask, Bool.and_eq_true,
    decide_eq_true_eq, and_congr_right_iff, and_iff_left_iff_imp]
  intro h _
  obtain ⟨n, side⟩ := m
  simp only [maxAxes, sideBits, Motor.bit] at h ⊢
  cases side <;> simp only [Side.index] <;> omega

/-- The set with one motor, or no motor if it has no such axis. -/
def single (m : Motor) : MotorSet :=
  if m.axis < maxAxes then ofBits (BitVec.twoPow 32 m.bit) else ∅

theorem bit_inj {m k : Motor} (hm : m.axis < maxAxes) (hk : k.axis < maxAxes) :
    m.bit = k.bit ↔ m = k := by
  obtain ⟨a, s⟩ := m
  obtain ⟨b, t⟩ := k
  simp only [maxAxes] at hm hk
  simp only [Motor.bit, sideBits, Motor.mk.injEq]
  cases s <;> cases t <;> simp [Side.index] <;> omega

@[simp] theorem mem_single {m k : Motor} : k ∈ single m ↔ k = m ∧ m.axis < maxAxes := by
  unfold single
  split
  · rename_i hm
    rw [mem_ofBits, BitVec.getLsbD_twoPow, Bool.and_eq_true, decide_eq_true_eq,
      decide_eq_true_eq]
    constructor
    · exact fun h => ⟨((bit_inj hm h.1).1 h.2.2).symm, hm⟩
    · rintro ⟨rfl, -⟩
      refine ⟨hm, ?_, rfl⟩
      obtain ⟨a, s⟩ := k
      simp only [maxAxes, Motor.bit, sideBits] at hm ⊢
      cases s <;> simp only [Side.index] <;> omega
  · rename_i hm
    simp [hm]

/-- The motors in either set. -/
def union (s t : MotorSet) : MotorSet :=
  ⟨s.bits ||| t.bits, fun i h => by
    rw [BitVec.getLsbD_or, Bool.or_eq_true] at h
    exact h.elim (s.lt_of_getLsbD i) (t.lt_of_getLsbD i)⟩

instance : Union MotorSet := ⟨union⟩

@[simp] theorem mem_union {m : Motor} {s t : MotorSet} : m ∈ s ∪ t ↔ m ∈ s ∨ m ∈ t := by
  simp [mem_def, Union.union, union, and_or_left]

/-- The motors in both sets. -/
def inter (s t : MotorSet) : MotorSet :=
  ⟨s.bits &&& t.bits, fun i h => by
    rw [BitVec.getLsbD_and, Bool.and_eq_true] at h
    exact s.lt_of_getLsbD i h.1⟩

instance : Inter MotorSet := ⟨inter⟩

@[simp] theorem mem_inter {m : Motor} {s t : MotorSet} : m ∈ s ∩ t ↔ m ∈ s ∧ m ∈ t := by
  simp only [mem_def, Inter.inter, inter, BitVec.getLsbD_and, Bool.and_eq_true]
  exact ⟨fun h => ⟨⟨h.1, h.2.1⟩, h.1, h.2.2⟩, fun h => ⟨h.1.1, h.1.2, h.2.2⟩⟩

/-- The motors of the first set that are not in the second. -/
def diff (s t : MotorSet) : MotorSet :=
  ⟨s.bits &&& ~~~t.bits, fun i h => by
    rw [BitVec.getLsbD_and, Bool.and_eq_true] at h
    exact s.lt_of_getLsbD i h.1⟩

instance : SDiff MotorSet := ⟨diff⟩

@[simp] theorem mem_sdiff {m : Motor} {s t : MotorSet} : m ∈ s \ t ↔ m ∈ s ∧ ¬ m ∈ t := by
  simp only [mem_def, SDiff.sdiff, diff, BitVec.getLsbD_and, BitVec.getLsbD_not, Bool.and_eq_true,
    decide_eq_true_eq, Bool.not_eq_true', not_and, Bool.not_eq_true]
  constructor
  · exact fun h => ⟨⟨h.1, h.2.1⟩, fun _ => h.2.2.2⟩
  · exact fun h => ⟨h.1.1, h.1.2, BitVec.lt_of_getLsbD h.1.2, h.2 h.1.1⟩

/-- The set with a motor added. -/
def insert (m : Motor) (s : MotorSet) : MotorSet := s ∪ single m

@[simp] theorem mem_insert {m k : Motor} {s : MotorSet} :
    k ∈ s.insert m ↔ k ∈ s ∨ (k = m ∧ m.axis < maxAxes) := by
  simp [insert]

/-- The set with a motor taken out. -/
def erase (m : Motor) (s : MotorSet) : MotorSet := s \ single m

@[simp] theorem mem_erase {m k : Motor} {s : MotorSet} : k ∈ s.erase m ↔ k ∈ s ∧ k ≠ m := by
  simp only [erase, mem_sdiff, mem_single, not_and, ne_eq, and_congr_right_iff]
  exact fun h => ⟨fun g e => g e (e ▸ h.1), fun g e => absurd e g⟩

/-- The set of the motors in a list. Motors that no axis has are passed over. -/
def ofList (ms : List Motor) : MotorSet := ms.foldl (fun s m => s.insert m) ∅

theorem mem_foldl_insert {k : Motor} (ms : List Motor) (s : MotorSet) :
    k ∈ ms.foldl (fun s m => s.insert m) s ↔ k ∈ s ∨ (k ∈ ms ∧ k.axis < maxAxes) := by
  induction ms generalizing s with
  | nil => simp
  | cons m ms ih =>
    rw [List.foldl_cons, ih, mem_insert, List.mem_cons]
    constructor
    · rintro ((h | ⟨rfl, h⟩) | h)
      · exact .inl h
      · exact .inr ⟨.inl rfl, h⟩
      · exact .inr ⟨.inr h.1, h.2⟩
    · rintro (h | ⟨rfl | h, g⟩)
      · exact .inl (.inl h)
      · exact .inl (.inr ⟨rfl, g⟩)
      · exact .inr ⟨h, g⟩

@[simp] theorem mem_ofList {k : Motor} {ms : List Motor} :
    k ∈ ofList ms ↔ k ∈ ms ∧ k.axis < maxAxes := by
  simp [ofList, mem_foldl_insert]

/-- The motors on one side of the axes of a set. -/
def ofAxes (axes : AxisSet) (side : Side) : MotorSet :=
  ofBits (axes.bits.setWidth 32 <<< (side.index * sideBits))

@[simp] theorem mem_ofAxes {m : Motor} {axes : AxisSet} {side : Side} :
    m ∈ ofAxes axes side ↔ m.axis ∈ axes ∧ m.side = side := by
  obtain ⟨n, t⟩ := m
  rw [ofAxes, mem_ofBits, BitVec.getLsbD_shiftLeft, BitVec.getLsbD_setWidth, AxisSet.mem_def]
  simp only [maxAxes, Motor.bit, sideBits]
  constructor
  · rintro ⟨hn, h⟩
    cases t <;> cases side <;> simp_all [Side.index]
    have := axes.lt_of_getLsbD _ h.2.2
    simp only [maxAxes] at this
    omega
  · rintro ⟨h, rfl⟩
    have hn : n < 6 := axes.lt_of_getLsbD n h
    refine ⟨hn, ?_⟩
    cases t
    · simpa [Side.index, show n < 32 by omega] using h
    · simpa [Side.index, show 16 + n < 32 by omega, show n < 32 by omega] using h

/-- Both motors of the axes of a set. -/
def ofAxesBothSides (axes : AxisSet) : MotorSet := ofAxes axes .primary ∪ ofAxes axes .secondary

/-- The axes whose motor on one side is in the set. -/
def axesOn (s : MotorSet) (side : Side) : AxisSet :=
  .ofBits ((s.bits >>> (side.index * sideBits)).setWidth 16)

@[simp] theorem mem_axesOn {n : Nat} {s : MotorSet} {side : Side} :
    n ∈ s.axesOn side ↔ ⟨n, side⟩ ∈ s := by
  rw [axesOn, AxisSet.mem_ofBits, mem_def, BitVec.getLsbD_setWidth, BitVec.getLsbD_ushiftRight,
    Bool.and_eq_true, decide_eq_true_eq, Motor.bit]
  simp only [maxAxes]
  exact ⟨fun h => ⟨h.2, h.1.2⟩, fun h => ⟨⟨by omega, h.2⟩, h.1⟩⟩

/-- The axes with a motor in the set. -/
def axes (s : MotorSet) : AxisSet := s.axesOn .primary ∪ s.axesOn .secondary

@[simp] theorem mem_axes {n : Nat} {s : MotorSet} :
    n ∈ s.axes ↔ ⟨n, .primary⟩ ∈ s ∨ ⟨n, .secondary⟩ ∈ s := by
  simp [axes]

/-- The axes with both motors in the set. -/
def squared (s : MotorSet) : AxisSet := s.axesOn .primary ∩ s.axesOn .secondary

@[simp] theorem mem_squared {n : Nat} {s : MotorSet} :
    n ∈ s.squared ↔ ⟨n, .primary⟩ ∈ s ∧ ⟨n, .secondary⟩ ∈ s := by
  simp [squared]

/-- The motors of the set, the primary side first and each side in ascending
order of its axes. -/
def toList (s : MotorSet) : List Motor :=
  Side.all.flatMap fun side => (s.axesOn side).toList.map (⟨·, side⟩)

@[simp] theorem mem_toList {m : Motor} {s : MotorSet} : m ∈ s.toList ↔ m ∈ s := by
  obtain ⟨n, side⟩ := m
  cases side <;> simp [toList, Side.all]

@[simp] theorem ofList_toList (s : MotorSet) : ofList s.toList = s := by
  ext m
  simpa using fun h : m ∈ s => h.1

/-- Whether the set has no motor. -/
def isEmpty (s : MotorSet) : Bool := s.bits == 0#32

theorem isEmpty_iff {s : MotorSet} : s.isEmpty = true ↔ s = ∅ := by
  obtain ⟨b, hb⟩ := s
  simp [isEmpty, EmptyCollection.emptyCollection, empty]

/-- The number of motors, counted as the set bits of the word. -/
def size (s : MotorSet) : Nat := s.bits.cpop.toNat

@[simp] theorem length_toList (s : MotorSet) : s.toList.length = s.size := by
  have low : s.bits.cpop.toNat = (List.range sideBits).countP s.bits.getLsbD +
      ((List.range sideBits).map (sideBits + ·)).countP s.bits.getLsbD := by
    rw [AxisSet.toNat_cpop_eq_countP, ← List.countP_append]
    rfl
  have side (side : Side) : ((s.axesOn side).toList.map (⟨·, side⟩ : Nat → Motor)).length =
      ((List.range sideBits).map (side.index * sideBits + ·)).countP s.bits.getLsbD := by
    rw [List.length_map, AxisSet.length_toList, AxisSet.size, AxisSet.toNat_cpop_eq_countP,
      List.countP_map]
    refine List.countP_congr fun n hn => ?_
    rw [List.mem_range] at hn
    rw [← AxisSet.mem_def, mem_axesOn, mem_def, Function.comp_apply, Motor.bit,
      and_iff_right_iff_imp]
    intro h
    have := s.lt_of_getLsbD _ h
    simp only [sideBits, maxAxes] at this ⊢
    cases side <;> simp only [Side.index] at this <;> omega
  rw [size, low, toList, Side.all]
  simp only [List.flatMap_cons, List.flatMap_nil, List.length_append, side]
  simp [Side.index]

end MotorSet

end Homing
