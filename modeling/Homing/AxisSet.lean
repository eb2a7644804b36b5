/-!
# Sets of axes

A machine has at most `maxAxes` axes, numbered from 0. `AxisSet` is a set of
axis numbers stored in one 16-bit word, bit `n` for axis `n`; the field
`lt_of_getLsbD` says that no bit at or above `maxAxes` is set, so equal sets are
equal words. `n ∈ s` is the view through which everything else is read: each
operation below has one lemma that says what it does to membership.
-/

namespace Homing

/-- The largest number of axes of a machine. -/
def maxAxes : Nat := 6

/-- A set of axis numbers below `maxAxes`. -/
structure AxisSet where
  /-- Bit `n` is set when axis `n` is in the set. -/
  bits : BitVec 16
  lt_of_getLsbD : ∀ n, bits.getLsbD n = true → n < maxAxes
deriving DecidableEq

namespace AxisSet

/-- The word in which the bit of every axis is set. -/
def mask : BitVec 16 := (BitVec.allOnes maxAxes).setWidth 16

@[simp] theorem getLsbD_mask (n : Nat) : mask.getLsbD n = decide (n < maxAxes) := by
  simp only [mask, BitVec.getLsbD_setWidth, BitVec.getLsbD_allOnes, maxAxes]
  by_cases h : n < 6
  · simp [h, show n < 16 by omega]
  · simp [h]

instance : Membership Nat AxisSet where
  mem s n := s.bits.getLsbD n = true

theorem mem_def {n : Nat} {s : AxisSet} : n ∈ s ↔ s.bits.getLsbD n = true := Iff.rfl

instance (n : Nat) (s : AxisSet) : Decidable (n ∈ s) :=
  inferInstanceAs (Decidable (s.bits.getLsbD n = true))

theorem lt_of_mem {n : Nat} {s : AxisSet} (h : n ∈ s) : n < maxAxes := s.lt_of_getLsbD n h

@[ext] theorem ext {s t : AxisSet} (h : ∀ n, n ∈ s ↔ n ∈ t) : s = t := by
  obtain ⟨a, ha⟩ := s
  obtain ⟨b, hb⟩ := t
  have : a = b := BitVec.eq_of_getLsbD_eq fun i _ => Bool.eq_iff_iff.2 (h i)
  subst this
  rfl

/-- The set with no axis. -/
def empty : AxisSet := ⟨0#16, by simp⟩

instance : EmptyCollection AxisSet := ⟨empty⟩
instance : Inhabited AxisSet := ⟨empty⟩

@[simp] theorem not_mem_empty (n : Nat) : ¬ n ∈ (∅ : AxisSet) := by
  simp [mem_def, EmptyCollection.emptyCollection, empty]

/-- The set that a word stands for. Bits at or above `maxAxes` are dropped. -/
def ofBits (word : BitVec 16) : AxisSet :=
  ⟨word &&& mask, fun n h => by simpa using (by simpa using h : _ ∧ _).2⟩

@[simp] theorem mem_ofBits {n : Nat} {word : BitVec 16} :
    n ∈ ofBits word ↔ word.getLsbD n = true ∧ n < maxAxes := by
  simp [mem_def, ofBits]

/-- The set with one axis, or no axis if there is none of that number. -/
def single (n : Nat) : AxisSet := if n < maxAxes then ofBits (BitVec.twoPow 16 n) else ∅

@[simp] theorem mem_single {n k : Nat} : k ∈ single n ↔ k = n ∧ n < maxAxes := by
  unfold single
  split
  · rename_i h
    simp only [mem_ofBits, BitVec.getLsbD_twoPow, Bool.and_eq_true, decide_eq_true_eq]
    simp only [maxAxes] at h ⊢
    omega
  · rename_i h
    simp [h]

/-- The axes below `n`. -/
def first (n : Nat) : AxisSet := ofBits ((BitVec.allOnes (Nat.min n maxAxes)).setWidth 16)

@[simp] theorem mem_first {n k : Nat} : k ∈ first n ↔ k < n ∧ k < maxAxes := by
  simp only [first, mem_ofBits, BitVec.getLsbD_setWidth, BitVec.getLsbD_allOnes,
    Bool.and_eq_true, decide_eq_true_eq, maxAxes]
  rw [show Nat.min n 6 = min n 6 from rfl]
  omega

/-- The axes in either set. -/
def union (s t : AxisSet) : AxisSet :=
  ⟨s.bits ||| t.bits, fun n h => by
    rw [BitVec.getLsbD_or, Bool.or_eq_true] at h
    exact h.elim (s.lt_of_getLsbD n) (t.lt_of_getLsbD n)⟩

instance : Union AxisSet := ⟨union⟩

@[simp] theorem mem_union {n : Nat} {s t : AxisSet} : n ∈ s ∪ t ↔ n ∈ s ∨ n ∈ t := by
  simp [mem_def, Union.union, union]

/-- The axes in both sets. -/
def inter (s t : AxisSet) : AxisSet :=
  ⟨s.bits &&& t.bits, fun n h => by
    rw [BitVec.getLsbD_and, Bool.and_eq_true] at h
    exact s.lt_of_getLsbD n h.1⟩

instance : Inter AxisSet := ⟨inter⟩

@[simp] theorem mem_inter {n : Nat} {s t : AxisSet} : n ∈ s ∩ t ↔ n ∈ s ∧ n ∈ t := by
  simp [mem_def, Inter.inter, inter]

/-- The axes of the first set that are not in the second. -/
def diff (s t : AxisSet) : AxisSet :=
  ⟨s.bits &&& ~~~t.bits, fun n h => by
    rw [BitVec.getLsbD_and, Bool.and_eq_true] at h
    exact s.lt_of_getLsbD n h.1⟩

instance : SDiff AxisSet := ⟨diff⟩

@[simp] theorem mem_sdiff {n : Nat} {s t : AxisSet} : n ∈ s \ t ↔ n ∈ s ∧ ¬ n ∈ t := by
  simp only [mem_def, SDiff.sdiff, diff, BitVec.getLsbD_and, BitVec.getLsbD_not, Bool.and_eq_true,
    decide_eq_true_eq, Bool.not_eq_true, Bool.not_eq_true']
  constructor
  · exact fun h => ⟨h.1, h.2.2⟩
  · exact fun h => ⟨h.1, Nat.lt_trans (s.lt_of_getLsbD n h.1) (by decide), h.2⟩

/-- The set with axis `n` added. -/
def insert (n : Nat) (s : AxisSet) : AxisSet := s ∪ single n

@[simp] theorem mem_insert {n k : Nat} {s : AxisSet} :
    k ∈ s.insert n ↔ k ∈ s ∨ (k = n ∧ n < maxAxes) := by
  simp [insert]

/-- The set with axis `n` taken out. -/
def erase (n : Nat) (s : AxisSet) : AxisSet := s \ single n

@[simp] theorem mem_erase {n k : Nat} {s : AxisSet} : k ∈ s.erase n ↔ k ∈ s ∧ k ≠ n := by
  simp only [erase, mem_sdiff, mem_single, not_and, ne_eq, and_congr_right_iff]
  exact fun h => ⟨fun g e => g e (e ▸ lt_of_mem h), fun g e => absurd e g⟩

/-- The set of the axes in a list. Numbers that no axis has are passed over. -/
def ofList (ns : List Nat) : AxisSet := ns.foldl (fun s n => s.insert n) ∅

theorem mem_foldl_insert {k : Nat} (ns : List Nat) (s : AxisSet) :
    k ∈ ns.foldl (fun s n => s.insert n) s ↔ k ∈ s ∨ (k ∈ ns ∧ k < maxAxes) := by
  induction ns generalizing s with
  | nil => simp
  | cons n ns ih =>
    rw [List.foldl_cons, ih, mem_insert, List.mem_cons]
    constructor
    · rintro ((h | ⟨rfl, h⟩) | h)
      · exact .inl h
      · exact .inr ⟨.inl rfl, h⟩
      · exact .inr ⟨.inr h.1, h.2⟩
    · rintro (h | ⟨rfl | h, g⟩)
      · exact .inl (.inl h)
      · exact .inl (.inr ⟨rfl, g⟩)
      · exact .inr ⟨h, g⟩

@[simp] theorem mem_ofList {k : Nat} {ns : List Nat} : k ∈ ofList ns ↔ k ∈ ns ∧ k < maxAxes := by
  simp [ofList, mem_foldl_insert]

/-- The axes of the set, in ascending order. -/
def toList (s : AxisSet) : List Nat := (List.range maxAxes).filter (· ∈ s)

@[simp] theorem mem_toList {n : Nat} {s : AxisSet} : n ∈ s.toList ↔ n ∈ s := by
  simp only [toList, List.mem_filter, List.mem_range, decide_eq_true_eq, and_iff_right_iff_imp]
  exact lt_of_mem

@[simp] theorem ofList_toList (s : AxisSet) : ofList s.toList = s := by
  ext n
  simpa using lt_of_mem

/-- Whether the set has no axis. -/
def isEmpty (s : AxisSet) : Bool := s.bits == 0#16

theorem isEmpty_iff {s : AxisSet} : s.isEmpty = true ↔ s = ∅ := by
  obtain ⟨b, hb⟩ := s
  simp [isEmpty, EmptyCollection.emptyCollection, empty]

/-- The number of axes, counted as the set bits of the word. -/
def size (s : AxisSet) : Nat := s.bits.cpop.toNat

/-- The number of set bits of a word is the number of positions that are set. -/
theorem toNat_cpop_eq_countP {w : Nat} (word : BitVec w) :
    word.cpop.toNat = (List.range w).countP word.getLsbD := by
  have below (n : Nat) : word.cpopNatRec n 0 = (List.range n).countP word.getLsbD := by
    induction n with
    | zero => rfl
    | succ n ih =>
      rw [BitVec.cpopNatRec_succ, BitVec.cpopNatRec_add, ih, List.range_succ,
        List.countP_append, List.countP_singleton]
      cases word.getLsbD n <;> rfl
  rw [BitVec.toNat_cpop, below]

@[simp] theorem length_toList (s : AxisSet) : s.toList.length = s.size := by
  have high : ((List.range 10).map (maxAxes + ·)).countP s.bits.getLsbD = 0 := by
    simp only [List.countP_eq_zero, List.mem_map]
    rintro _ ⟨k, -, rfl⟩ h
    exact absurd (s.lt_of_getLsbD _ h) (by omega)
  have split : List.range 16 = List.range maxAxes ++ (List.range 10).map (maxAxes + ·) := rfl
  rw [size, toNat_cpop_eq_countP, split, List.countP_append, high, toList,
    ← List.countP_eq_length_filter]
  exact List.countP_congr fun n _ => by simp [mem_def]

end AxisSet

end Homing
