import Homing.MotorSet
import Mathlib.Data.Finset.Card
import Mathlib.Data.Finset.Image

/-!
# Words as finite sets

The operations on sets of axes and of motors are followed through programs of any length. A program
works on a `Bank`, places that hold sets of axes and places that hold sets of motors, and each of
its operations puts a new set, made from those that are there, into one place.

A program is carried out in three ways. `Carrier.sets` takes the operations of `AxisSet` and
`MotorSet`. `Carrier.finsets` takes those of finite sets, in which only numbers below `maxAxes` are
axes. `Carrier.words` takes bare words, which it masks only where a word of unknown origin comes in
and where one side is cut out of a motor word; all other words are made by shifts and bit
operations. `Carrier.Simulates` is what one operation keeps between two of these ways, and
`Carrier.Simulates.run` carries it through a program.

The main result, `implements_run`, says that in every place the set is a faithful image of the
finite set (`AxisSet.Implements`, `MotorSet.Implements`), and that its word is the bare one. So no
shift leaves its half of a word, and no bit of an axis or a motor that there is not is ever set.
-/

namespace Homing

/-! ## Programs -/

/-- Places that hold sets of axes, each as an `α`, and sets of motors, each as a `β`. -/
structure Bank (α β : Type) where
  axes : Nat → α
  motors : Nat → β

/-- A set of axes made from the sets of a bank, which are named by their places. -/
inductive AxesTerm where
  | ofBits (word : BitVec 16)
  | single (n : Nat)
  | first (n : Nat)
  | ofList (ns : List Nat)
  | insert (n place : Nat)
  | erase (n place : Nat)
  | union (left right : Nat)
  | inter (left right : Nat)
  | diff (left right : Nat)
  | axesOn (place : Nat) (side : Side)
  | axes (place : Nat)
  | squared (place : Nat)

/-- A set of motors made from the sets of a bank. -/
inductive MotorsTerm where
  | ofBits (word : BitVec 32)
  | single (m : Motor)
  | ofList (ms : List Motor)
  | ofAxes (place : Nat) (side : Side)
  | ofAxesBothSides (place : Nat)
  | insert (m : Motor) (place : Nat)
  | erase (m : Motor) (place : Nat)
  | union (left right : Nat)
  | inter (left right : Nat)
  | diff (left right : Nat)

/-- An operation puts a set into a place. -/
inductive SetOperation where
  | axes (place : Nat) (value : AxesTerm)
  | motors (place : Nat) (value : MotorsTerm)

/-- A way in which the operations are carried out. -/
structure Carrier (α β : Type) where
  emptyAxes : α
  emptyMotors : β
  axes : AxesTerm → Bank α β → α
  motors : MotorsTerm → Bank α β → β

namespace Carrier

variable {α β : Type}

/-- Carry out one operation. -/
def step (c : Carrier α β) (b : Bank α β) : SetOperation → Bank α β
  | .axes place value => { b with axes := Function.update b.axes place (c.axes value b) }
  | .motors place value => { b with motors := Function.update b.motors place (c.motors value b) }

/-- Carry out a program. All places are empty at the start. -/
def run (c : Carrier α β) (program : List SetOperation) : Bank α β :=
  program.foldl c.step ⟨fun _ => c.emptyAxes, fun _ => c.emptyMotors⟩

end Carrier

/-! ## Two ways to carry out a program -/

section Simulation

variable {α β γ δ : Type} {R : α → γ → Prop} {S : β → δ → Prop}

/-- In every place the two banks hold related sets. -/
structure Bank.Related (R : α → γ → Prop) (S : β → δ → Prop) (b : Bank α β) (e : Bank γ δ) :
    Prop where
  axes : ∀ place, R (b.axes place) (e.axes place)
  motors : ∀ place, S (b.motors place) (e.motors place)

/-- Each operation makes related sets from related sets. -/
structure Carrier.Simulates (c : Carrier α β) (d : Carrier γ δ) (R : α → γ → Prop)
    (S : β → δ → Prop) : Prop where
  emptyAxes : R c.emptyAxes d.emptyAxes
  emptyMotors : S c.emptyMotors d.emptyMotors
  axes : ∀ value {b e}, Bank.Related R S b e → R (c.axes value b) (d.axes value e)
  motors : ∀ value {b e}, Bank.Related R S b e → S (c.motors value b) (d.motors value e)

variable {c : Carrier α β} {d : Carrier γ δ}

theorem Carrier.Simulates.step (h : c.Simulates d R S) {b : Bank α β} {e : Bank γ δ}
    (hb : Bank.Related R S b e) (op : SetOperation) :
    Bank.Related R S (c.step b op) (d.step e op) := by
  cases op with
  | axes place value =>
      refine ⟨fun k => ?_, hb.motors⟩
      by_cases hk : k = place
      · subst hk
        simpa only [Carrier.step, Function.update_self] using h.axes value hb
      · simpa only [Carrier.step, Function.update_of_ne hk] using hb.axes k
  | motors place value =>
      refine ⟨hb.axes, fun k => ?_⟩
      by_cases hk : k = place
      · subst hk
        simpa only [Carrier.step, Function.update_self] using h.motors value hb
      · simpa only [Carrier.step, Function.update_of_ne hk] using hb.motors k

/-- Related after each operation, the banks are related after a program. -/
theorem Carrier.Simulates.run (h : c.Simulates d R S) (program : List SetOperation) :
    Bank.Related R S (c.run program) (d.run program) := by
  have hfold (b : Bank α β) (e : Bank γ δ) (hb : Bank.Related R S b e) :
      Bank.Related R S (program.foldl c.step b) (program.foldl d.step e) := by
    induction program generalizing b e with
    | nil => exact hb
    | cons op rest ih => exact ih _ _ (h.step hb op)
  exact hfold _ _ ⟨fun _ => h.emptyAxes, fun _ => h.emptyMotors⟩

end Simulation

/-! ## The three ways -/

/-- The numbers that are numbers of axes. -/
def allAxes : Finset Nat := Finset.range maxAxes

/-- The motors on one side of some axes. -/
def motorsOf (axes : Finset Nat) (side : Side) : Finset Motor := axes.image (⟨·, side⟩)

/-- The motors that there can be. -/
def allMotors : Finset Motor := motorsOf allAxes .primary ∪ motorsOf allAxes .secondary

/-- The axes whose motor on one side is in a set. -/
def axesOf (motors : Finset Motor) (side : Side) : Finset Nat :=
  (motors.filter (·.side = side)).image (·.axis)

@[simp] theorem mem_allAxes {n : Nat} : n ∈ allAxes ↔ n < maxAxes := Finset.mem_range

@[simp] theorem mem_motorsOf {m : Motor} {axes : Finset Nat} {side : Side} :
    m ∈ motorsOf axes side ↔ m.axis ∈ axes ∧ m.side = side := by
  obtain ⟨n, s⟩ := m
  simp only [motorsOf, Finset.mem_image, Motor.mk.injEq]
  constructor
  · rintro ⟨k, hk, rfl, rfl⟩
    exact ⟨hk, rfl⟩
  · rintro ⟨hn, rfl⟩
    exact ⟨n, hn, rfl, rfl⟩

@[simp] theorem mem_allMotors {m : Motor} : m ∈ allMotors ↔ m.axis < maxAxes := by
  obtain ⟨n, side⟩ := m
  cases side <;> simp [allMotors]

@[simp] theorem mem_axesOf {n : Nat} {motors : Finset Motor} {side : Side} :
    n ∈ axesOf motors side ↔ ⟨n, side⟩ ∈ motors := by
  simp only [axesOf, Finset.mem_image, Finset.mem_filter]
  constructor
  · rintro ⟨⟨k, s⟩, ⟨hm, rfl⟩, rfl⟩
    exact hm
  · exact fun h => ⟨⟨n, side⟩, ⟨h, rfl⟩, rfl⟩

namespace Carrier

/-- Programs over the sets that are stored in words. -/
def sets : Carrier AxisSet MotorSet where
  emptyAxes := ∅
  emptyMotors := ∅
  axes value b :=
    match value with
    | .ofBits word => .ofBits word
    | .single n => .single n
    | .first n => .first n
    | .ofList ns => .ofList ns
    | .insert n s => (b.axes s).insert n
    | .erase n s => (b.axes s).erase n
    | .union s t => b.axes s ∪ b.axes t
    | .inter s t => b.axes s ∩ b.axes t
    | .diff s t => b.axes s \ b.axes t
    | .axesOn s side => (b.motors s).axesOn side
    | .axes s => (b.motors s).axes
    | .squared s => (b.motors s).squared
  motors value b :=
    match value with
    | .ofBits word => .ofBits word
    | .single m => .single m
    | .ofList ms => .ofList ms
    | .ofAxes s side => .ofAxes (b.axes s) side
    | .ofAxesBothSides s => .ofAxesBothSides (b.axes s)
    | .insert m s => (b.motors s).insert m
    | .erase m s => (b.motors s).erase m
    | .union s t => b.motors s ∪ b.motors t
    | .inter s t => b.motors s ∩ b.motors t
    | .diff s t => b.motors s \ b.motors t

/-- Programs over finite sets of numbers and of motors. What is not below `maxAxes` is passed
over where it would come in. -/
def finsets : Carrier (Finset Nat) (Finset Motor) where
  emptyAxes := ∅
  emptyMotors := ∅
  axes value b :=
    match value with
    | .ofBits word => allAxes.filter fun n => word.getLsbD n = true
    | .single n => {n} ∩ allAxes
    | .first n => Finset.range n ∩ allAxes
    | .ofList ns => ns.toFinset ∩ allAxes
    | .insert n s => b.axes s ∪ {n} ∩ allAxes
    | .erase n s => b.axes s \ {n}
    | .union s t => b.axes s ∪ b.axes t
    | .inter s t => b.axes s ∩ b.axes t
    | .diff s t => b.axes s \ b.axes t
    | .axesOn s side => axesOf (b.motors s) side
    | .axes s => axesOf (b.motors s) .primary ∪ axesOf (b.motors s) .secondary
    | .squared s => axesOf (b.motors s) .primary ∩ axesOf (b.motors s) .secondary
  motors value b :=
    match value with
    | .ofBits word => allMotors.filter fun m => word.getLsbD m.bit = true
    | .single m => {m} ∩ allMotors
    | .ofList ms => ms.toFinset ∩ allMotors
    | .ofAxes s side => motorsOf (b.axes s) side
    | .ofAxesBothSides s => motorsOf (b.axes s) .primary ∪ motorsOf (b.axes s) .secondary
    | .insert m s => b.motors s ∪ {m} ∩ allMotors
    | .erase m s => b.motors s \ {m}
    | .union s t => b.motors s ∪ b.motors t
    | .inter s t => b.motors s ∩ b.motors t
    | .diff s t => b.motors s \ b.motors t

end Carrier

/-- The word of one axis: a shifted bit. -/
def axisWord (n : Nat) : BitVec 16 := if n < maxAxes then 1#16 <<< n else 0#16

/-- The word of the axes below `n`: a power of two less one. -/
def firstWord (n : Nat) : BitVec 16 :=
  if maxAxes ≤ n then AxisSet.mask else ((1#32 <<< n) - 1#32).setWidth 16

/-- The word of one motor. -/
def motorWord (m : Motor) : BitVec 32 := if m.axis < maxAxes then 1#32 <<< m.bit else 0#32

/-- The word of the motors on one side: that of the axes, shifted to the half of the side. -/
def sideWord (axes : BitVec 16) (side : Side) : BitVec 32 :=
  axes.setWidth 32 <<< (side.index * sideBits)

/-- The half of a side, cut out of the word of a set of motors. -/
def halfWord (motors : BitVec 32) (side : Side) : BitVec 16 :=
  (motors >>> (side.index * sideBits)).setWidth 16 &&& AxisSet.mask

/-- Programs over bare words. -/
def Carrier.words : Carrier (BitVec 16) (BitVec 32) where
  emptyAxes := 0#16
  emptyMotors := 0#32
  axes value b :=
    match value with
    | .ofBits word => word &&& AxisSet.mask
    | .single n => axisWord n
    | .first n => firstWord n
    | .ofList ns => ns.foldl (fun word n => word ||| axisWord n) 0#16
    | .insert n s => b.axes s ||| axisWord n
    | .erase n s => b.axes s &&& ~~~axisWord n
    | .union s t => b.axes s ||| b.axes t
    | .inter s t => b.axes s &&& b.axes t
    | .diff s t => b.axes s &&& ~~~b.axes t
    | .axesOn s side => halfWord (b.motors s) side
    | .axes s => halfWord (b.motors s) .primary ||| halfWord (b.motors s) .secondary
    | .squared s => halfWord (b.motors s) .primary &&& halfWord (b.motors s) .secondary
  motors value b :=
    match value with
    | .ofBits word => word &&& MotorSet.mask
    | .single m => motorWord m
    | .ofList ms => ms.foldl (fun word m => word ||| motorWord m) 0#32
    | .ofAxes s side => sideWord (b.axes s) side
    | .ofAxesBothSides s => sideWord (b.axes s) .primary ||| sideWord (b.axes s) .secondary
    | .insert m s => b.motors s ||| motorWord m
    | .erase m s => b.motors s &&& ~~~motorWord m
    | .union s t => b.motors s ||| b.motors t
    | .inter s t => b.motors s &&& b.motors t
    | .diff s t => b.motors s &&& ~~~b.motors t

/-! ## The sets and their words -/

theorem AxisSet.bits_single (n : Nat) : (AxisSet.single n).bits = axisWord n := by
  unfold AxisSet.single axisWord
  split
  · rename_i hn
    simp only [AxisSet.ofBits, BitVec.twoPow_eq]
    refine BitVec.eq_of_getLsbD_eq fun i _ => ?_
    rw [BitVec.getLsbD_and, AxisSet.getLsbD_mask, ← BitVec.twoPow_eq, BitVec.getLsbD_twoPow]
    by_cases hi : n = i
    · simp [← hi, hn]
    · simp [hi]
  · rfl

theorem AxisSet.bits_first (n : Nat) : (AxisSet.first n).bits = firstWord n := by
  unfold firstWord
  split
  · rename_i hn
    rw [AxisSet.first, show Nat.min n maxAxes = maxAxes from Nat.min_eq_right hn]
    rfl
  · rename_i hn
    have hbelow : ∀ k < maxAxes, (AxisSet.first k).bits = ((1#32 <<< k) - 1#32).setWidth 16 := by
      decide
    exact hbelow n (Nat.lt_of_not_le hn)

theorem AxisSet.bits_ofList (ns : List Nat) :
    (AxisSet.ofList ns).bits = ns.foldl (fun word n => word ||| axisWord n) 0#16 := by
  have hfold (s : AxisSet) : (ns.foldl (fun s n => s.insert n) s).bits =
      ns.foldl (fun word n => word ||| axisWord n) s.bits := by
    induction ns generalizing s with
    | nil => rfl
    | cons n ns ih =>
        rw [List.foldl_cons, List.foldl_cons, ih, ← AxisSet.bits_single]
        rfl
  exact hfold ∅

/-- The bit of a motor lies in the half of its side, at the number of its axis. -/
theorem Motor.bit_lt {m : Motor} (hm : m.axis < maxAxes) :
    m.bit < 2 * sideBits ∧ m.bit % sideBits < maxAxes := by
  obtain ⟨n, side⟩ := m
  simp only [Motor.bit, sideBits, maxAxes] at hm ⊢
  cases side <;> simp only [Side.index] <;> omega

theorem MotorSet.bits_single (m : Motor) : (MotorSet.single m).bits = motorWord m := by
  unfold MotorSet.single motorWord
  split
  · rename_i hm
    simp only [MotorSet.ofBits, BitVec.twoPow_eq]
    refine BitVec.eq_of_getLsbD_eq fun i _ => ?_
    rw [BitVec.getLsbD_and, MotorSet.getLsbD_mask, ← BitVec.twoPow_eq, BitVec.getLsbD_twoPow]
    by_cases hi : m.bit = i
    · simp [← hi, Motor.bit_lt hm]
    · simp [hi]
  · rfl

theorem MotorSet.bits_ofList (ms : List Motor) :
    (MotorSet.ofList ms).bits = ms.foldl (fun word m => word ||| motorWord m) 0#32 := by
  have hfold (s : MotorSet) : (ms.foldl (fun s m => s.insert m) s).bits =
      ms.foldl (fun word m => word ||| motorWord m) s.bits := by
    induction ms generalizing s with
    | nil => rfl
    | cons m ms ih =>
        rw [List.foldl_cons, List.foldl_cons, ih, ← MotorSet.bits_single]
        rfl
  exact hfold ∅

/-- Shifted to its half, the word of a set of axes has no bit that a mask would drop. -/
theorem MotorSet.bits_ofAxes (axes : AxisSet) (side : Side) :
    (MotorSet.ofAxes axes side).bits = sideWord axes.bits side := by
  refine BitVec.eq_of_getLsbD_eq fun i hi => ?_
  rw [MotorSet.ofAxes, MotorSet.ofBits, BitVec.getLsbD_and, MotorSet.getLsbD_mask, ← sideWord,
    Bool.and_eq_left_iff_imp, decide_eq_true_iff]
  intro h
  simp only [sideWord, BitVec.getLsbD_shiftLeft, BitVec.getLsbD_setWidth, Bool.and_eq_true,
    Bool.not_eq_true', decide_eq_true_eq, decide_eq_false_iff_not] at h
  have hlt := axes.lt_of_getLsbD _ h.2.2
  simp only [sideBits, maxAxes] at hlt h ⊢
  cases side <;> simp only [Side.index] at hlt h <;> omega

/-- The bare words are those of the sets. -/
theorem Carrier.words_simulates :
    words.Simulates sets (fun word s => word = s.bits) (fun word s => word = s.bits) where
  emptyAxes := rfl
  emptyMotors := rfl
  axes value b e h := by
    cases value with
    | ofBits word => rfl
    | single n => exact (AxisSet.bits_single n).symm
    | first n => exact (AxisSet.bits_first n).symm
    | ofList ns => exact (AxisSet.bits_ofList ns).symm
    | insert n s =>
        simp only [words, h.axes s, ← AxisSet.bits_single]
        rfl
    | erase n s =>
        simp only [words, h.axes s, ← AxisSet.bits_single]
        rfl
    | union s t =>
        simp only [words, h.axes]
        rfl
    | inter s t =>
        simp only [words, h.axes]
        rfl
    | diff s t =>
        simp only [words, h.axes]
        rfl
    | axesOn s side =>
        simp only [words, h.motors]
        rfl
    | axes s =>
        simp only [words, h.motors]
        rfl
    | squared s =>
        simp only [words, h.motors]
        rfl
  motors value b e h := by
    cases value with
    | ofBits word => rfl
    | single m => exact (MotorSet.bits_single m).symm
    | ofList ms => exact (MotorSet.bits_ofList ms).symm
    | ofAxes s side =>
        simp only [words, h.axes, ← MotorSet.bits_ofAxes]
        rfl
    | ofAxesBothSides s =>
        simp only [words, h.axes, ← MotorSet.bits_ofAxes]
        rfl
    | insert m s =>
        simp only [words, h.motors, ← MotorSet.bits_single]
        rfl
    | erase m s =>
        simp only [words, h.motors, ← MotorSet.bits_single]
        rfl
    | union s t =>
        simp only [words, h.motors]
        rfl
    | inter s t =>
        simp only [words, h.motors]
        rfl
    | diff s t =>
        simp only [words, h.motors]
        rfl

/-! ## The sets and the finite sets -/

/-- Each operation does to the members of the sets what it does to those of the finite sets. -/
theorem Carrier.sets_simulates :
    sets.Simulates finsets (fun s t => ∀ n, n ∈ s ↔ n ∈ t) (fun s t => ∀ m, m ∈ s ↔ m ∈ t) where
  emptyAxes := by simp [sets, finsets]
  emptyMotors := by simp [sets, finsets]
  axes value b e h n := by
    have haxes := h.axes
    have hmotors := h.motors
    cases value with
    | single k => simpa [sets, finsets] using fun hn : n = k => hn ▸ Iff.rfl
    | insert k s =>
        have hk : n = k ∧ k < maxAxes ↔ n = k ∧ n < maxAxes :=
          and_congr_right fun hn => hn ▸ Iff.rfl
        simp [sets, finsets, haxes, hk]
    | _ => simp [sets, finsets, haxes, hmotors, and_comm]
  motors value b e h m := by
    have haxes := h.axes
    have hmotors := h.motors
    cases value with
    | single k => simpa [sets, finsets] using fun hm : m = k => hm ▸ Iff.rfl
    | insert k s =>
        have hk : m = k ∧ k.axis < maxAxes ↔ m = k ∧ m.axis < maxAxes :=
          and_congr_right fun hm => hm ▸ Iff.rfl
        simp [sets, finsets, hmotors, hk]
    | _ => simp [sets, finsets, haxes, hmotors, MotorSet.ofAxesBothSides, and_comm]

/-- A set of axes is the image of a finite set of numbers: its word has the bits of the members and
no other, `n ∈ s` is membership for every number, its size is the number of members, and it lists
each member once, in ascending order, which is a list that it can be collected from again. -/
structure AxisSet.Implements (s : AxisSet) (t : Finset Nat) : Prop where
  lt : ∀ n ∈ t, n < maxAxes
  bits : ∀ i, s.bits.getLsbD i = true ↔ i ∈ t
  mem : ∀ n, n ∈ s ↔ n ∈ t
  size : s.size = t.card
  count : ∀ n, s.toList.count n = if n ∈ t then 1 else 0
  ascending : s.toList.Pairwise (· < ·)
  collect : AxisSet.ofList s.toList = s

theorem AxisSet.pairwise_toList (s : AxisSet) : s.toList.Pairwise (· < ·) :=
  List.pairwise_lt_range.filter _

theorem AxisSet.implements_of_mem {s : AxisSet} {t : Finset Nat} (h : ∀ n, n ∈ s ↔ n ∈ t) :
    s.Implements t := by
  have hnodup : s.toList.Nodup := s.pairwise_toList.imp Nat.ne_of_lt
  have hlist : s.toList.toFinset = t := by
    ext n
    rw [List.mem_toFinset, AxisSet.mem_toList, h]
  refine ⟨fun n hn => AxisSet.lt_of_mem ((h n).2 hn), h, h, ?_, fun n => ?_, s.pairwise_toList,
    AxisSet.ofList_toList s⟩
  · rw [← AxisSet.length_toList, ← hlist, List.toFinset_card_of_nodup hnodup]
  · rw [hnodup.count]
    simp only [AxisSet.mem_toList, h]

/-- The order in which the motors of a set are listed: the primary side comes first, and each side
is in ascending order. -/
def Motor.Before (m k : Motor) : Prop :=
  m.side = .primary ∧ k.side = .secondary ∨ m.side = k.side ∧ m.axis < k.axis

/-- A set of motors is the image of a finite set of motors. Beside what it says of a set of axes,
this says that the axes on a side, on either side and on both sides are the projection of the
members on the side, the union of the two projections and their intersection, and that an axis is
on either side exactly if one of its two motors is a member. -/
structure MotorSet.Implements (s : MotorSet) (t : Finset Motor) : Prop where
  lt : ∀ m ∈ t, m.axis < maxAxes
  bits : ∀ i, s.bits.getLsbD i = true ↔ ∃ m ∈ t, m.bit = i
  mem : ∀ m, m ∈ s ↔ m ∈ t
  size : s.size = t.card
  count : ∀ m, s.toList.count m = if m ∈ t then 1 else 0
  ordered : s.toList.Pairwise Motor.Before
  collect : MotorSet.ofList s.toList = s
  axesOn : ∀ side, (s.axesOn side).Implements (axesOf t side)
  axes : s.axes.Implements (axesOf t .primary ∪ axesOf t .secondary)
  hasAxis : ∀ n, n ∈ s.axes ↔ ⟨n, .primary⟩ ∈ t ∨ ⟨n, .secondary⟩ ∈ t
  squared : s.squared.Implements (axesOf t .primary ∩ axesOf t .secondary)

theorem MotorSet.pairwise_toList (s : MotorSet) : s.toList.Pairwise Motor.Before := by
  have hside (side : Side) :
      ((s.axesOn side).toList.map (⟨·, side⟩ : Nat → Motor)).Pairwise Motor.Before :=
    List.pairwise_map.2 ((s.axesOn side).pairwise_toList.imp fun h => .inr ⟨rfl, h⟩)
  simp only [MotorSet.toList, Side.all, List.flatMap_cons, List.flatMap_nil, List.append_nil]
  refine List.pairwise_append.2 ⟨hside .primary, hside .secondary, fun m hm k hk => .inl ?_⟩
  obtain ⟨_, -, rfl⟩ := List.mem_map.1 hm
  obtain ⟨_, -, rfl⟩ := List.mem_map.1 hk
  exact ⟨rfl, rfl⟩

theorem Motor.Before.ne {m k : Motor} (h : m.Before k) : m ≠ k := by
  rintro rfl
  rcases h with ⟨hm, hk⟩ | ⟨-, hlt⟩
  · rw [hm] at hk
    cases hk
  · exact Nat.lt_irrefl _ hlt

theorem MotorSet.implements_of_mem {s : MotorSet} {t : Finset Motor} (h : ∀ m, m ∈ s ↔ m ∈ t) :
    s.Implements t := by
  have hnodup : s.toList.Nodup := s.pairwise_toList.imp Motor.Before.ne
  have hlist : s.toList.toFinset = t := by
    ext m
    rw [List.mem_toFinset, MotorSet.mem_toList, h]
  refine
    { lt := fun m hm => ((h m).2 hm).1
      bits := fun i => ⟨fun hi => ?_, ?_⟩
      mem := h
      size := ?_
      count := fun m => ?_
      ordered := s.pairwise_toList
      collect := MotorSet.ofList_toList s
      axesOn := fun side => AxisSet.implements_of_mem fun n => ?_
      axes := AxisSet.implements_of_mem fun n => ?_
      hasAxis := fun n => ?_
      squared := AxisSet.implements_of_mem fun n => ?_ }
  · obtain ⟨m, hbit, hm⟩ := MotorSet.exists_mem_of_getLsbD hi
    exact ⟨m, (h m).1 hm, hbit⟩
  · rintro ⟨m, hm, rfl⟩
    exact ((h m).2 hm).2
  · rw [← MotorSet.length_toList, ← hlist, List.toFinset_card_of_nodup hnodup]
  · rw [hnodup.count]
    simp only [MotorSet.mem_toList, h]
  · rw [MotorSet.mem_axesOn, mem_axesOf, h]
  · rw [MotorSet.mem_axes, Finset.mem_union, mem_axesOf, mem_axesOf, h, h]
  · rw [MotorSet.mem_axes, h, h]
  · rw [MotorSet.mem_squared, Finset.mem_inter, mem_axesOf, mem_axesOf, h, h]

/-- After any program over sets of axes and of motors, with any numbers and words in it, each place
holds the image of the finite set that the program leaves there, and its word is the one that bare
words leave there. -/
theorem implements_run (program : List SetOperation) (place : Nat) :
    ((Carrier.sets.run program).axes place).Implements ((Carrier.finsets.run program).axes place) ∧
    ((Carrier.sets.run program).motors place).Implements
      ((Carrier.finsets.run program).motors place) ∧
    (Carrier.words.run program).axes place = ((Carrier.sets.run program).axes place).bits ∧
    (Carrier.words.run program).motors place = ((Carrier.sets.run program).motors place).bits := by
  have hmembers := Carrier.sets_simulates.run program
  have hwords := Carrier.words_simulates.run program
  exact ⟨AxisSet.implements_of_mem (hmembers.axes place),
    MotorSet.implements_of_mem (hmembers.motors place), hwords.axes place, hwords.motors place⟩

end Homing
