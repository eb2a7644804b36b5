import Homing.Settings.Load
import Mathlib.Logic.Basic

/-!
# Names that read back

A set of axes is printed as the names of its axes, and read character after character, each
character as the whole name of an axis. `axesNamed_eq_ok_iff` says what is read from any text: the
first axis of each character. A printed set is read as the same set again exactly when the name
of each of its axes is a single character and no earlier axis has the same name up to case
(`MachineSettings.parseAxes_axisNames_iff`).

Validation does not ask for such names: it refuses a second axis of the same name, but compares
the names with their case, and takes names of any length.
-/

namespace Homing

theorem sameUpToCase_iff {s t : String} :
    sameUpToCase s t = true ↔ s.toList.map Char.toLower = t.toList.map Char.toLower :=
  beq_iff_eq

theorem sameUpToCase_congr {s t u : String} (h : sameUpToCase s t = true) :
    sameUpToCase u s = sameUpToCase u t := by
  rw [Bool.eq_iff_iff, sameUpToCase_iff, sameUpToCase_iff, sameUpToCase_iff.1 h]

/-- Only a single character is the same as a single character. -/
theorem exists_char_of_sameUpToCase {s : String} {c : Char}
    (h : sameUpToCase s c.toString = true) : ∃ d : Char, s = d.toString := by
  rw [sameUpToCase_iff] at h
  have hlength := congrArg List.length h
  simp only [List.length_map, Char.toString, String.toList_singleton, List.length_singleton]
    at hlength
  obtain ⟨d, hd⟩ := List.length_eq_one_iff.1 hlength
  exact ⟨d, String.toList_inj.1 (by rw [hd, Char.toString, String.toList_singleton])⟩

namespace MachineSettings

variable {α : Type u} {m : MachineSettings α} {n : Nat} {c : Char}

/-- A character names the first axis whose whole name it is, up to case. -/
theorem axisNamed?_eq_some_iff : m.axisNamed? c = some n ↔
    ∃ a, m.axes[n]? = some a ∧ sameUpToCase a.name c.toString = true ∧
      ∀ k < n, ∀ b, m.axes[k]? = some b → sameUpToCase b.name c.toString = false := by
  rw [axisNamed?, List.findIdx?_eq_some_iff_getElem]
  constructor
  · rintro ⟨hn, hname, hearlier⟩
    refine ⟨m.axes[n], List.getElem?_eq_getElem hn, hname, fun k hk b hb => ?_⟩
    obtain ⟨_, rfl⟩ := List.getElem?_eq_some_iff.1 hb
    exact Bool.eq_false_iff.2 (hearlier k hk)
  · rintro ⟨a, ha, hname, hearlier⟩
    obtain ⟨hn, rfl⟩ := List.getElem?_eq_some_iff.1 ha
    refine ⟨hn, hname, fun k hk => ?_⟩
    exact Bool.eq_false_iff.1 (hearlier k hk _ (List.getElem?_eq_getElem (Nat.lt_trans hk hn)))

/-! ## Reading a text -/

/-- Reading adds the axis of each character to the axes that there are already. -/
theorem foldlM_axisNamed_eq_ok_iff {cs : List Char} {s t : AxisSet} :
    cs.foldlM (fun axes c => match m.axisNamed? c with
      | some n => (.ok (axes.insert n) : Except Char AxisSet)
      | none => .error c) s = .ok t ↔
    (∀ c ∈ cs, ∃ n, m.axisNamed? c = some n) ∧
      ∀ n, n ∈ t ↔ n ∈ s ∨ n < maxAxes ∧ ∃ c ∈ cs, m.axisNamed? c = some n := by
  induction cs generalizing s with
  | nil =>
      simp only [List.foldlM_nil, List.not_mem_nil, false_and, exists_false, and_false, or_false,
        false_imp_iff, implies_true, true_and]
      constructor
      · intro h n
        cases h
        rfl
      · intro h
        rw [AxisSet.ext h]
        rfl
  | cons c cs ih =>
      rw [List.foldlM_cons]
      cases hc : m.axisNamed? c with
      | none =>
          constructor
          · intro h
            cases h
          · rintro ⟨hall, -⟩
            obtain ⟨n, hn⟩ := hall c List.mem_cons_self
            rw [hc] at hn
            cases hn
      | some k =>
          refine ih.trans ?_
          rw [List.forall_mem_cons]
          refine and_congr (by simp [hc]) (forall_congr' fun n => iff_congr Iff.rfl ?_)
          simp only [AxisSet.mem_insert, List.mem_cons, or_and_right, exists_or, exists_eq_left, hc,
            Option.some.injEq]
          constructor
          · rintro ((hs | ⟨rfl, hk⟩) | ⟨hn, hrest⟩)
            · exact .inl hs
            · exact .inr ⟨hk, .inl rfl⟩
            · exact .inr ⟨hn, .inr hrest⟩
          · rintro (hs | ⟨hn, rfl | hrest⟩)
            · exact .inl (.inl hs)
            · exact .inl (.inr ⟨rfl, hn⟩)
            · exact .inr ⟨hn, hrest⟩

/-- A text asks for the axes that its characters name, if each names one. -/
theorem axesNamed_eq_ok_iff {text : String} {s : AxisSet} :
    m.axesNamed text = .ok s ↔ (∀ c ∈ text.toList, ∃ n, m.axisNamed? c = some n) ∧
      ∀ n, n ∈ s ↔ n < maxAxes ∧ ∃ c ∈ text.toList, m.axisNamed? c = some n := by
  refine foldlM_axisNamed_eq_ok_iff.trans ?_
  simp only [AxisSet.not_mem_empty, false_or]

/-! ## Reading a printed set -/

/-- The name of axis `n` is a single character, and no earlier axis has the same name up to
case. -/
def NamedByLetter (m : MachineSettings α) (n : Nat) : Prop :=
  ∃ (a : AxisSettings α) (c : Char), m.axes[n]? = some a ∧ a.name = c.toString ∧
    ∀ k < n, ∀ b, m.axes[k]? = some b → sameUpToCase b.name a.name = false

theorem mem_axisNames {s : AxisSet} :
    c ∈ (m.axisNames s).toList ↔ ∃ n ∈ s, c ∈ (m.axisName n).toList := by
  simp only [axisNames, String.toList_join, List.mem_flatMap, List.mem_map, AxisSet.mem_toList,
    exists_exists_and_eq_and]

theorem axisName_of_getElem? {a : AxisSettings α} (ha : m.axes[n]? = some a) :
    m.axisName n = a.name := by
  rw [axisName, ha]

/-- An axis that is named by a character at all is named by its own. -/
theorem namedByLetter_of_axisNamed? (h : m.axisNamed? c = some n) : m.NamedByLetter n := by
  obtain ⟨a, ha, hname, hearlier⟩ := axisNamed?_eq_some_iff.1 h
  obtain ⟨d, hd⟩ := exists_char_of_sameUpToCase hname
  refine ⟨a, d, ha, hd, fun k hk b hb => ?_⟩
  rw [sameUpToCase_congr hname]
  exact hearlier k hk b hb

/-- A character of the name of an axis with such a name names this axis. -/
theorem NamedByLetter.axisNamed? (h : m.NamedByLetter n) (hc : c ∈ (m.axisName n).toList) :
    m.axisNamed? c = some n := by
  obtain ⟨a, d, ha, hd, hearlier⟩ := h
  rw [axisName_of_getElem? ha, hd, Char.toString, String.toList_singleton, List.mem_singleton]
    at hc
  subst hc
  rw [axisNamed?_eq_some_iff, ← hd]
  exact ⟨a, ha, sameUpToCase_iff.2 rfl, hearlier⟩

theorem NamedByLetter.exists_mem (h : m.NamedByLetter n) : ∃ c, c ∈ (m.axisName n).toList := by
  obtain ⟨a, d, ha, hd, -⟩ := h
  exact ⟨d, by rw [axisName_of_getElem? ha, hd]; simp⟩

/-- A printed set is read as the same set exactly when each of its axes is named by a letter of
its own. -/
theorem axesNamed_axisNames_iff {s : AxisSet} :
    m.axesNamed (m.axisNames s) = .ok s ↔ ∀ n ∈ s, m.NamedByLetter n := by
  rw [axesNamed_eq_ok_iff]
  constructor
  · rintro ⟨-, hmem⟩ n hn
    obtain ⟨-, c, -, hc⟩ := (hmem n).1 hn
    exact namedByLetter_of_axisNamed? hc
  · intro hletters
    refine ⟨fun c hc => ?_, fun n => ⟨fun hn => ?_, ?_⟩⟩
    · obtain ⟨n, hn, hc⟩ := mem_axisNames.1 hc
      exact ⟨n, (hletters n hn).axisNamed? hc⟩
    · obtain ⟨c, hc⟩ := (hletters n hn).exists_mem
      exact ⟨AxisSet.lt_of_mem hn, c, mem_axisNames.2 ⟨n, hn, hc⟩, (hletters n hn).axisNamed? hc⟩
    · rintro ⟨-, c, hc, hnamed⟩
      obtain ⟨k, hk, hc⟩ := mem_axisNames.1 hc
      obtain rfl := Option.some.inj (((hletters k hk).axisNamed? hc).symm.trans hnamed)
      exact hk

/-- The names that are printed for a set of axes ask for exactly this set when each of its axes
has a name of a single character that no earlier axis has up to case, and for no other set. -/
theorem parseAxes_axisNames_iff (m : MachineSettings Float) (s : AxisSet) :
    m.parseAxes (m.axisNames s) = .ok s ↔ ∀ n ∈ s, m.NamedByLetter n := by
  rw [← axesNamed_axisNames_iff, parseAxes]
  cases m.axesNamed (m.axisNames s) with
  | error c => exact ⟨nofun, nofun⟩
  | ok t =>
      constructor <;>
      · intro h
        cases h
        rfl

end MachineSettings

/-- Two axes whose names differ in case alone. -/
def upperAndLowerCase : MachineSettings Float where
  logLevel := .info
  axes := ["X", "x"].map fun name =>
    { name, maxTravel := 100.0, stepsPerMm := 80.0, homing := some .default, motors := [.default] }

/-- Both axes are accepted, and the name of the second one asks for the first. -/
theorem not_parseAxes_axisNames_upperAndLowerCase :
    upperAndLowerCase.validate = .ok () ∧
      (∀ n ∈ AxisSet.single 1, n < upperAndLowerCase.axes.length) ∧
      upperAndLowerCase.parseAxes (upperAndLowerCase.axisNames (.single 1)) = .ok (.single 0) ∧
      AxisSet.single 0 ≠ .single 1 := by
  refine ⟨MachineSettings.validate_eq_ok_iff.2 ?_, by simp [upperAndLowerCase], ?_, by decide⟩
  · rfl
  · rfl

end Homing
