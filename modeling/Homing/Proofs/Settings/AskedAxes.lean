import Homing.Proofs.Settings.AxisNames

/-!
# Texts that ask for axes

What is read from any text, on any settings: names may be empty, of many letters or the same up to
case, and there may be more than `maxAxes` of them. A character has to be the whole name of some
axis, and it then asks for the first axis of that name (`FirstNamed`), which is in the answer if
its number is below `maxAxes`. The first character that names no axis is the one that is reported.

`MachineSettings.parseAxes_reads` puts the answers together, and with them what follows: two texts
one after the other ask for the union, and only the characters of a text count, neither their order
nor how often they come.
-/

namespace Homing

variable {α : Type u}

/-- A character is the whole name of an axis, up to the case of the letters `a` to `z`. -/
def AxisSettings.NamedBy (a : AxisSettings α) (c : Char) : Prop :=
  ∃ d : Char, a.name = d.toString ∧ d.toLower = c.toLower

theorem AxisSettings.namedBy_iff {a : AxisSettings α} {c : Char} :
    a.NamedBy c ↔ sameUpToCase a.name c.toString = true := by
  constructor
  · rintro ⟨d, hd, hcase⟩
    rw [hd, sameUpToCase_iff]
    simp only [Char.toString, String.toList_singleton, List.map_cons, List.map_nil, hcase]
  · intro h
    obtain ⟨d, hd⟩ := exists_char_of_sameUpToCase h
    refine ⟨d, hd, ?_⟩
    rw [hd, sameUpToCase_iff] at h
    simpa only [Char.toString, String.toList_singleton, List.map_cons, List.map_nil,
      List.cons.injEq, and_true] using h

namespace MachineSettings

variable {m : MachineSettings α} {n : Nat} {c : Char} {s : AxisSet}

/-- Some axis has the name `c`. -/
def Knows (m : MachineSettings α) (c : Char) : Prop := ∃ a ∈ m.axes, a.NamedBy c

/-- `n` is the lowest number of an axis that has the name `c`. -/
structure FirstNamed (m : MachineSettings α) (c : Char) (n : Nat) : Prop where
  named : ∃ a, m.axes[n]? = some a ∧ a.NamedBy c
  first : ∀ k < n, ∀ b, m.axes[k]? = some b → ¬ b.NamedBy c

theorem firstNamed_iff : m.FirstNamed c n ↔ m.axisNamed? c = some n := by
  rw [axisNamed?_eq_some_iff]
  simp only [← AxisSettings.namedBy_iff, ← Bool.not_eq_true]
  exact ⟨fun ⟨⟨a, ha, hname⟩, hfirst⟩ => ⟨a, ha, hname, hfirst⟩,
    fun ⟨a, ha, hname, hfirst⟩ => ⟨⟨a, ha, hname⟩, hfirst⟩⟩

theorem axisNamed?_eq_none_iff : m.axisNamed? c = none ↔ ¬ m.Knows c := by
  simp only [axisNamed?, List.findIdx?_eq_none_iff, ← Bool.not_eq_true,
    ← AxisSettings.namedBy_iff, Knows, not_exists, not_and]

theorem knows_iff : m.Knows c ↔ ∃ n, m.axisNamed? c = some n := by
  rw [← Option.isSome_iff_exists, ← not_iff_not, Option.not_isSome_iff_eq_none,
    axisNamed?_eq_none_iff]

/-- Reading stops at the first character that names no axis. -/
theorem foldlM_axisNamed_eq_error_iff {cs : List Char} :
    cs.foldlM (fun axes c => match m.axisNamed? c with
      | some n => (.ok (axes.insert n) : Except Char AxisSet)
      | none => .error c) s = .error c ↔
    ∃ before after, cs = before ++ c :: after ∧ (∀ d ∈ before, m.Knows d) ∧ ¬ m.Knows c := by
  induction cs generalizing s with
  | nil => exact ⟨nofun, fun ⟨before, after, h, _⟩ => by simp at h⟩
  | cons d cs ih =>
      rw [List.foldlM_cons]
      simp only [List.cons_eq_append_iff]
      cases hd : m.axisNamed? d with
      | none =>
          have hunknown := axisNamed?_eq_none_iff.1 hd
          constructor
          · intro h
            cases h
            exact ⟨[], cs, .inl ⟨rfl, rfl⟩, nofun, hunknown⟩
          · rintro ⟨before, after, ⟨rfl, h⟩ | ⟨rest, rfl, -⟩, hbefore, -⟩
            · cases h
              rfl
            · exact absurd (hbefore d List.mem_cons_self) hunknown
      | some k =>
          have hknown : m.Knows d := knows_iff.2 ⟨k, hd⟩
          refine ih.trans ?_
          constructor
          · rintro ⟨before, after, rfl, hbefore, hc⟩
            exact ⟨d :: before, after, .inr ⟨before, rfl, rfl⟩,
              List.forall_mem_cons.2 ⟨hknown, hbefore⟩, hc⟩
          · rintro ⟨before, after, ⟨rfl, h⟩ | ⟨rest, rfl, hrest⟩, hbefore, hc⟩
            · cases h
              exact absurd hknown hc
            · exact ⟨rest, after, hrest, (List.forall_mem_cons.1 hbefore).2, hc⟩

section Texts

variable {m : MachineSettings Float} {text front back : String} {s t : AxisSet}

theorem parseAxes_eq_ok_iff : m.parseAxes text = .ok s ↔
    (∀ c ∈ text.toList, m.Knows c) ∧
      ∀ n, n ∈ s ↔ n < maxAxes ∧ ∃ c ∈ text.toList, m.FirstNamed c n := by
  simp only [knows_iff, firstNamed_iff, ← axesNamed_eq_ok_iff, parseAxes]
  cases m.axesNamed text <;> constructor <;> intro h <;> cases h <;> rfl

theorem parseAxes_eq_error_iff {e : SettingsError} : m.parseAxes text = .error e ↔
    ∃ before c after, text.toList = before ++ c :: after ∧ (∀ d ∈ before, m.Knows d) ∧
      ¬ m.Knows c ∧ e = .unknownAxis c := by
  have hread (c : Char) : m.axesNamed text = .error c ↔ ∃ before after,
      text.toList = before ++ c :: after ∧ (∀ d ∈ before, m.Knows d) ∧ ¬ m.Knows c :=
    foldlM_axisNamed_eq_error_iff
  have herror : m.parseAxes text = .error e ↔
      ∃ c, m.axesNamed text = .error c ∧ e = .unknownAxis c := by
    rw [parseAxes]
    cases m.axesNamed text with
    | error c =>
        constructor
        · intro h
          cases h
          exact ⟨c, rfl, rfl⟩
        · rintro ⟨_, h, rfl⟩
          cases h
          rfl
    | ok t =>
        constructor
        · intro h
          cases h
        · rintro ⟨_, h, -⟩
          cases h
  rw [herror]
  simp only [hread]
  constructor
  · rintro ⟨c, ⟨before, after, htext, hbefore, hc⟩, rfl⟩
    exact ⟨before, c, after, htext, hbefore, hc, rfl⟩
  · rintro ⟨before, c, after, htext, hbefore, hc, rfl⟩
    exact ⟨c, ⟨before, after, htext, hbefore, hc⟩, rfl⟩

/-- Every text of characters that name axes is read. -/
theorem exists_parseAxes_iff :
    (∃ s, m.parseAxes text = .ok s) ↔ ∀ c ∈ text.toList, m.Knows c := by
  constructor
  · rintro ⟨s, hs⟩
    exact (parseAxes_eq_ok_iff.1 hs).1
  · intro hknown
    cases hread : m.parseAxes text with
    | ok s => exact ⟨s, rfl⟩
    | error e =>
        obtain ⟨before, c, after, htext, -, hc, -⟩ := parseAxes_eq_error_iff.1 hread
        exact absurd (hknown c (by simp [htext])) hc

theorem parseAxes_append (hs : m.parseAxes front = .ok s) (ht : m.parseAxes back = .ok t) :
    m.parseAxes (front ++ back) = .ok (s ∪ t) := by
  rw [parseAxes_eq_ok_iff] at hs ht ⊢
  simp only [String.toList_append, List.mem_append, AxisSet.mem_union, hs.2, ht.2]
  refine ⟨fun c hc => hc.elim (hs.1 c) (ht.1 c), fun n => ?_⟩
  simp only [or_and_right, exists_or, and_or_left]

theorem parseAxes_congr (h : ∀ c, c ∈ front.toList ↔ c ∈ back.toList) :
    m.parseAxes front = .ok s ↔ m.parseAxes back = .ok s := by
  simp only [parseAxes_eq_ok_iff, h]

/-- On any settings, a text is read exactly when each of its characters is the whole name of an
axis, up to case, and it asks for the first axis of each of its characters, as far as their numbers
are below `maxAxes`; any other text is refused for the first of its characters that is no such
name. Two texts that are read ask together for the union of what they ask for, and texts of the
same characters ask for the same. -/
theorem parseAxes_reads (m : MachineSettings Float) :
    (∀ text, (∃ s, m.parseAxes text = .ok s) ↔ ∀ c ∈ text.toList, m.Knows c) ∧
    (∀ text s, m.parseAxes text = .ok s →
      ∀ n, n ∈ s ↔ n < maxAxes ∧ ∃ c ∈ text.toList, m.FirstNamed c n) ∧
    (∀ text e, m.parseAxes text = .error e ↔
      ∃ before c after, text.toList = before ++ c :: after ∧ (∀ d ∈ before, m.Knows d) ∧
        ¬ m.Knows c ∧ e = .unknownAxis c) ∧
    (∀ front back s t, m.parseAxes front = .ok s → m.parseAxes back = .ok t →
      m.parseAxes (front ++ back) = .ok (s ∪ t)) ∧
    ∀ front back, (∀ c, c ∈ front.toList ↔ c ∈ back.toList) →
      ∀ s, m.parseAxes front = .ok s ↔ m.parseAxes back = .ok s :=
  ⟨fun _ => exists_parseAxes_iff, fun _ _ hs => (parseAxes_eq_ok_iff.1 hs).2,
    fun _ _ => parseAxes_eq_error_iff, fun _ _ _ _ => parseAxes_append,
    fun _ _ h _ => parseAxes_congr h⟩

/-- More axes than a machine has, with names that are empty, too long or the same up to case. -/
def oddNames : MachineSettings Float where
  logLevel := .info
  axes := ["XY", "x", "", "X", "é", "Y", "B"].map fun name =>
    { name, maxTravel := 100.0, stepsPerMm := 80.0, homing := none, motors := [.default] }

/-- `X` asks for axis 1, whose name is `x`, and `b` for axis 6, which is beyond the sets. -/
theorem parseAxes_reads_oddNames :
    oddNames.parseAxes "Xb" = .ok (.single 1) ∧ oddNames.parseAxes "yéX" = .ok (.ofBits 0b110010) ∧
      oddNames.parseAxes ("Xb" ++ "yéX") = .ok (.single 1 ∪ .ofBits 0b110010) ∧
      (∀ n, n ∈ AxisSet.single 1 ↔ n < maxAxes ∧ ∃ c ∈ "Xb".toList, oddNames.FirstNamed c n) ∧
      oddNames.parseAxes "Xéyé" = .ok (.ofBits 0b110010) := by
  have hfront : oddNames.parseAxes "Xb" = .ok (.single 1) := rfl
  have hback : oddNames.parseAxes "yéX" = .ok (.ofBits 0b110010) := rfl
  have hchars (c : Char) : c ∈ "yéX".toList ↔ c ∈ "Xéyé".toList := by
    simp only [String.reduceToList, List.mem_cons, List.not_mem_nil, or_false]
    grind
  obtain ⟨-, hmem, -, happend, hsame⟩ := parseAxes_reads oddNames
  exact ⟨hfront, hback, happend _ _ _ _ hfront hback, hmem _ _ hfront,
    (hsame _ _ hchars _).1 hback⟩

end Texts

end MachineSettings

end Homing
