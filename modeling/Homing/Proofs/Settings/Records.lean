import Homing.Settings.Schema
import Mathlib.Logic.Basic

/-!
# Tables read as records

A record is read from a table by a walk through its keys in their order. The walk gets to the end
exactly when each key on its own can be read (`Record.exists_draft_iff`). If a key has a part of the
record to itself (`Record.Field`), then in the end this part is what the value of the key says
(`Record.Field.parse_of_values`), or what it is at the start if the key is left out
(`Record.Field.get_of_not_mem`).

Two tables are read alike, errors included, if one has a key more and the value of this key says
what the record starts with (`Record.Field.ofEntries_insert`), or if a key takes their two values
alike (`Record.ofEntries_congr`). For both, sorting has to put one entry somewhere between the
others and leave these as they are (`Record.exists_sorted_insert`).
-/

namespace Homing.Schema

open Toml (Value Entries)

/-- The values that a table gives to a key. -/
def valuesOf (key : String) (entries : Entries) : List Value :=
  (entries.filter (·.1 = key)).map (·.2)

theorem mem_valuesOf {key : String} {entries : Entries} {v : Value} :
    v ∈ valuesOf key entries ↔ (key, v) ∈ entries := by
  simp [valuesOf]

namespace Record

variable {δ β γ : Type}

/-! ## The order of the keys -/

/-- Whether an entry comes before another one of the same table, or has the same key. -/
def keyLe (a b : String × Value) : Bool := a.1 ≤ b.1

theorem keyLe_trans (a b c : String × Value) (hab : keyLe a b = true) (hbc : keyLe b c = true) :
    keyLe a c = true :=
  decide_eq_true (String.le_trans (of_decide_eq_true hab) (of_decide_eq_true hbc))

theorem keyLe_total (a b : String × Value) : (keyLe a b || keyLe b a) = true := by
  rw [Bool.or_eq_true]
  exact (String.le_total a.1 b.1).imp decide_eq_true decide_eq_true

theorem sorted_perm (entries : Entries) : (sorted entries).Perm entries :=
  List.mergeSort_perm entries _

/-- Entries that none goes before an entry `a` are passed over by the search for its place. -/
theorem takeWhile_of_keyLe {a : String × Value} {entries : Entries}
    (h : ∀ b ∈ entries, keyLe a b = true) :
    entries.takeWhile (fun b => !keyLe a b) = [] ∧
      entries.dropWhile (fun b => !keyLe a b) = entries := by
  cases entries with
  | nil => exact ⟨rfl, rfl⟩
  | cons b entries => simp [h b List.mem_cons_self]

/-- One more entry at the front of a table goes before the first one whose key is not smaller. -/
theorem sorted_cons (a : String × Value) (entries : Entries) :
    sorted (a :: entries) = (sorted entries).takeWhile (fun b => !keyLe a b) ++
      a :: (sorted entries).dropWhile (fun b => !keyLe a b) := by
  obtain ⟨l₁, l₂, hcons, htail, hbefore⟩ :=
    List.mergeSort_cons keyLe_trans keyLe_total a entries
  have hsorted := List.pairwise_mergeSort keyLe_trans keyLe_total (a :: entries)
  rw [hcons] at hsorted
  have hafter : ∀ b ∈ l₂, keyLe a b = true :=
    (List.pairwise_cons.1 (List.pairwise_append.1 hsorted).2.1).1
  obtain ⟨htake, hdrop⟩ := takeWhile_of_keyLe hafter
  change (a :: entries).mergeSort keyLe = (entries.mergeSort keyLe).takeWhile _ ++
    a :: (entries.mergeSort keyLe).dropWhile _
  rw [hcons, htail, List.takeWhile_append_of_pos hbefore, List.dropWhile_append_of_pos hbefore,
    htake, hdrop, List.append_nil]

/-- Sorting puts a new entry between the others and leaves these as they are. Where it goes is a
matter of its key alone. -/
theorem exists_sorted_insert (front back : Entries) (key : String) :
    ∃ l₁ l₂, (∀ v, sorted (front ++ (key, v) :: back) = l₁ ++ (key, v) :: l₂) ∧
      sorted (front ++ back) = l₁ ++ l₂ := by
  induction front with
  | nil =>
      exact ⟨(sorted back).takeWhile (fun b => !decide (key ≤ b.1)),
        (sorted back).dropWhile (fun b => !decide (key ≤ b.1)),
        fun v => sorted_cons (key, v) back, List.takeWhile_append_dropWhile.symm⟩
  | cons a front ih =>
      obtain ⟨l₁, l₂, hwith, hwithout⟩ := ih
      have hafter (v : Value) : ∀ b ∈ l₂, keyLe (key, v) b = true := by
        have hsorted := List.pairwise_mergeSort keyLe_trans keyLe_total (front ++ (key, v) :: back)
        rw [show (front ++ (key, v) :: back).mergeSort keyLe = l₁ ++ (key, v) :: l₂ from hwith v]
          at hsorted
        exact (List.pairwise_cons.1 (List.pairwise_append.1 hsorted).2.1).1
      simp only [List.cons_append, sorted_cons, hwith, hwithout, List.takeWhile_append,
        List.dropWhile_append]
      -- the place of `a` is among `l₁`, or right before the new entry, or behind it
      cases hrest : l₁.dropWhile (fun b => !keyLe a b) with
      | cons b rest =>
          have hshort : (l₁.takeWhile fun b => !keyLe a b).length ≠ l₁.length := by
            have hlength := congrArg List.length
              (List.takeWhile_append_dropWhile (p := fun b => !keyLe a b) (l := l₁))
            rw [hrest, List.length_append, List.length_cons] at hlength
            omega
          exact ⟨l₁.takeWhile (fun b => !keyLe a b) ++ a :: b :: rest, l₂,
            fun v => by simp [hshort], by simp [hshort]⟩
      | nil =>
          have hwhole : l₁.takeWhile (fun b => !keyLe a b) = l₁ := by
            simpa [hrest] using List.takeWhile_append_dropWhile (p := fun b => !keyLe a b) (l := l₁)
          by_cases hkey : a.1 ≤ key
          · have hbefore (v : Value) : keyLe a (key, v) = true := decide_eq_true hkey
            obtain ⟨htake, hdrop⟩ := takeWhile_of_keyLe fun b hb =>
              keyLe_trans a (key, .boolean true) b (hbefore _) (hafter _ b hb)
            exact ⟨l₁ ++ [a], l₂, fun v => by simp [hwhole, hbefore],
              by simp [hwhole, htake, hdrop]⟩
          · have hbehind (v : Value) : keyLe a (key, v) = false := decide_eq_false hkey
            exact ⟨l₁, l₂.takeWhile (fun b => !keyLe a b) ++
              a :: l₂.dropWhile (fun b => !keyLe a b), fun v => by simp [hwhole, hbehind],
              by simp [hwhole]⟩

/-! ## The walk through the keys -/

/-- What is known once all keys are read. -/
def draft (r : Record δ β) (entries : Entries) : Except SchemaError δ :=
  (sorted entries).foldlM r.entry r.start

variable {r : Record δ β} {entries front back : Entries} {key : String} {d d' : δ} {x : β}
  {parse : Value → Except SchemaError γ} {get : δ → γ} {v w : Value}

theorem ofEntries_eq (r : Record δ β) (entries : Entries) :
    r.ofEntries entries = (r.draft entries).bind fun d => (r.finish d).mapError .missingField :=
  rfl

theorem ofEntries_eq_ok_iff :
    r.ofEntries entries = .ok x ↔ ∃ d, r.draft entries = .ok d ∧ r.finish d = .ok x := by
  rw [ofEntries_eq]
  cases r.draft entries with
  | error e =>
      constructor
      · intro h
        cases h
      · rintro ⟨_, h, -⟩
        cases h
  | ok d =>
      have hfinish : (r.finish d).mapError SchemaError.missingField = .ok x ↔
          r.finish d = .ok x := by
        cases r.finish d <;> constructor <;> intro h <;> cases h <;> rfl
      refine hfinish.trans ⟨fun h => ⟨d, rfl, h⟩, ?_⟩
      rintro ⟨_, h, hx⟩
      cases h
      exact hx

/-- The walk gets to the end exactly when each key on its own can be read. -/
theorem exists_draft_iff {P : String × Value → Prop}
    (h : ∀ e ∈ entries, ∀ d, (∃ d', r.entry d e = .ok d') ↔ P e) :
    (∃ d, r.draft entries = .ok d) ↔ ∀ e ∈ entries, P e := by
  have hfold (l : Entries) (hl : ∀ e ∈ l, e ∈ entries) (d : δ) :
      (∃ d', l.foldlM r.entry d = .ok d') ↔ ∀ e ∈ l, P e := by
    induction l generalizing d with
    | nil => exact ⟨nofun, fun _ => ⟨d, rfl⟩⟩
    | cons e l ih =>
        obtain ⟨he, hl⟩ := List.forall_mem_cons.1 hl
        rw [List.foldlM_cons, List.forall_mem_cons, ← h e he d]
        cases hentry : r.entry d e with
        | error err => simp [bind, Except.bind]
        | ok d₁ => simpa [bind, Except.bind] using ih hl d₁
  have hperm := sorted_perm entries
  rw [draft, hfold _ (fun e => hperm.mem_iff.1) r.start]
  exact forall_congr' fun e => by rw [hperm.mem_iff]

/-- The key `key` of a record has the part `get` of what is known to itself. `parse` says what a
value makes of the part, a value that says what is known already changes nothing at all, and no
other key touches the part. -/
structure Field (r : Record δ β) (key : String) (parse : Value → Except SchemaError γ)
    (get : δ → γ) : Prop where
  mem : key ∈ r.fields
  own : ∀ v d, (r.field key v d).map get = parse v
  same : ∀ v d, parse v = .ok (get d) → r.field key v d = .ok d
  other : ∀ name ∈ r.fields, name ≠ key → ∀ v d d', r.field name v d = .ok d' → get d' = get d

theorem Field.entry_eq (h : r.Field key parse get) (v : Value) (d : δ) :
    r.entry d (key, v) = r.field key v d := if_pos h.mem

/-- A key can be read exactly when its value can. -/
theorem Field.exists_entry_iff (h : r.Field key parse get) (v : Value) (d : δ) :
    (∃ d', r.entry d (key, v) = .ok d') ↔ ∃ y, parse v = .ok y := by
  rw [h.entry_eq, ← h.own v d]
  cases r.field key v d <;> simp [Except.map]

theorem Field.parse_of_entry (h : r.Field key parse get) (he : r.entry d (key, v) = .ok d') :
    parse v = .ok (get d') := by
  rw [← h.own v d, ← h.entry_eq, he]
  rfl

/-- Another key leaves the part alone. -/
theorem Field.get_of_entry (h : r.Field key parse get) {e : String × Value} (hkey : e.1 ≠ key)
    (he : r.entry d e = .ok d') : get d' = get d := by
  unfold entry at he
  split at he
  case isTrue hmem => exact h.other e.1 hmem hkey e.2 d d' he
  case isFalse => cases he

theorem Field.get_of_foldlM (h : r.Field key parse get) {l : Entries}
    (hl : l.foldlM r.entry d = .ok d') (hkey : key ∉ l.map Prod.fst) : get d' = get d := by
  induction l generalizing d with
  | nil =>
      cases hl
      rfl
  | cons e l ih =>
      rw [List.map_cons, List.mem_cons, not_or] at hkey
      rw [List.foldlM_cons] at hl
      cases he : r.entry d e with
      | error err =>
          rw [he] at hl
          cases hl
      | ok d₁ =>
          rw [he] at hl
          rw [ih hl hkey.2, h.get_of_entry (Ne.symm hkey.1) he]

/-- The part is what some value of the key says, if the key has any. -/
theorem Field.exists_parse_of_foldlM (h : r.Field key parse get) {l : Entries}
    (hl : l.foldlM r.entry d = .ok d') (hv : (key, v) ∈ l) :
    ∃ w, (key, w) ∈ l ∧ parse w = .ok (get d') := by
  induction l generalizing d v with
  | nil => cases hv
  | cons e l ih =>
      rw [List.foldlM_cons] at hl
      cases he : r.entry d e with
      | error err =>
          rw [he] at hl
          cases hl
      | ok d₁ =>
          rw [he] at hl
          by_cases hlater : key ∈ l.map Prod.fst
          · obtain ⟨⟨_, w⟩, hw, rfl⟩ := List.mem_map.1 hlater
            obtain ⟨w, hw, hparse⟩ := ih hl hw
            exact ⟨w, List.mem_cons_of_mem _ hw, hparse⟩
          · rcases List.mem_cons.1 hv with rfl | hv
            · refine ⟨v, List.mem_cons_self, ?_⟩
              rw [h.get_of_foldlM hl hlater]
              exact h.parse_of_entry he
            · exact absurd (List.mem_map_of_mem hv) hlater

/-! ## The parts of what is known in the end -/

/-- A key that is left out leaves its part as it is at the start. -/
theorem Field.get_of_not_mem (h : r.Field key parse get) (hd : r.draft entries = .ok d)
    (hkey : key ∉ entries.map Prod.fst) : get d = get r.start :=
  h.get_of_foldlM hd fun hmem => hkey (((sorted_perm entries).map _).mem_iff.1 hmem)

theorem Field.exists_parse (h : r.Field key parse get) (hd : r.draft entries = .ok d)
    (hkey : key ∈ entries.map Prod.fst) : ∃ v, (key, v) ∈ entries ∧ parse v = .ok (get d) := by
  obtain ⟨⟨_, v⟩, hv, rfl⟩ := List.mem_map.1 hkey
  obtain ⟨w, hw, hparse⟩ := h.exists_parse_of_foldlM hd ((sorted_perm entries).mem_iff.2 hv)
  exact ⟨w, (sorted_perm entries).mem_iff.1 hw, hparse⟩

/-- A key with one value has this value in its part. -/
theorem Field.parse_of_values (h : r.Field key parse get) (hd : r.draft entries = .ok d)
    (hv : valuesOf key entries = [v]) : parse v = .ok (get d) := by
  have hmem : (key, v) ∈ entries := mem_valuesOf.1 (by rw [hv]; exact List.mem_singleton_self v)
  obtain ⟨w, hw, hparse⟩ := h.exists_parse hd (List.mem_map_of_mem hmem)
  have hw : w ∈ valuesOf key entries := mem_valuesOf.2 hw
  rw [hv, List.mem_singleton] at hw
  rwa [hw] at hparse

/-! ## Tables that are read alike -/

/-- Writing down what a key stands for when it is left out changes nothing. -/
theorem Field.ofEntries_insert (h : r.Field key parse get) (hv : parse v = .ok (get r.start))
    (hkey : key ∉ (front ++ back).map Prod.fst) :
    r.ofEntries (front ++ (key, v) :: back) = r.ofEntries (front ++ back) := by
  obtain ⟨l₁, l₂, hwith, hwithout⟩ := exists_sorted_insert front back key
  have hperm := sorted_perm (front ++ back)
  rw [hwithout] at hperm
  have hbefore : key ∉ l₁.map Prod.fst := fun hmem => hkey <|
    (hperm.map Prod.fst).mem_iff.1 (by rw [List.map_append]; exact List.mem_append_left _ hmem)
  rw [ofEntries_eq, ofEntries_eq, draft, draft, hwith, hwithout, List.foldlM_append,
    List.foldlM_append]
  cases hl : l₁.foldlM r.entry r.start with
  | error e => rfl
  | ok d =>
      have hnone : r.entry d (key, v) = .ok d := by
        rw [h.entry_eq]
        exact h.same v d (by rw [hv, h.get_of_foldlM hl hbefore])
      simp only [bind, Except.bind, List.foldlM_cons, hnone]

/-- Two values that a key takes alike may stand for each other. -/
theorem ofEntries_congr (h : ∀ d, r.field key v d = r.field key w d) :
    r.ofEntries (front ++ (key, v) :: back) = r.ofEntries (front ++ (key, w) :: back) := by
  obtain ⟨l₁, l₂, hwith, -⟩ := exists_sorted_insert front back key
  have hentry (d : δ) : r.entry d (key, v) = r.entry d (key, w) := by
    unfold entry
    split
    · exact h d
    · rfl
  rw [ofEntries_eq, ofEntries_eq, draft, draft, hwith, hwith, List.foldlM_append,
    List.foldlM_append]
  simp only [List.foldlM_cons, hentry]

end Record

end Homing.Schema
