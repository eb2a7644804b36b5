import Homing.Proofs.Settings.Records
import Mathlib.Algebra.Ring.Int.Defs
import Mathlib.Algebra.Ring.Nat

/-!
# The keys of the four records

The types that values can have, each with the reader that takes exactly the values of the type, and
then the keys of a motor, of homing parameters, of an axis and of a machine: each has one part of
its record to itself (`Record.Field`), and is read there by the reader of its type.
-/

namespace Homing.Schema

open Toml (Value Entries Origin)

/-! ## The types of values -/

/-- A float, or an integer of any length. -/
def IsNumber (v : Value) : Prop := (∃ x, v = .float x) ∨ ∃ n, v = .integer n

/-- A float, or an integer that 64 bits hold, with a sign or without. -/
def IsReal (v : Value) : Prop :=
  (∃ x, v = .float x) ∨ ∃ n : Int, v = .integer n ∧ -2 ^ 63 ≤ n ∧ n < 2 ^ 64

/-- A whole number below a bound. -/
def IsNatural (bound : Nat) (v : Value) : Prop := ∃ n : Nat, v = .integer n ∧ n < bound

def IsBoolean (v : Value) : Prop := ∃ b, v = .boolean b

def IsString (v : Value) : Prop := ∃ s, v = .string s

/-- The word of a log level. -/
def IsLevel (v : Value) : Prop :=
  ∃ word ∈ ["trace", "debug", "info", "warn", "error"], v = .string word

/-- A table of some kind. -/
def IsTable (P : Entries → Prop) (v : Value) : Prop := ∃ origin t, v = .table origin t ∧ P t

/-- A list of tables of some kind. -/
def IsTables (P : Entries → Prop) (v : Value) : Prop :=
  ∃ openEnded items, v = .array openEnded items ∧ ∀ item ∈ items, IsTable P item

theorem exists_float_iff {v : Value} : (∃ x, float v = .ok x) ↔ IsReal v := by
  cases v with
  | integer n =>
      have hfits : fitsWord 64 n = true ↔ -2 ^ 63 ≤ n ∧ n < 2 ^ 64 := by
        rw [fitsWord, Bool.and_eq_true, decide_eq_true_iff, decide_eq_true_iff]
        rfl
      simp only [float, IsReal, reduceCtorEq, exists_false, Value.integer.injEq, exists_eq_left',
        false_or, ← hfits]
      split <;> simp [*]
  | _ => simp [float, IsReal]

theorem exists_natural_iff {v : Value} {bound : Nat} {expected : String} :
    (∃ n, natural bound expected v = .ok n) ↔ IsNatural bound v := by
  cases v with
  | integer n =>
      by_cases hn : 0 ≤ n ∧ n < bound
      · simp only [natural, if_pos hn, Except.ok.injEq, exists_eq', true_iff]
        exact ⟨n.toNat, by rw [Int.toNat_of_nonneg hn.1], by omega⟩
      · simp only [natural, if_neg hn]
        refine ⟨fun ⟨k, hk⟩ => ?_, fun ⟨k, hk, hlt⟩ => ?_⟩
        · split at hk <;> cases hk
        · cases hk
          exact absurd ⟨Int.natCast_nonneg k, Int.ofNat_lt.2 hlt⟩ hn
  | _ => simp [natural, IsNatural]

theorem exists_boolean_iff {v : Value} : (∃ b, boolean v = .ok b) ↔ IsBoolean v := by
  cases v <;> simp [boolean, IsBoolean]

theorem exists_string_iff {v : Value} : (∃ s, string v = .ok s) ↔ IsString v := by
  cases v <;> simp [string, IsString]

/-- Of the strings, the five words of a log level are one. -/
theorem exists_level_iff {v : Value} (hv : IsString v) : (∃ l, level v = .ok l) ↔ IsLevel v := by
  obtain ⟨s, rfl⟩ := hv
  have hword : (∃ l, level (.string s) = .ok l) ↔ ∃ l, Level.ofWord? s = some l := by
    simp only [level, levelWord]
    cases Level.ofWord? s <;> simp
  rw [hword]
  constructor
  · rintro ⟨l, hl⟩
    have hs := List.find?_some hl
    rw [beq_iff_eq] at hs
    subst hs
    cases l <;> exact ⟨_, by decide, rfl⟩
  · rintro ⟨word, hmem, hs⟩
    cases hs
    simp only [List.mem_cons, List.not_mem_nil, or_false] at hmem
    rcases hmem with rfl | rfl | rfl | rfl | rfl
    · exact ⟨.trace, rfl⟩
    · exact ⟨.debug, rfl⟩
    · exact ⟨.info, rfl⟩
    · exact ⟨.warn, rfl⟩
    · exact ⟨.error, rfl⟩

/-! ## Lists of items -/

section Items

variable {β : Type} {item : Value → Except SchemaError β} {items : List Value} {ys : List β}

/-- A list can be read exactly when each of its items can. -/
theorem exists_mapM_iff : (∃ ys, items.mapM item = .ok ys) ↔ ∀ v ∈ items, ∃ y, item v = .ok y := by
  induction items with
  | nil => exact ⟨nofun, fun _ => ⟨[], rfl⟩⟩
  | cons v items ih =>
      rw [List.forall_mem_cons, ← ih, List.mapM_cons]
      cases item v with
      | error e => simp [bind, Except.bind]
      | ok y => cases items.mapM item <;> simp [bind, Except.bind, pure, Except.pure]

/-- Each item of a list is read at its own place. -/
theorem getElem?_of_mapM (h : items.mapM item = .ok ys) {i : Nat} {v : Value}
    (hv : items[i]? = some v) : ∃ y, ys[i]? = some y ∧ item v = .ok y := by
  induction items generalizing ys i with
  | nil => cases hv
  | cons w items ih =>
      rw [List.mapM_cons] at h
      cases hw : item w with
      | error e =>
          rw [hw] at h
          cases h
      | ok y =>
          cases hrest : items.mapM item with
          | error e =>
              rw [hw, hrest] at h
              cases h
          | ok zs =>
              rw [hw, hrest] at h
              cases h
              cases i with
              | zero =>
                  cases hv
                  exact ⟨y, rfl, hw⟩
              | succ i => exact ih hrest hv

/-- Two items that are read alike may stand for each other. -/
theorem mapM_congr {front back : List Value} {v w : Value} (h : item v = item w) :
    (front ++ v :: back).mapM item = (front ++ w :: back).mapM item := by
  simp only [List.mapM_append, List.mapM_cons, h]

end Items

/-! ## The keys of the four records -/

theorem exists_of_map_eq_ok {ε α β : Type} {f : α → β} {a : Except ε α} {b : β}
    (h : a.map f = .ok b) : ∃ x, a = .ok x ∧ f x = b := by
  cases a with
  | error e => cases h
  | ok x => exact ⟨x, rfl, Except.ok.inj h⟩

namespace Record

variable {δ β γ : Type} {r : Record δ β} {entries : Entries} {key : String} {d : δ}

/-- A key that sets its part, and nothing else, has the part to itself. -/
theorem Field.of_set {parse : Value → Except SchemaError γ} {get : δ → γ} (set : δ → γ → δ)
    (hmem : key ∈ r.fields) (hfield : ∀ v d, r.field key v d = (parse v).map (set d))
    (hget : ∀ d y, get (set d y) = y) (hset : ∀ d, set d (get d) = d)
    (hother : ∀ name ∈ r.fields, name ≠ key → ∀ v d d', r.field name v d = .ok d' →
      get d' = get d) : r.Field key parse get where
  mem := hmem
  own v d := by
    rw [hfield]
    cases parse v <;> simp [Except.map, hget]
  same v d hv := by rw [hfield, hv, Except.map, hset]
  other := hother

/-- A part that is empty at the start is filled exactly if the key is there. -/
theorem Field.isSome_iff {parse : Value → Except SchemaError γ} {get : δ → Option γ}
    (h : r.Field key (fun v => (parse v).map some) get) (hstart : get r.start = none)
    (hd : r.draft entries = .ok d) : (get d).isSome ↔ key ∈ entries.map Prod.fst := by
  by_cases hkey : key ∈ entries.map Prod.fst
  · obtain ⟨v, -, hv⟩ := h.exists_parse hd hkey
    obtain ⟨y, -, hy⟩ := exists_of_map_eq_ok hv
    simp [← hy, hkey]
  · simp [h.get_of_not_mem hd hkey, hstart, hkey]

end Record

/-- What the keys of a motor leave alone. -/
theorem motor_others {name : String} (hname : name ∈ motor.fields) {v : Value}
    {m m' : MotorSettings Float} (h : motor.field name v m = .ok m') :
    (name ≠ "pulloff_mm" → m'.pulloff = m.pulloff) ∧
      (name ≠ "limit_switch" → m'.limitSwitch = m.limitSwitch) := by
  simp only [motor, List.mem_cons, List.not_mem_nil, or_false] at hname
  rcases hname with rfl | rfl <;> obtain ⟨x, -, rfl⟩ := exists_of_map_eq_ok h <;> simp

theorem motor_pulloff : motor.Field "pulloff_mm" float (·.pulloff) :=
  .of_set (fun m x => { m with pulloff := x }) (by simp [motor]) (fun _ _ => rfl)
    (fun _ _ => rfl) (fun _ => rfl) fun _ hname hne _ _ _ h => (motor_others hname h).1 hne

theorem motor_limitSwitch : motor.Field "limit_switch" boolean (·.limitSwitch) :=
  .of_set (fun m b => { m with limitSwitch := b }) (by simp [motor]) (fun _ _ => rfl)
    (fun _ _ => rfl) (fun _ => rfl) fun _ hname hne _ _ _ h => (motor_others hname h).2 hne

/-- What the keys of homing parameters leave alone. -/
theorem homing_others {name : String} (hname : name ∈ homing.fields) {v : Value}
    {h h' : HomingSettings Float} (hfield : homing.field name v h = .ok h') :
    (name ≠ "cycle" → h'.cycle = h.cycle) ∧ (name ≠ "seek_mpm" → h'.seekRate = h.seekRate) ∧
      (name ≠ "feed_mpm" → h'.feedRate = h.feedRate) ∧
      (name ≠ "settle_ms" → h'.settle = h.settle) ∧
      (name ≠ "positive_direction" → h'.positiveDirection = h.positiveDirection) ∧
      (name ≠ "mpos_mm" → h'.reference = h.reference) ∧
      (name ≠ "seek_scaler" → h'.seekScaler = h.seekScaler) ∧
      (name ≠ "feed_scaler" → h'.feedScaler = h.feedScaler) := by
  simp only [homing, List.mem_cons, List.not_mem_nil, or_false] at hname
  rcases hname with rfl | rfl | rfl | rfl | rfl | rfl | rfl | rfl <;>
    obtain ⟨x, -, rfl⟩ := exists_of_map_eq_ok hfield <;> simp

theorem homing_cycle : homing.Field "cycle" (fun v => (cycle v).map some) (·.cycle) :=
  .of_set (fun h n => { h with cycle := n }) (by simp [homing])
    (fun v _ => by simp only [homing]; cases cycle v <;> rfl) (fun _ _ => rfl) (fun _ => rfl)
    fun _ hname hne _ _ _ h => (homing_others hname h).1 hne

theorem homing_seekRate : homing.Field "seek_mpm" float (·.seekRate) :=
  .of_set (fun h x => { h with seekRate := x }) (by simp [homing]) (fun _ _ => rfl)
    (fun _ _ => rfl) (fun _ => rfl) fun _ hname hne _ _ _ h => (homing_others hname h).2.1 hne

theorem homing_feedRate : homing.Field "feed_mpm" float (·.feedRate) :=
  .of_set (fun h x => { h with feedRate := x }) (by simp [homing]) (fun _ _ => rfl)
    (fun _ _ => rfl) (fun _ => rfl) fun _ hname hne _ _ _ h => (homing_others hname h).2.2.1 hne

theorem homing_settle : homing.Field "settle_ms" milliseconds (·.settle) :=
  .of_set (fun h n => { h with settle := n }) (by simp [homing]) (fun _ _ => rfl)
    (fun _ _ => rfl) (fun _ => rfl)
    fun _ hname hne _ _ _ h => (homing_others hname h).2.2.2.1 hne

theorem homing_positiveDirection :
    homing.Field "positive_direction" boolean (·.positiveDirection) :=
  .of_set (fun h b => { h with positiveDirection := b }) (by simp [homing]) (fun _ _ => rfl)
    (fun _ _ => rfl) (fun _ => rfl)
    fun _ hname hne _ _ _ h => (homing_others hname h).2.2.2.2.1 hne

theorem homing_reference : homing.Field "mpos_mm" float (·.reference) :=
  .of_set (fun h x => { h with reference := x }) (by simp [homing]) (fun _ _ => rfl)
    (fun _ _ => rfl) (fun _ => rfl)
    fun _ hname hne _ _ _ h => (homing_others hname h).2.2.2.2.2.1 hne

theorem homing_seekScaler : homing.Field "seek_scaler" float (·.seekScaler) :=
  .of_set (fun h x => { h with seekScaler := x }) (by simp [homing]) (fun _ _ => rfl)
    (fun _ _ => rfl) (fun _ => rfl)
    fun _ hname hne _ _ _ h => (homing_others hname h).2.2.2.2.2.2.1 hne

theorem homing_feedScaler : homing.Field "feed_scaler" float (·.feedScaler) :=
  .of_set (fun h x => { h with feedScaler := x }) (by simp [homing]) (fun _ _ => rfl)
    (fun _ _ => rfl) (fun _ => rfl)
    fun _ hname hne _ _ _ h => (homing_others hname h).2.2.2.2.2.2.2 hne

/-- What the keys of an axis leave alone. -/
theorem axis_others {name : String} (hname : name ∈ axis.fields) {v : Value} {a a' : AxisDraft}
    (h : axis.field name v a = .ok a') :
    (name ≠ "name" → a'.name = a.name) ∧ (name ≠ "max_travel_mm" → a'.maxTravel = a.maxTravel) ∧
      (name ≠ "steps_per_mm" → a'.stepsPerMm = a.stepsPerMm) ∧
      (name ≠ "homing" → a'.homing = a.homing) ∧ (name ≠ "motors" → a'.motors = a.motors) := by
  simp only [axis, List.mem_cons, List.not_mem_nil, or_false] at hname
  rcases hname with rfl | rfl | rfl | rfl | rfl <;>
    obtain ⟨x, -, rfl⟩ := exists_of_map_eq_ok h <;> simp

theorem axis_name : axis.Field "name" (fun v => (string v).map some) (·.name) :=
  .of_set (fun a s => { a with name := s }) (by simp [axis])
    (fun v _ => by simp only [axis]; cases string v <;> rfl) (fun _ _ => rfl) (fun _ => rfl)
    fun _ hname hne _ _ _ h => (axis_others hname h).1 hne

theorem axis_maxTravel : axis.Field "max_travel_mm" (fun v => (float v).map some) (·.maxTravel) :=
  .of_set (fun a x => { a with maxTravel := x }) (by simp [axis])
    (fun v _ => by simp only [axis]; cases float v <;> rfl) (fun _ _ => rfl) (fun _ => rfl)
    fun _ hname hne _ _ _ h => (axis_others hname h).2.1 hne

theorem axis_stepsPerMm : axis.Field "steps_per_mm" (fun v => (float v).map some) (·.stepsPerMm) :=
  .of_set (fun a x => { a with stepsPerMm := x }) (by simp [axis])
    (fun v _ => by simp only [axis]; cases float v <;> rfl) (fun _ _ => rfl) (fun _ => rfl)
    fun _ hname hne _ _ _ h => (axis_others hname h).2.2.1 hne

theorem axis_homing : axis.Field "homing" (fun v => (homing.read v).map some) (·.homing) :=
  .of_set (fun a h => { a with homing := h }) (by simp [axis])
    (fun v _ => by simp only [axis]; cases homing.read v <;> rfl) (fun _ _ => rfl) (fun _ => rfl)
    fun _ hname hne _ _ _ h => (axis_others hname h).2.2.2.1 hne

theorem axis_motors : axis.Field "motors" (list motor.read) (·.motors) :=
  .of_set (fun a ms => { a with motors := ms }) (by simp [axis]) (fun _ _ => rfl)
    (fun _ _ => rfl) (fun _ => rfl) fun _ hname hne _ _ _ h => (axis_others hname h).2.2.2.2 hne

/-- What the keys of a machine leave alone. -/
theorem machine_others {name : String} (hname : name ∈ machine.fields) {v : Value}
    {m m' : MachineDraft} (h : machine.field name v m = .ok m') :
    (name ≠ "log_level" → m'.logLevel = m.logLevel) ∧ (name ≠ "axes" → m'.axes = m.axes) := by
  simp only [machine, List.mem_cons, List.not_mem_nil, or_false] at hname
  rcases hname with rfl | rfl <;> obtain ⟨x, -, rfl⟩ := exists_of_map_eq_ok h <;> simp

theorem machine_logLevel : machine.Field "log_level" level (·.logLevel) :=
  .of_set (fun m l => { m with logLevel := l }) (by simp [machine]) (fun _ _ => rfl)
    (fun _ _ => rfl) (fun _ => rfl) fun _ hname hne _ _ _ h => (machine_others hname h).1 hne

theorem machine_axes : machine.Field "axes" (fun v => (list axis.read v).map some) (·.axes) :=
  .of_set (fun m axes => { m with axes := axes }) (by simp [machine])
    (fun v _ => by simp only [machine]; cases list axis.read v <;> rfl) (fun _ _ => rfl)
    (fun _ => rfl) fun _ hname hne _ _ _ h => (machine_others hname h).2 hne

end Homing.Schema
