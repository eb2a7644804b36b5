import Homing.Proofs.Settings.Fields

/-!
# What tables hold settings

`Layout` lists the keys that a table may have, each with what its value has to be, and the keys
that it must have. `Layout.machine` is the layout of a whole document, with those of the axes, the
homing parameters and the motors below it. Where lists of tables and tables stand in their places
(`Shaped`), the tables that hold settings are exactly those that fit the layout
(`exists_machine_iff`).

A key that may be left out has a value that it then stands for (`Default`). `Spelled` relates a
document to the same one with one such key written down, at any level, and the two are read alike,
errors included (`Spelled.alike`). What comes of the keys that are left out, and of tables that are
empty, is `DefaultsIn`.

The main result, `MachineSettings.ofTable_reads`, is these three together. A float field takes an
integer too, as long as 64 bits hold it, with a sign or without; a longer one is refused
(`not_ofTable_wideTravel`).
-/

namespace Homing.Schema

open Toml (Value Entries Origin)

/-! ## Layouts -/

/-- Where a table has one of the keys, the value is what the key asks for. -/
def ValuesAre (keys : List (String × (Value → Prop))) (t : Entries) : Prop :=
  ∀ e ∈ t, ∀ k ∈ keys, k.1 = e.1 → k.2 e.2

/-- The keys that a table may have, each with what its value has to be, and the keys that it must
have. -/
structure Layout where
  keys : List (String × (Value → Prop))
  required : List String

/-- Every key is one of the layout, its value is what it asks for, and none is missing. -/
structure Layout.Fits (l : Layout) (t : Entries) : Prop where
  known : ∀ e ∈ t, e.1 ∈ l.keys.map Prod.fst
  typed : ValuesAre l.keys t
  present : ∀ key ∈ l.required, key ∈ t.map Prod.fst

theorem Layout.fits_iff {l : Layout} {t : Entries} :
    l.Fits t ↔ (∀ e ∈ t, e.1 ∈ l.keys.map Prod.fst) ∧ ValuesAre l.keys t ∧
      ∀ key ∈ l.required, key ∈ t.map Prod.fst :=
  ⟨fun h => ⟨h.known, h.typed, h.present⟩, fun h => ⟨h.1, h.2.1, h.2.2⟩⟩

namespace Layout

/-- The layout of a motor. `number` is what a float field takes. -/
def motor (number : Value → Prop) : Layout where
  keys := [("pulloff_mm", number), ("limit_switch", IsBoolean)]
  required := []

/-- The layout of homing parameters. -/
def homing (number : Value → Prop) : Layout where
  keys := [("cycle", IsNatural (2 ^ 8)), ("seek_mpm", number), ("feed_mpm", number),
    ("settle_ms", IsNatural (2 ^ 32)), ("positive_direction", IsBoolean), ("mpos_mm", number),
    ("seek_scaler", number), ("feed_scaler", number)]
  required := []

/-- The layout of an axis. -/
def axis (number : Value → Prop) : Layout where
  keys := [("name", IsString), ("max_travel_mm", number), ("steps_per_mm", number),
    ("homing", IsTable (homing number).Fits), ("motors", IsTables (motor number).Fits)]
  required := ["name", "max_travel_mm", "steps_per_mm"]

/-- The layout of a document. -/
def machine (number : Value → Prop) : Layout where
  keys := [("log_level", IsLevel), ("axes", IsTables (axis number).Fits)]
  required := ["axes"]

end Layout

/-- On an axis, tables stand where they are expected. -/
def ShapedAxis : Entries → Prop :=
  ValuesAre [("homing", IsTable fun _ => True), ("motors", IsTables fun _ => True)]

/-- In a document, tables stand where they are expected, and the log level is a string. -/
def Shaped : Entries → Prop := ValuesAre [("log_level", IsString), ("axes", IsTables ShapedAxis)]

/-! ## The tables that can be read -/

section Reading

variable {δ β γ : Type} {r : Record δ β} {t : Entries} {v : Value} {P Q : Entries → Prop}

/-- A record can be read exactly from the tables that fit its layout, if each key can be read
exactly where it has a value of its type and the record is complete exactly if no key is missing. -/
theorem Record.exists_ofEntries_iff {l : Layout} (hfields : r.fields = l.keys.map Prod.fst)
    (htyped : ∀ k ∈ l.keys, ∀ v, (k.1, v) ∈ t → ∀ d,
      (∃ d', r.entry d (k.1, v) = .ok d') ↔ k.2 v)
    (hpresent : ∀ d, r.draft t = .ok d →
      ((∃ x, r.finish d = .ok x) ↔ ∀ key ∈ l.required, key ∈ t.map Prod.fst)) :
    (∃ x, r.ofEntries t = .ok x) ↔ l.Fits t := by
  have hentry : ∀ e ∈ t, ∀ d, (∃ d', r.entry d e = .ok d') ↔
      e.1 ∈ l.keys.map Prod.fst ∧ ∀ k ∈ l.keys, k.1 = e.1 → k.2 e.2 := by
    intro e he d
    have hkey {k : String × (Value → Prop)} (hk : k ∈ l.keys) (hke : k.1 = e.1) :
        (∃ d', r.entry d e = .ok d') ↔ k.2 e.2 := by
      obtain ⟨name, v⟩ := e
      obtain rfl : k.1 = name := hke
      exact htyped k hk v he d
    by_cases hmem : e.1 ∈ l.keys.map Prod.fst
    · obtain ⟨k, hk, hke⟩ := List.mem_map.1 hmem
      exact ⟨fun hok => ⟨hmem, fun k hk hke => (hkey hk hke).1 hok⟩,
        fun h => (hkey hk hke).2 (h.2 k hk hke)⟩
    · have hunknown : r.entry d e = .error (.unknownField e.1 r.fields) :=
        if_neg (by rwa [hfields])
      simp [hunknown, hmem]
  constructor
  · rintro ⟨x, hx⟩
    obtain ⟨d, hd, hfinish⟩ := Record.ofEntries_eq_ok_iff.1 hx
    have hfits := (Record.exists_draft_iff hentry).1 ⟨d, hd⟩
    exact ⟨fun e he => (hfits e he).1, fun e he => (hfits e he).2, (hpresent d hd).1 ⟨x, hfinish⟩⟩
  · intro hfits
    obtain ⟨d, hd⟩ := (Record.exists_draft_iff hentry).2 fun e he =>
      ⟨hfits.known e he, hfits.typed e he⟩
    obtain ⟨x, hx⟩ := (hpresent d hd).2 hfits.present
    exact ⟨x, Record.ofEntries_eq_ok_iff.2 ⟨d, hd, hx⟩⟩

theorem isTable_table {origin : Origin} : IsTable P (.table origin t) ↔ P t := by
  refine ⟨fun ⟨_, _, htable, ht⟩ => ?_, fun ht => ⟨origin, t, rfl, ht⟩⟩
  cases htable
  exact ht

theorem isTables_array {openEnded : Bool} {items : List Value} :
    IsTables P (.array openEnded items) ↔ ∀ item ∈ items, IsTable P item := by
  refine ⟨fun ⟨_, _, harray, hitems⟩ => ?_, fun hitems => ⟨openEnded, items, rfl, hitems⟩⟩
  cases harray
  exact hitems

theorem exists_map_iff {ε α : Type} {a : Except ε α} {f : α → γ} :
    (∃ y, a.map f = .ok y) ↔ ∃ x, a = .ok x := by
  cases a <;> simp [Except.map]

theorem Record.exists_read_iff (hv : IsTable Q v)
    (h : ∀ t, Q t → ((∃ x, r.ofEntries t = .ok x) ↔ P t)) :
    (∃ x, r.read v = .ok x) ↔ IsTable P v := by
  obtain ⟨origin, t, rfl, ht⟩ := hv
  exact (h t ht).trans isTable_table.symm

theorem Record.exists_list_iff (hv : IsTables Q v)
    (h : ∀ t, Q t → ((∃ x, r.ofEntries t = .ok x) ↔ P t)) :
    (∃ xs, list r.read v = .ok xs) ↔ IsTables P v := by
  obtain ⟨openEnded, items, rfl, hitems⟩ := hv
  have hitem : (∀ item ∈ items, ∃ x, r.read item = .ok x) ↔ ∀ item ∈ items, IsTable P item :=
    forall₂_congr fun item hitem => Record.exists_read_iff (hitems item hitem) h
  rw [list, exists_mapM_iff, hitem, isTables_array]

end Reading

section Records

variable {t : Entries}

theorem exists_motor_iff : (∃ m, motor.ofEntries t = .ok m) ↔ (Layout.motor IsReal).Fits t := by
  refine Record.exists_ofEntries_iff rfl ?_ fun d _ => ⟨fun _ => nofun, fun _ => ⟨d, rfl⟩⟩
  simp only [Layout.motor, List.forall_mem_cons]
  exact ⟨fun v _ d => (motor_pulloff.exists_entry_iff v d).trans exists_float_iff,
    fun v _ d => (motor_limitSwitch.exists_entry_iff v d).trans exists_boolean_iff, nofun⟩

theorem exists_homing_iff : (∃ h, homing.ofEntries t = .ok h) ↔ (Layout.homing IsReal).Fits t := by
  refine Record.exists_ofEntries_iff rfl ?_ fun d _ => ⟨fun _ => nofun, fun _ => ⟨d, rfl⟩⟩
  simp only [Layout.homing, List.forall_mem_cons]
  exact ⟨fun v _ d => (homing_cycle.exists_entry_iff v d).trans
      (exists_map_iff.trans exists_natural_iff),
    fun v _ d => (homing_seekRate.exists_entry_iff v d).trans exists_float_iff,
    fun v _ d => (homing_feedRate.exists_entry_iff v d).trans exists_float_iff,
    fun v _ d => (homing_settle.exists_entry_iff v d).trans exists_natural_iff,
    fun v _ d => (homing_positiveDirection.exists_entry_iff v d).trans exists_boolean_iff,
    fun v _ d => (homing_reference.exists_entry_iff v d).trans exists_float_iff,
    fun v _ d => (homing_seekScaler.exists_entry_iff v d).trans exists_float_iff,
    fun v _ d => (homing_feedScaler.exists_entry_iff v d).trans exists_float_iff, nofun⟩

/-- An axis is complete once it has a name, a travel and a resolution. -/
theorem exists_finish_axis_iff {a : AxisDraft} : (∃ x, axis.finish a = .ok x) ↔
    a.name.isSome ∧ a.maxTravel.isSome ∧ a.stepsPerMm.isSome := by
  obtain ⟨name, maxTravel, stepsPerMm, homing, motors⟩ := a
  cases name <;> cases maxTravel <;> cases stepsPerMm <;> simp [axis]

theorem exists_axis_iff (ht : ShapedAxis t) :
    (∃ a, axis.ofEntries t = .ok a) ↔ (Layout.axis IsReal).Fits t := by
  have hhoming (v : Value) (hv : ("homing", v) ∈ t) : IsTable (fun _ => True) v :=
    ht _ hv _ List.mem_cons_self rfl
  have hmotors (v : Value) (hv : ("motors", v) ∈ t) : IsTables (fun _ => True) v :=
    ht _ hv _ (List.mem_cons_of_mem _ List.mem_cons_self) rfl
  refine Record.exists_ofEntries_iff rfl ?_ fun a ha => ?_
  · simp only [Layout.axis, List.forall_mem_cons]
    exact ⟨fun v _ d => (axis_name.exists_entry_iff v d).trans
        (exists_map_iff.trans exists_string_iff),
      fun v _ d => (axis_maxTravel.exists_entry_iff v d).trans
        (exists_map_iff.trans exists_float_iff),
      fun v _ d => (axis_stepsPerMm.exists_entry_iff v d).trans
        (exists_map_iff.trans exists_float_iff),
      fun v hv d => (axis_homing.exists_entry_iff v d).trans
        (exists_map_iff.trans (Record.exists_read_iff (hhoming v hv) fun _ _ => exists_homing_iff)),
      fun v hv d => (axis_motors.exists_entry_iff v d).trans
        (Record.exists_list_iff (hmotors v hv) fun _ _ => exists_motor_iff), nofun⟩
  · rw [exists_finish_axis_iff, axis_name.isSome_iff rfl ha, axis_maxTravel.isSome_iff rfl ha,
      axis_stepsPerMm.isSome_iff rfl ha]
    simp only [Layout.axis, List.forall_mem_cons]
    exact ⟨fun h => ⟨h.1, h.2.1, h.2.2, nofun⟩, fun h => ⟨h.1, h.2.1, h.2.2.1⟩⟩

theorem exists_machine_iff (ht : Shaped t) :
    (∃ m, machine.ofEntries t = .ok m) ↔ (Layout.machine IsReal).Fits t := by
  have hlevel (v : Value) (hv : ("log_level", v) ∈ t) : IsString v :=
    ht _ hv _ List.mem_cons_self rfl
  have haxes (v : Value) (hv : ("axes", v) ∈ t) : IsTables ShapedAxis v :=
    ht _ hv _ (List.mem_cons_of_mem _ List.mem_cons_self) rfl
  refine Record.exists_ofEntries_iff rfl ?_ fun m hm => ?_
  · simp only [Layout.machine, List.forall_mem_cons]
    exact ⟨fun v hv d => (machine_logLevel.exists_entry_iff v d).trans
        (exists_level_iff (hlevel v hv)),
      fun v hv d => (machine_axes.exists_entry_iff v d).trans
        (exists_map_iff.trans (Record.exists_list_iff (haxes v hv) fun _ => exists_axis_iff)),
      nofun⟩
  · have hfinish : (∃ x, machine.finish m = .ok x) ↔ m.axes.isSome := by
      obtain ⟨logLevel, axes⟩ := m
      cases axes <;> simp [machine]
    rw [hfinish, machine_axes.isSome_iff rfl hm]
    simp [Layout.machine]

end Records

/-! ## Keys that are left out -/

/-- The kinds of tables of a document. -/
inductive TableKind where
  | machine
  | axis
  | homing
  | motor

/-- A key that a table of a kind may leave out, and the value that it then stands for. -/
inductive Default : TableKind → String → Value → Prop
  | logLevel : Default .machine "log_level" (.string "info")
  | motors (openEnded : Bool) (origin : Origin) :
      Default .axis "motors" (.array openEnded [.table origin []])
  | seekRate : Default .homing "seek_mpm" (.float HomingSettings.default.seekRate)
  | feedRate : Default .homing "feed_mpm" (.float HomingSettings.default.feedRate)
  | settle : Default .homing "settle_ms" (.integer (HomingSettings.default (α := Float)).settle)
  | positiveDirection :
      Default .homing "positive_direction"
        (.boolean (HomingSettings.default (α := Float)).positiveDirection)
  | reference : Default .homing "mpos_mm" (.float HomingSettings.default.reference)
  | seekScaler : Default .homing "seek_scaler" (.float HomingSettings.default.seekScaler)
  | feedScaler : Default .homing "feed_scaler" (.float HomingSettings.default.feedScaler)
  | pulloff : Default .motor "pulloff_mm" (.float MotorSettings.default.pulloff)
  | limitSwitch :
      Default .motor "limit_switch" (.boolean (MotorSettings.default (α := Float)).limitSwitch)

/-- The second table is the first one with a key more, which was left out in it or in a table below
it, and which now has the value that it stood for. -/
inductive Spelled : TableKind → Entries → Entries → Prop
  | here {kind : TableKind} {front back : Entries} {key : String} {v : Value}
      (hdefault : Default kind key v) (hkey : key ∉ (front ++ back).map Prod.fst) :
      Spelled kind (front ++ back) (front ++ (key, v) :: back)
  | homing {front back t t' : Entries} {origin : Origin} (h : Spelled .homing t t') :
      Spelled .axis (front ++ ("homing", .table origin t) :: back)
        (front ++ ("homing", .table origin t') :: back)
  | motor {front back t t' : Entries} {origin : Origin} {openEnded : Bool}
      {before after : List Value} (h : Spelled .motor t t') :
      Spelled .axis
        (front ++ ("motors", .array openEnded (before ++ .table origin t :: after)) :: back)
        (front ++ ("motors", .array openEnded (before ++ .table origin t' :: after)) :: back)
  | axis {front back t t' : Entries} {origin : Origin} {openEnded : Bool}
      {before after : List Value} (h : Spelled .axis t t') :
      Spelled .machine
        (front ++ ("axes", .array openEnded (before ++ .table origin t :: after)) :: back)
        (front ++ ("axes", .array openEnded (before ++ .table origin t' :: after)) :: back)

/-- Two tables of a kind are read alike, errors included. -/
def Alike : TableKind → Entries → Entries → Prop
  | .machine, t, t' => machine.ofEntries t' = machine.ofEntries t
  | .axis, t, t' => axis.ofEntries t' = axis.ofEntries t
  | .homing, t, t' => homing.ofEntries t' = homing.ofEntries t
  | .motor, t, t' => motor.ofEntries t' = motor.ofEntries t

theorem ofEntries_motor_nil : motor.ofEntries [] = .ok .default := by
  simp only [Record.ofEntries, Record.sorted, List.mergeSort_nil]
  rfl

theorem ofEntries_homing_nil : homing.ofEntries [] = .ok .default := by
  simp only [Record.ofEntries, Record.sorted, List.mergeSort_nil]
  rfl

theorem milliseconds_default :
    milliseconds (.integer (HomingSettings.default (α := Float)).settle) =
      .ok (HomingSettings.default (α := Float)).settle := by
  simp [milliseconds, natural, powerOfTwo, HomingSettings.default]

/-- A key that is written down with the value that it stood for is read as if it were left out. -/
theorem Default.alike {kind : TableKind} {key : String} {v : Value} (h : Default kind key v)
    {front back : Entries} (hkey : key ∉ (front ++ back).map Prod.fst) :
    Alike kind (front ++ back) (front ++ (key, v) :: back) := by
  cases h with
  | logLevel => exact machine_logLevel.ofEntries_insert rfl hkey
  | motors openEnded origin =>
      refine axis_motors.ofEntries_insert ?_ hkey
      simp only [list, List.mapM_cons, Record.read, ofEntries_motor_nil]
      rfl
  | seekRate => exact homing_seekRate.ofEntries_insert rfl hkey
  | feedRate => exact homing_feedRate.ofEntries_insert rfl hkey
  | settle => exact homing_settle.ofEntries_insert milliseconds_default hkey
  | positiveDirection => exact homing_positiveDirection.ofEntries_insert rfl hkey
  | reference => exact homing_reference.ofEntries_insert rfl hkey
  | seekScaler => exact homing_seekScaler.ofEntries_insert rfl hkey
  | feedScaler => exact homing_feedScaler.ofEntries_insert rfl hkey
  | pulloff => exact motor_pulloff.ofEntries_insert rfl hkey
  | limitSwitch => exact motor_limitSwitch.ofEntries_insert rfl hkey

/-- Written down at any level, a key is read as if it were left out. -/
theorem Spelled.alike {kind : TableKind} {t t' : Entries} (h : Spelled kind t t') :
    Alike kind t t' := by
  induction h with
  | here hdefault hkey => exact hdefault.alike hkey
  | @homing front back t t' origin _ ih =>
      have hread : Schema.homing.read (.table origin t') = Schema.homing.read (.table origin t) :=
        ih
      refine Record.ofEntries_congr fun d => ?_
      simp only [Schema.axis, hread]
  | @motor front back t t' origin openEnded before after _ ih =>
      have hread : Schema.motor.read (.table origin t') = Schema.motor.read (.table origin t) := ih
      refine Record.ofEntries_congr fun d => ?_
      exact congrArg (Except.map fun motors => { d with motors }) (mapM_congr hread)
  | @axis front back t t' origin openEnded before after _ ih =>
      have hread : Schema.axis.read (.table origin t') = Schema.axis.read (.table origin t) := ih
      refine Record.ofEntries_congr fun d => ?_
      exact congrArg (Except.map fun axes => { d with axes := some axes }) (mapM_congr hread)

/-! ## What comes of it -/

/-- What an axis has for the keys that its table leaves out, and for tables that are empty. -/
structure AxisDefaultsIn (t : Entries) (a : AxisSettings Float) : Prop where
  motors : "motors" ∉ t.map Prod.fst → a.motors = [.default]
  homing : "homing" ∉ t.map Prod.fst → a.homing = none
  emptyMotor : ∀ (openEnded : Bool) (items : List Value),
    valuesOf "motors" t = [.array openEnded items] →
      ∀ (i : Nat) (origin : Origin), items[i]? = some (.table origin []) →
        a.motors[i]? = some .default
  emptyHoming : ∀ origin : Origin, valuesOf "homing" t = [.table origin []] →
    a.homing = some .default
  cycle : ∀ (origin : Origin) (u : Entries), valuesOf "homing" t = [.table origin u] →
    "cycle" ∉ u.map Prod.fst → ∃ h, a.homing = some h ∧ h.cycle = none

/-- What a machine and its axes have for the keys that the document leaves out, and for tables that
are empty. -/
structure DefaultsIn (t : Entries) (m : MachineSettings Float) : Prop where
  logLevel : "log_level" ∉ t.map Prod.fst → m.logLevel = .info
  axis : ∀ (openEnded : Bool) (items : List Value),
    valuesOf "axes" t = [.array openEnded items] →
      ∀ (i : Nat) (origin : Origin) (u : Entries), items[i]? = some (.table origin u) →
        ∃ a, m.axes[i]? = some a ∧ AxisDefaultsIn u a

section Results

variable {t : Entries}

/-- A finished axis has the parts of what was known. -/
theorem finish_axis {d : AxisDraft} {a : AxisSettings Float} (h : axis.finish d = .ok a) :
    a.homing = d.homing ∧ a.motors = d.motors := by
  obtain ⟨name, maxTravel, stepsPerMm, homing, motors⟩ := d
  cases name <;> cases maxTravel <;> cases stepsPerMm <;> cases h
  exact ⟨rfl, rfl⟩

theorem axisDefaultsIn_of_ofEntries {a : AxisSettings Float} (h : axis.ofEntries t = .ok a) :
    AxisDefaultsIn t a := by
  obtain ⟨d, hd, hfinish⟩ := Record.ofEntries_eq_ok_iff.1 h
  obtain ⟨hhoming, hmotors⟩ := finish_axis hfinish
  have hread {origin : Origin} {u : Entries} (hu : valuesOf "homing" t = [.table origin u]) :
      ∃ p, homing.ofEntries u = .ok p ∧ a.homing = some p := by
    obtain ⟨p, hp, hsome⟩ := exists_of_map_eq_ok (axis_homing.parse_of_values hd hu)
    exact ⟨p, hp, hhoming.trans hsome.symm⟩
  refine
    { motors := fun hkey => hmotors.trans (axis_motors.get_of_not_mem hd hkey)
      homing := fun hkey => hhoming.trans (axis_homing.get_of_not_mem hd hkey)
      emptyMotor := fun openEnded items hitems i origin hi => ?_
      emptyHoming := fun origin hempty => ?_
      cycle := fun origin u hu hkey => ?_ }
  · have hlist := axis_motors.parse_of_values hd hitems
    obtain ⟨mo, hmo, hitem⟩ := getElem?_of_mapM hlist hi
    obtain rfl := Except.ok.inj (ofEntries_motor_nil.symm.trans hitem)
    rw [hmotors, hmo]
  · obtain ⟨p, hp, hsome⟩ := hread hempty
    obtain rfl := Except.ok.inj (ofEntries_homing_nil.symm.trans hp)
    exact hsome
  · obtain ⟨p, hp, hsome⟩ := hread hu
    obtain ⟨q, hq, hfin⟩ := Record.ofEntries_eq_ok_iff.1 hp
    obtain rfl := Except.ok.inj hfin
    exact ⟨q, hsome, homing_cycle.get_of_not_mem hq hkey⟩

theorem defaultsIn_of_ofEntries {m : MachineSettings Float} (h : machine.ofEntries t = .ok m) :
    DefaultsIn t m := by
  obtain ⟨d, hd, hfinish⟩ := Record.ofEntries_eq_ok_iff.1 h
  have hparts : m.logLevel = d.logLevel ∧ d.axes = some m.axes := by
    obtain ⟨logLevel, axes⟩ := d
    cases axes <;> cases hfinish
    exact ⟨rfl, rfl⟩
  refine ⟨fun hkey => hparts.1.trans (machine_logLevel.get_of_not_mem hd hkey),
    fun openEnded items hitems i origin u hu => ?_⟩
  obtain ⟨axes, hlist, hsome⟩ := exists_of_map_eq_ok (machine_axes.parse_of_values hd hitems)
  obtain rfl := Option.some.inj (hsome.trans hparts.2)
  obtain ⟨a, ha, hitem⟩ := getElem?_of_mapM hlist hu
  exact ⟨a, ha, axisDefaultsIn_of_ofEntries hitem⟩

end Results

end Homing.Schema

namespace Homing

open Schema
open Toml (Value Entries Origin)

/-- Where tables stand in their places, a document holds settings exactly if it has no unknown key,
no key is missing and each value has the type of its key, where an integer of 64 bits, with a sign
or without, is a float too. A key that may be left out is read, at any level, as if it were written
down with the value that it stands for; and what is read has these values. -/
theorem MachineSettings.ofTable_reads :
    (∀ t, Shaped t → ((∃ m, ofTable t = .ok m) ↔ (Layout.machine IsReal).Fits t)) ∧
    (∀ t t', Spelled .machine t t' → ofTable t' = ofTable t) ∧
    ∀ t m, ofTable t = .ok m → DefaultsIn t m :=
  ⟨fun _ => exists_machine_iff, fun _ _ h => h.alike, fun _ _ => defaultsIn_of_ofEntries⟩

/-- A machine with one axis, which has a motor for which nothing is written down. -/
def oneAxis (travel : Value) (homing : Entries) : Entries :=
  [("axes", .array true [.table .header
    [("name", .string "X"), ("max_travel_mm", travel), ("steps_per_mm", .float 80.0),
      ("homing", .table .header homing), ("motors", .array true [.table .header []])]])]

theorem shaped_oneAxis (travel : Value) (homing : Entries) : Shaped (oneAxis travel homing) := by
  simp [Shaped, ShapedAxis, ValuesAre, oneAxis, isTables_array, isTable_table]

theorem fits_motor_nil {number : Value → Prop} : (Layout.motor number).Fits [] :=
  ⟨nofun, nofun, nofun⟩

/-- Any travel that is taken for a number makes a machine. -/
theorem fits_oneAxis_iff {number : Value → Prop} {travel : Value} {homing : Entries}
    (hsteps : number (.float 80.0)) : (Layout.machine number).Fits (oneAxis travel homing) ↔
      number travel ∧ (Layout.homing number).Fits homing := by
  have hmachine {t : Entries} {origin : Origin} :
      (Layout.machine number).Fits [("axes", .array true [.table origin t])] ↔
        (Layout.axis number).Fits t := by
    rw [Layout.fits_iff]
    simp [ValuesAre, Layout.machine, isTables_array, isTable_table]
  rw [oneAxis, hmachine, Layout.fits_iff]
  simp [ValuesAre, Layout.axis, isTables_array, isTable_table, hsteps, fits_motor_nil, IsString]

/-- A settling time that is left out is read as if the 250 ms were written down. -/
theorem MachineSettings.ofTable_reads_oneAxis :
    Shaped (oneAxis (.integer 300) []) ∧
    Spelled .machine (oneAxis (.integer 300) [])
      (oneAxis (.integer 300) [("settle_ms", .integer 250)]) ∧
    ∃ m, ofTable (oneAxis (.integer 300) []) = .ok m ∧
      ofTable (oneAxis (.integer 300) [("settle_ms", .integer 250)]) = .ok m ∧
      DefaultsIn (oneAxis (.integer 300) []) m := by
  have hshaped := shaped_oneAxis (.integer 300) []
  have hspelled : Spelled .machine (oneAxis (.integer 300) [])
      (oneAxis (.integer 300) [("settle_ms", .integer 250)]) :=
    @Spelled.axis [] [] _ _ _ _ [] [] <|
      @Spelled.homing [_, _, _] [_] _ _ _ (@Spelled.here .homing [] [] _ _ .settle nofun)
  have hfits : (Layout.machine IsReal).Fits (oneAxis (.integer 300) []) :=
    (fits_oneAxis_iff (.inl ⟨_, rfl⟩)).2 ⟨.inr ⟨300, rfl, by decide⟩, nofun, nofun, nofun⟩
  obtain ⟨m, hm⟩ := (ofTable_reads.1 _ hshaped).2 hfits
  exact ⟨hshaped, hspelled, m, hm, (ofTable_reads.2.1 _ _ hspelled).trans hm,
    ofTable_reads.2.2 _ m hm⟩

/-- An integer of 65 bits is no travel, although it is a number. -/
theorem not_ofTable_wideTravel :
    Shaped (oneAxis (.integer (2 ^ 64)) []) ∧
    (Layout.machine IsNumber).Fits (oneAxis (.integer (2 ^ 64)) []) ∧
    ¬ ∃ m, MachineSettings.ofTable (oneAxis (.integer (2 ^ 64)) []) = .ok m := by
  have hshaped := shaped_oneAxis (.integer (2 ^ 64)) []
  refine ⟨hshaped, (fits_oneAxis_iff (.inl ⟨_, rfl⟩)).2 ⟨.inr ⟨_, rfl⟩, nofun, nofun, nofun⟩,
    fun hread => ?_⟩
  have hfits := (exists_machine_iff hshaped).1 hread
  rcases ((fits_oneAxis_iff (.inl ⟨_, rfl⟩)).1 hfits).1 with ⟨x, hx⟩ | ⟨n, hn, -, hlt⟩
  · cases hx
  · cases hn
    exact absurd hlt (by decide)

end Homing
