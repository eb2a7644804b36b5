import Homing.Proofs.Settings.Sound
import Homing.Settings.Load

/-!
# The fault that is named

Validation makes nine checks on each axis. `AxisCheck.Passes` says what each of them asks for,
apart from the others and from the order in which they are made, and `AxisCheck.fault?` what is
named where it fails. `FirstFailed` is then the first check that fails on a list of axes: the axes
before its own pass every check, and its own axis passes the checks before it.

The main results say that validation accepts exactly the settings that pass every check
(`MachineSettings.validate_eq_ok_iff_accepted`), that it refuses all others with the fault of the
first failed check (`MachineSettings.validate_eq_error_iff_firstFault`), and that what is loaded,
as a text or from a file, has gone through validation (`MachineSettings.validate_load_iff`).
-/

namespace Homing

section

variable {α : Type u} [Scalar α]

/-- What is checked about one axis. -/
inductive AxisCheck where
  | name
  | maxTravel
  | stepsPerMm
  | motorCount
  | pulloff
  | seekRate
  | feedRate
  | scalers
  | cycle
deriving DecidableEq

namespace AxisCheck

/-- The place of a check in the order in which they are made. -/
def place : AxisCheck → Nat
  | name => 0
  | maxTravel => 1
  | stepsPerMm => 2
  | motorCount => 3
  | pulloff => 4
  | seekRate => 5
  | feedRate => 6
  | scalers => 7
  | cycle => 8

theorem eq_of_place_eq {c d : AxisCheck} (h : c.place = d.place) : c = d := by
  revert h
  cases c <;> cases d <;> decide

/-- Whether an axis passes a check, on a machine with `axisCount` axes of which the earlier ones
have the names `earlier`. An axis that never homes passes the checks about homing. -/
def Passes (axisCount : Nat) (earlier : List String) (a : AxisSettings α) : AxisCheck → Prop
  | name => a.name ∉ earlier
  | maxTravel => Scalar.lt 0.0 a.maxTravel = true
  | stepsPerMm => Scalar.lt 0.0 a.stepsPerMm = true
  | motorCount => 1 ≤ a.motors.length ∧ a.motors.length ≤ maxMotorsPerAxis
  | pulloff => ∀ mo ∈ a.motors, Scalar.lt mo.pulloff 0.0 = false
  | seekRate => ∀ h, a.homing = some h → Scalar.lt 0.0 h.seekRate = true
  | feedRate => ∀ h, a.homing = some h → Scalar.lt 0.0 h.feedRate = true
  | scalers => ∀ h, a.homing = some h →
      Scalar.lt 0.0 h.seekScaler = true ∧ Scalar.lt 0.0 h.feedScaler = true
  | cycle => ∀ h, a.homing = some h → ∀ k, h.cycle = some k → 1 ≤ k ∧ k ≤ axisCount

/-- What is named where an axis fails a check. Of several negative pull-offs it is the first. -/
def fault? (axisCount : Nat) (a : AxisSettings α) : AxisCheck → Option (MachineFault α)
  | name => some (.duplicateName a.name)
  | maxTravel => some (.axis a.name (.maxTravel a.maxTravel))
  | stepsPerMm => some (.axis a.name (.stepsPerMm a.stepsPerMm))
  | motorCount => some (.axis a.name (.motorCount a.motors.length))
  | pulloff => (a.motors.find? fun mo => Scalar.lt mo.pulloff 0.0).map fun mo =>
      .axis a.name (.pulloff mo.pulloff)
  | seekRate => a.homing.map fun h => .axis a.name (.homing (.seekRate h.seekRate))
  | feedRate => a.homing.map fun h => .axis a.name (.homing (.feedRate h.feedRate))
  | scalers => a.homing.map fun h => .axis a.name (.homing (.scalers h.seekScaler h.feedScaler))
  | cycle => a.homing.bind fun h => h.cycle.map fun k =>
      .axis a.name (.homing (.cycle k axisCount))

/-- Only the check of the name looks at the earlier names, and not at their order. -/
theorem passes_congr {axisCount : Nat} {earlier others : List String} {a : AxisSettings α}
    {c : AxisCheck} (h : ∀ s, s ∈ earlier ↔ s ∈ others) :
    c.Passes axisCount earlier a ↔ c.Passes axisCount others a := by
  cases c with
  | name => exact not_congr (h a.name)
  | _ => exact Iff.rfl

end AxisCheck

/-- An axis passes the first `n` checks. -/
def PassesBefore (axisCount : Nat) (earlier : List String) (a : AxisSettings α) (n : Nat) : Prop :=
  ∀ d : AxisCheck, d.place < n → d.Passes axisCount earlier a

section OneAxis

variable {axisCount : Nat} {earlier : List String} {a : AxisSettings α}

theorem PassesBefore.snoc {c : AxisCheck} (h : PassesBefore axisCount earlier a c.place)
    (hc : c.Passes axisCount earlier a) : PassesBefore axisCount earlier a (c.place + 1) := by
  intro d hd
  rcases Nat.lt_succ_iff_lt_or_eq.1 hd with hlt | heq
  · exact h d hlt
  · exact AxisCheck.eq_of_place_eq heq ▸ hc

/-- An axis whose quantities are accepted passes every check, if its name is new and the number
of its cycle is in range. -/
theorem AxisSettings.Accepted.passes (hok : a.Accepted) (hname : a.name ∉ earlier)
    (hcycle : ∀ h, a.homing = some h → ∀ k, h.cycle = some k → 1 ≤ k ∧ k ≤ axisCount)
    (c : AxisCheck) : c.Passes axisCount earlier a := by
  cases c with
  | name => exact hname
  | maxTravel => exact hok.maxTravel
  | stepsPerMm => exact hok.stepsPerMm
  | motorCount => exact ⟨List.length_pos_of_ne_nil hok.motors, hok.motorCount⟩
  | pulloff => exact hok.pulloff
  | seekRate => exact fun h hh => (hok.homing h hh).seekRate
  | feedRate => exact fun h hh => (hok.homing h hh).feedRate
  | scalers => exact fun h hh => ⟨(hok.homing h hh).seekScaler, (hok.homing h hh).feedScaler⟩
  | cycle => exact hcycle

theorem AxisSettings.cycle_le_of_fault? (hf : a.fault? axisCount = none) (h : HomingSettings α)
    (hh : a.homing = some h) (k : Nat) (hk : h.cycle = some k) : 1 ≤ k ∧ k ≤ axisCount :=
  HomingSettings.cycle_le_of_fault? (AxisSettings.homing_fault?_of_fault? hf hh) hk

/-- An axis without a fault and with a new name passes every check. -/
theorem passes_of_fault?_eq_none (hname : a.name ∉ earlier) (hf : a.fault? axisCount = none)
    (c : AxisCheck) : c.Passes axisCount earlier a :=
  (AxisSettings.accepted_of_fault? hf).passes hname (AxisSettings.cycle_le_of_fault? hf) c

/-- The check `c` is the first that an axis fails. -/
structure FirstOnAxis (axisCount : Nat) (earlier : List String) (a : AxisSettings α)
    (c : AxisCheck) : Prop where
  prior : PassesBefore axisCount earlier a c.place
  failed : ¬ c.Passes axisCount earlier a

/-- A fault of homing parameters is that of the first check about them that fails. -/
theorem exists_firstOnAxis_of_homing {h : HomingSettings α} {g : HomingFault α}
    (hh : a.homing = some h) (hf : h.fault? axisCount = some g)
    (hprior : PassesBefore axisCount earlier a AxisCheck.seekRate.place) :
    ∃ c, FirstOnAxis axisCount earlier a c ∧
      c.fault? axisCount a = some (.axis a.name (.homing g)) := by
  unfold HomingSettings.fault? at hf
  split at hf
  case isTrue hseek =>
    obtain rfl := Option.some.inj hf
    refine ⟨.seekRate, ⟨hprior, fun hpass => ?_⟩, by rw [AxisCheck.fault?, hh]; rfl⟩
    rw [hpass h hh] at hseek
    cases hseek
  case isFalse hseek =>
  have hprior := hprior.snoc (c := .seekRate) fun g hg => by
    obtain rfl := Option.some.inj (hh.symm.trans hg)
    simpa using hseek
  split at hf
  case isTrue hfeed =>
    obtain rfl := Option.some.inj hf
    refine ⟨.feedRate, ⟨hprior, fun hpass => ?_⟩, by rw [AxisCheck.fault?, hh]; rfl⟩
    rw [hpass h hh] at hfeed
    cases hfeed
  case isFalse hfeed =>
  have hprior := hprior.snoc (c := .feedRate) fun g hg => by
    obtain rfl := Option.some.inj (hh.symm.trans hg)
    simpa using hfeed
  split at hf
  case isTrue hscalers =>
    obtain rfl := Option.some.inj hf
    refine ⟨.scalers, ⟨hprior, fun hpass => ?_⟩, by rw [AxisCheck.fault?, hh]; rfl⟩
    obtain ⟨hseek, hfeed⟩ := hpass h hh
    rw [hseek, hfeed] at hscalers
    cases hscalers
  case isFalse hscalers =>
  have hprior := hprior.snoc (c := .scalers) fun g hg => by
    obtain rfl := Option.some.inj (hh.symm.trans hg)
    simpa using hscalers
  cases hk : h.cycle with
  | none => simp [hk] at hf
  | some k =>
      simp only [hk] at hf
      split at hf
      case isFalse => cases hf
      case isTrue hrange =>
        obtain rfl := Option.some.inj hf
        refine ⟨.cycle, ⟨hprior, fun hpass => ?_⟩, by rw [AxisCheck.fault?, hh]; simp [hk]⟩
        have := hpass h hh k hk
        omega

/-- A fault of an axis with a new name is that of the first check that fails. -/
theorem exists_firstOnAxis {g : AxisFault α} (hname : a.name ∉ earlier)
    (hf : a.fault? axisCount = some g) :
    ∃ c, FirstOnAxis axisCount earlier a c ∧ c.fault? axisCount a = some (.axis a.name g) := by
  have hprior : PassesBefore axisCount earlier a (AxisCheck.name.place + 1) :=
    PassesBefore.snoc (c := .name) (fun _ hlt => absurd hlt (Nat.not_lt_zero _)) hname
  unfold AxisSettings.fault? at hf
  split at hf
  case isTrue htravel =>
    obtain rfl := Option.some.inj hf
    refine ⟨.maxTravel, ⟨hprior, fun hpass => ?_⟩, rfl⟩
    rw [show Scalar.lt 0.0 a.maxTravel = true from hpass] at htravel
    cases htravel
  case isFalse htravel =>
  have hprior := hprior.snoc (c := .maxTravel) (by simpa [AxisCheck.Passes] using htravel)
  split at hf
  case isTrue hsteps =>
    obtain rfl := Option.some.inj hf
    refine ⟨.stepsPerMm, ⟨hprior, fun hpass => ?_⟩, rfl⟩
    rw [show Scalar.lt 0.0 a.stepsPerMm = true from hpass] at hsteps
    cases hsteps
  case isFalse hsteps =>
  have hprior := hprior.snoc (c := .stepsPerMm) (by simpa [AxisCheck.Passes] using hsteps)
  split at hf
  case isTrue hcount =>
    obtain rfl := Option.some.inj hf
    refine ⟨.motorCount, ⟨hprior, fun hpass => ?_⟩, rfl⟩
    obtain ⟨hpos, hle⟩ := hpass
    omega
  case isFalse hcount =>
  have hprior := hprior.snoc (c := .motorCount)
    (show 1 ≤ a.motors.length ∧ a.motors.length ≤ maxMotorsPerAxis by omega)
  cases hfind : a.motors.find? fun mo => Scalar.lt mo.pulloff 0.0 with
  | some mo =>
      simp only [hfind] at hf
      obtain rfl := Option.some.inj hf
      refine ⟨.pulloff, ⟨hprior, fun hpass => ?_⟩, by rw [AxisCheck.fault?, hfind]; rfl⟩
      have hneg := List.find?_some hfind
      rw [hpass mo (List.mem_of_find?_eq_some hfind)] at hneg
      cases hneg
  | none =>
      simp only [hfind] at hf
      have hprior := hprior.snoc (c := .pulloff) fun mo hmo =>
        Bool.eq_false_iff.2 (List.find?_eq_none.1 hfind mo hmo)
      obtain ⟨g, hg, rfl⟩ := Option.map_eq_some_iff.1 hf
      obtain ⟨h, hh, hg⟩ := Option.bind_eq_some_iff.1 hg
      exact exists_firstOnAxis_of_homing hh hg hprior

end OneAxis

/-! ## A list of axes -/

/-- The check `c` of the axis `a`, which has the number `n`, is the first that fails on a list of
axes, when the axes before the list have the names `earlier`. -/
structure FirstFailed (axisCount : Nat) (earlier : List String) (axes : List (AxisSettings α))
    (n : Nat) (a : AxisSettings α) (c : AxisCheck) : Prop where
  axis : axes[n]? = some a
  before : ∀ k < n, ∀ b, axes[k]? = some b →
    ∀ d : AxisCheck, d.Passes axisCount (earlier ++ (axes.take k).map (·.name)) b
  first : FirstOnAxis axisCount (earlier ++ (axes.take n).map (·.name)) a c

variable {axisCount : Nat} {earlier : List String} {axes : List (AxisSettings α)}

omit [Scalar α] in
/-- One axis more at the front of a list. -/
theorem mem_earlier_cons {a : AxisSettings α} {k : Nat} (s : String) :
    s ∈ a.name :: earlier ++ (axes.take k).map (·.name) ↔
      s ∈ earlier ++ ((a :: axes).take (k + 1)).map (·.name) := by
  simp only [List.cons_append, List.mem_cons, List.mem_append, List.take_succ_cons, List.map_cons]
  exact or_left_comm

theorem FirstFailed.cons {a b : AxisSettings α} {n : Nat} {c : AxisCheck}
    (h : FirstFailed axisCount (a.name :: earlier) axes n b c)
    (ha : ∀ d : AxisCheck, d.Passes axisCount earlier a) :
    FirstFailed axisCount earlier (a :: axes) (n + 1) b c where
  axis := by rw [List.getElem?_cons_succ, h.axis]
  before k hk b hb d := by
    cases k with
    | zero =>
        rw [List.getElem?_cons_zero] at hb
        obtain rfl := Option.some.inj hb
        simpa using ha d
    | succ k =>
        rw [List.getElem?_cons_succ] at hb
        exact (AxisCheck.passes_congr mem_earlier_cons).1
          (h.before k (Nat.lt_of_succ_lt_succ hk) b hb d)
  first :=
    { prior := fun d hd => (AxisCheck.passes_congr mem_earlier_cons).1 (h.first.prior d hd)
      failed := fun hpass => h.first.failed ((AxisCheck.passes_congr mem_earlier_cons).2 hpass) }

/-- The fault of a list of axes is that of the first failed check. -/
theorem exists_firstFailed {f : MachineFault α} (hf : axesFault? axisCount earlier axes = some f) :
    ∃ n a c, FirstFailed axisCount earlier axes n a c ∧ c.fault? axisCount a = some f := by
  induction axes generalizing earlier with
  | nil => cases hf
  | cons a axes ih =>
      have hhere {c : AxisCheck} (hc : FirstOnAxis axisCount earlier a c) :
          FirstFailed axisCount earlier (a :: axes) 0 a c :=
        ⟨rfl, fun _ hk => absurd hk (Nat.not_lt_zero _), by simpa using hc⟩
      rw [axesFault?] at hf
      split at hf
      case isTrue hseen =>
        obtain rfl := Option.some.inj hf
        refine ⟨0, a, .name, hhere ⟨fun _ hlt => absurd hlt (Nat.not_lt_zero _), ?_⟩, rfl⟩
        exact fun hpass => hpass hseen
      case isFalse hnew =>
      cases ha : a.fault? axisCount with
      | some g =>
          rw [ha] at hf
          obtain rfl := Option.some.inj hf
          obtain ⟨c, hc, hfault⟩ := exists_firstOnAxis hnew ha
          exact ⟨0, a, c, hhere hc, hfault⟩
      | none =>
          rw [ha] at hf
          obtain ⟨n, b, c, hfirst, hfault⟩ := ih hf
          exact ⟨n + 1, b, c, hfirst.cons (passes_of_fault?_eq_none hnew ha), hfault⟩

/-- Axes without a fault pass every check. -/
theorem passes_of_axesFault?_eq_none (hf : axesFault? axisCount earlier axes = none) {n : Nat}
    {a : AxisSettings α} (ha : axes[n]? = some a) (c : AxisCheck) :
    c.Passes axisCount (earlier ++ (axes.take n).map (·.name)) a := by
  induction axes generalizing earlier n with
  | nil => cases ha
  | cons b axes ih =>
      rw [axesFault?] at hf
      split at hf
      case isTrue => cases hf
      case isFalse hnew =>
      cases hb : b.fault? axisCount with
      | some g => simp [hb] at hf
      | none =>
          rw [hb] at hf
          cases n with
          | zero =>
              obtain rfl := Option.some.inj ha
              simpa using passes_of_fault?_eq_none hnew hb c
          | succ n =>
              rw [List.getElem?_cons_succ] at ha
              exact (AxisCheck.passes_congr mem_earlier_cons).1 (ih hf ha)

/-- There is one first failed check. -/
theorem FirstFailed.unique {n k : Nat} {a b : AxisSettings α} {c d : AxisCheck}
    (h : FirstFailed axisCount earlier axes n a c) (g : FirstFailed axisCount earlier axes k b d) :
    a = b ∧ c = d := by
  have hnk : n = k := by
    rcases Nat.lt_trichotomy n k with hlt | heq | hgt
    · exact absurd (g.before n hlt a h.axis c) h.first.failed
    · exact heq
    · exact absurd (h.before k hgt b g.axis d) g.first.failed
  subst hnk
  obtain rfl := Option.some.inj (h.axis.symm.trans g.axis)
  refine ⟨rfl, AxisCheck.eq_of_place_eq ?_⟩
  rcases Nat.lt_trichotomy c.place d.place with hlt | heq | hgt
  · exact absurd (g.first.prior c hlt) h.first.failed
  · exact heq
  · exact absurd (h.first.prior d hgt) g.first.failed

/-! ## A machine -/

namespace MachineSettings

/-- A machine has as many axes as there can be. -/
def CountsAxes (m : MachineSettings α) : Prop := 1 ≤ m.axes.length ∧ m.axes.length ≤ maxAxes

/-- The settings describe a machine. -/
structure Accepted (m : MachineSettings α) : Prop where
  count : m.CountsAxes
  names : (m.axes.map (·.name)).Nodup
  axis : ∀ a ∈ m.axes, a.Accepted
  cycle : ∀ a ∈ m.axes, ∀ h, a.homing = some h → ∀ k, h.cycle = some k →
    1 ≤ k ∧ k ≤ m.axes.length

/-- The fault that comes first: the number of axes before all, then that of the first failed
check. -/
inductive FirstFault (m : MachineSettings α) : MachineFault α → Prop
  | axisCount (hcount : ¬ m.CountsAxes) : FirstFault m (.axisCount m.axes.length)
  | axis {n : Nat} {a : AxisSettings α} {c : AxisCheck} {f : MachineFault α} (hcount : m.CountsAxes)
      (hfirst : FirstFailed m.axes.length [] m.axes n a c)
      (hfault : c.fault? m.axes.length a = some f) : FirstFault m f

variable {m : MachineSettings α} {f g : MachineFault α}

theorem FirstFault.unique (hf : m.FirstFault f) (hg : m.FirstFault g) : f = g := by
  cases hf with
  | axisCount hwrong =>
      cases hg with
      | axisCount _ => rfl
      | axis hcount _ _ => exact absurd hcount hwrong
  | axis hcount hfirst hfault =>
      cases hg with
      | axisCount hwrong => exact absurd hcount hwrong
      | axis _ hfirst' hfault' =>
          obtain ⟨rfl, rfl⟩ := hfirst.unique hfirst'
          exact Option.some.inj (hfault.symm.trans hfault')

theorem fault?_of_countsAxes (h : m.CountsAxes) :
    m.fault? = axesFault? m.axes.length [] m.axes := by
  unfold CountsAxes at h
  rw [fault?, if_neg (by omega)]

theorem firstFault_of_fault? (hf : m.fault? = some f) : m.FirstFault f := by
  by_cases hcount : m.CountsAxes
  · rw [fault?_of_countsAxes hcount] at hf
    obtain ⟨n, a, c, hfirst, hfault⟩ := exists_firstFailed hf
    exact .axis hcount hfirst hfault
  · have hwrong : m.axes.length = 0 ∨ maxAxes < m.axes.length := by
      unfold CountsAxes at hcount
      omega
    rw [fault?, if_pos hwrong] at hf
    obtain rfl := Option.some.inj hf
    exact .axisCount hcount

theorem countsAxes_of_fault? (hf : m.fault? = none) : m.CountsAxes := by
  unfold fault? at hf
  split at hf
  case isTrue => cases hf
  case isFalse hcount =>
    unfold CountsAxes
    omega

omit [Scalar α] in
/-- Names of which none is among the earlier ones are pairwise different. -/
theorem nodup_names (h : ∀ n a, m.axes[n]? = some a → a.name ∉ (m.axes.take n).map (·.name)) :
    (m.axes.map (·.name)).Nodup := by
  rw [List.nodup_iff_pairwise_ne, List.pairwise_map, List.pairwise_iff_getElem]
  intro i j hi hj hij heq
  refine h j _ (List.getElem?_eq_getElem hj) (List.mem_map.2 ⟨m.axes[i], ?_, heq⟩)
  exact List.mem_take_iff_getElem.2 ⟨i, by omega, rfl⟩

theorem accepted_of_fault? (hf : m.fault? = none) : m.Accepted := by
  have hcount := countsAxes_of_fault? hf
  rw [fault?_of_countsAxes hcount] at hf
  refine ⟨hcount, nodup_names fun n a ha => ?_, fun a ha => ?_, fun a ha => ?_⟩
  · exact passes_of_axesFault?_eq_none hf ha .name
  · exact AxisSettings.accepted_of_fault? (fault?_eq_none_of_axesFault? hf ha)
  · exact AxisSettings.cycle_le_of_fault? (fault?_eq_none_of_axesFault? hf ha)

theorem Accepted.name_not_mem (hm : m.Accepted) {n : Nat} {a : AxisSettings α}
    (ha : m.axes[n]? = some a) : a.name ∉ (m.axes.take n).map (·.name) := by
  obtain ⟨hn, rfl⟩ := List.getElem?_eq_some_iff.1 ha
  have hpairwise := hm.names
  rw [List.nodup_iff_pairwise_ne, List.pairwise_map, List.pairwise_iff_getElem] at hpairwise
  intro hmem
  obtain ⟨b, hb, hname⟩ := List.mem_map.1 hmem
  obtain ⟨k, hk, rfl⟩ := List.mem_take_iff_getElem.1 hb
  exact hpairwise k n (by omega) hn (by omega) hname

/-- Each axis of accepted settings passes every check. -/
theorem Accepted.passes (hm : m.Accepted) {n : Nat} {a : AxisSettings α} (ha : m.axes[n]? = some a)
    (c : AxisCheck) : c.Passes m.axes.length ((m.axes.take n).map (·.name)) a :=
  have hmem := List.mem_of_getElem? ha
  (hm.axis a hmem).passes (hm.name_not_mem ha) (hm.cycle a hmem) c

theorem Accepted.not_firstFault (hm : m.Accepted) : ¬ m.FirstFault f := by
  intro hf
  cases hf with
  | axisCount hwrong => exact hwrong hm.count
  | axis _ hfirst _ => exact hfirst.first.failed (hm.passes hfirst.axis _)

/-- Settings without a first fault, and no others, are accepted. -/
theorem fault?_eq_none_iff_accepted : m.fault? = none ↔ m.Accepted := by
  refine ⟨accepted_of_fault?, fun hm => ?_⟩
  cases hf : m.fault? with
  | none => rfl
  | some f => exact absurd (firstFault_of_fault? hf) hm.not_firstFault

theorem fault?_eq_some_iff_firstFault : m.fault? = some f ↔ m.FirstFault f := by
  refine ⟨firstFault_of_fault?, fun hfirst => ?_⟩
  cases hf : m.fault? with
  | none => exact absurd hfirst (accepted_of_fault? hf).not_firstFault
  | some g => rw [(firstFault_of_fault? hf).unique hfirst]

theorem validate_eq_ok_iff_accepted : m.validate = .ok () ↔ m.Accepted :=
  validate_eq_ok_iff.trans fault?_eq_none_iff_accepted

theorem validate_eq_error_iff_firstFault : m.validate = .error f ↔ m.FirstFault f := by
  rw [← fault?_eq_some_iff_firstFault, validate]
  cases m.fault? <;> simp

end MachineSettings

end

/-! ## Loading -/

namespace MachineSettings

variable {m : MachineSettings Float} {text : String}

/-- The text holds the records of the machine `m`, whether they are faulty or not. -/
def HeldBy (m : MachineSettings Float) (text : String) : Prop :=
  ∃ entries, Toml.parse text = .ok entries ∧ ofTable entries = .ok m

/-- A text that holds a machine is judged by the faults of the machine. -/
theorem HeldBy.ofToml_eq (h : m.HeldBy text) :
    ofToml text = match m.fault? with
      | some f => .error (.invalid f)
      | none => .ok m := by
  obtain ⟨entries, hparse, htable⟩ := h
  cases hfault : m.fault? <;> simp only [ofToml, hparse, htable, hfault]

/-- Only a text that holds a machine is judged. -/
theorem ofToml_cases (text : String) :
    (∃ m : MachineSettings Float, m.HeldBy text) ∨
      ∃ e, ofToml text = .error e ∧ ∀ f, e ≠ .invalid f := by
  unfold HeldBy ofToml
  cases hparse : Toml.parse text with
  | error fault => exact .inr ⟨.malformed fault, rfl, nofun⟩
  | ok entries =>
      cases htable : ofTable entries with
      | error e => exact .inr ⟨.schema e, by simp only [htable], nofun⟩
      | ok m => exact .inl ⟨m, entries, rfl, htable⟩

theorem ofToml_eq_ok_iff : ofToml text = .ok m ↔ m.HeldBy text ∧ m.fault? = none := by
  constructor
  · intro h
    rcases ofToml_cases text with ⟨n, hn⟩ | ⟨e, he, -⟩
    · rw [hn.ofToml_eq] at h
      cases hf : n.fault? with
      | some f => simp [hf] at h
      | none =>
          rw [hf] at h
          cases h
          exact ⟨hn, hf⟩
    · rw [he] at h
      cases h
  · rintro ⟨hheld, hf⟩
    rw [hheld.ofToml_eq, hf]

theorem ofToml_eq_invalid_iff {f : MachineFault Float} :
    ofToml text = .error (.invalid f) ↔ ∃ m : MachineSettings Float, m.HeldBy text ∧
      m.fault? = some f := by
  constructor
  · intro h
    rcases ofToml_cases text with ⟨n, hn⟩ | ⟨e, he, hother⟩
    · rw [hn.ofToml_eq] at h
      cases hf : n.fault? with
      | none => simp [hf] at h
      | some g =>
          rw [hf] at h
          cases h
          exact ⟨n, hn, hf⟩
    · rw [he] at h
      cases h
      exact absurd rfl (hother f)
  · rintro ⟨m, hheld, hf⟩
    rw [hheld.ofToml_eq, hf]

/-- A file that holds a text loads as the text does. -/
theorem load_bytes_toUTF8 (text : String) : load (.bytes text.toUTF8) = ofToml text := by
  have hread : String.fromUTF8? text.toUTF8 = some text := by
    rw [String.fromUTF8?, String.toUTF8_eq_toByteArray, dif_pos text.isValidUTF8]
    rfl
  rw [load, hread]

/-- Only a file that holds a text loads. -/
theorem load_eq_ok_iff {file : FileContent} :
    load file = .ok m ↔ ∃ text : String, file = .bytes text.toUTF8 ∧ ofToml text = .ok m := by
  constructor
  · intro h
    cases file with
    | missing => cases h
    | unreadable reason => cases h
    | bytes content =>
        by_cases hvalid : content.IsValidUTF8
        · exact ⟨String.fromUTF8 content hvalid, rfl, (load_bytes_toUTF8 _).symm.trans h⟩
        · rw [load, String.fromUTF8?, dif_neg hvalid] at h
          cases h
  · rintro ⟨text, rfl, h⟩
    exact (load_bytes_toUTF8 text).trans h

/-- Validation accepts exactly the settings that pass every check, and refuses all others with the
fault that comes first. A text loads exactly when it holds settings that are accepted, and so does
a file, which loads as the text that it holds. -/
theorem validate_load_iff :
    (∀ m : MachineSettings Float, (m.validate = .ok () ↔ m.Accepted) ∧
      ∀ f, m.validate = .error f ↔ m.FirstFault f) ∧
    (∀ text, (∀ m, ofToml text = .ok m ↔ m.HeldBy text ∧ m.Accepted) ∧
      (∀ f, ofToml text = .error (.invalid f) ↔
        ∃ m : MachineSettings Float, m.HeldBy text ∧ m.FirstFault f) ∧
      load (.bytes text.toUTF8) = ofToml text) ∧
    ∀ file m, load file = .ok m ↔
      ∃ text : String, file = .bytes text.toUTF8 ∧ m.HeldBy text ∧ m.Accepted := by
  have htext (text : String) (m : MachineSettings Float) :
      ofToml text = .ok m ↔ m.HeldBy text ∧ m.Accepted := by
    rw [ofToml_eq_ok_iff, fault?_eq_none_iff_accepted]
  refine ⟨fun m => ⟨validate_eq_ok_iff_accepted, fun f => validate_eq_error_iff_firstFault⟩,
    fun text => ⟨htext text, fun f => ?_, load_bytes_toUTF8 text⟩, fun file m => ?_⟩
  · simp only [ofToml_eq_invalid_iff, fault?_eq_some_iff_firstFault]
  · simp only [load_eq_ok_iff, htext]

end MachineSettings

end Homing
