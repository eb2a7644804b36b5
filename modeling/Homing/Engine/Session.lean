import Homing.Machine

/-!
# Sessions

A `Session` is a machine while the homing engine works on it: its state, whether
the engine is in the middle of an approach, and the journal of what the engine
did. The journal holds every call and every note in one list with the newest
first; `Session.calls` and `Session.notes` read it in the order in which things
happened.

The journal is kept beside the machine and not in it, so that two runs can be
compared by the machines they leave, whatever they logged on the way.
-/

namespace Homing

variable {σ : Type u} {α : Type v}

/-- One entry of a journal. -/
inductive Entry (α : Type v) where
  | call (c : Call α)
  | note (n : Note α)

namespace Entry

/-- The call of an entry. -/
def call? : Entry α → Option (Call α)
  | call c => some c
  | note _ => none

/-- The note of an entry. -/
def note? : Entry α → Option (Note α)
  | call _ => none
  | note n => some n

end Entry

/-- A machine while the engine works on it. -/
structure Session (σ : Type u) (α : Type v) where
  machine : σ
  /-- An approach is running. -/
  approaching : Bool
  /-- What happened, the newest first. -/
  journal : List (Entry α)

namespace Session

/-- A session in which nothing has happened. -/
def begin (machine : σ) : Session σ α := ⟨machine, false, []⟩

/-- The calls of a session, in order. -/
def calls (s : Session σ α) : List (Call α) := s.journal.reverse.filterMap Entry.call?

/-- The notes of a session, in order. -/
def notes (s : Session σ α) : List (Note α) := s.journal.reverse.filterMap Entry.note?

/-- Write a note. -/
def note (n : Note α) (s : Session σ α) : Session σ α := { s with journal := .note n :: s.journal }

/-- Write several notes, in order. -/
def noteAll (ns : List (Note α)) (s : Session σ α) : Session σ α := ns.foldl (fun s n => s.note n) s

/-- Call the machine. The notes that the machine makes follow the call. -/
def call [Machine σ α] (c : Call α) (s : Session σ α) : Session σ α :=
  let (machine, notes) := Machine.apply c s.machine
  noteAll notes { s with machine, journal := .call c :: s.journal }

/-- Say whether an approach is running. -/
def setApproaching (b : Bool) (s : Session σ α) : Session σ α := { s with approaching := b }

@[simp] theorem calls_begin (machine : σ) : (begin machine : Session σ α).calls = [] := rfl

@[simp] theorem machine_note (n : Note α) (s : Session σ α) : (s.note n).machine = s.machine := rfl

@[simp] theorem approaching_note (n : Note α) (s : Session σ α) :
    (s.note n).approaching = s.approaching := rfl

@[simp] theorem calls_note (n : Note α) (s : Session σ α) : (s.note n).calls = s.calls := by
  simp [calls, note, Entry.call?]

@[simp] theorem machine_noteAll (ns : List (Note α)) (s : Session σ α) :
    (s.noteAll ns).machine = s.machine := by
  induction ns generalizing s with
  | nil => rfl
  | cons n ns ih => exact ih (s.note n)

@[simp] theorem approaching_noteAll (ns : List (Note α)) (s : Session σ α) :
    (s.noteAll ns).approaching = s.approaching := by
  induction ns generalizing s with
  | nil => rfl
  | cons n ns ih => exact ih (s.note n)

@[simp] theorem calls_noteAll (ns : List (Note α)) (s : Session σ α) :
    (s.noteAll ns).calls = s.calls := by
  induction ns generalizing s with
  | nil => rfl
  | cons n ns ih => exact (ih (s.note n)).trans (calls_note n s)

@[simp] theorem machine_call [Machine σ α] (c : Call α) (s : Session σ α) :
    (s.call c).machine = (Machine.apply c s.machine).1 := by
  simp [call]

@[simp] theorem approaching_call [Machine σ α] (c : Call α) (s : Session σ α) :
    (s.call c).approaching = s.approaching := by
  simp [call]

@[simp] theorem calls_call [Machine σ α] (c : Call α) (s : Session σ α) :
    (s.call c).calls = s.calls ++ [c] :=
  (calls_noteAll _ _).trans (by simp [calls, Entry.call?])

end Session

end Homing
