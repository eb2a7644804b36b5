import Homing.Engine.Cycle

/-!
# Calls and the machine that they leave

A machine is changed by nothing but calls. `Machine.after cs x` is the machine
that the calls `cs` make of the machine `x`, and `Session.Makes cs s t` says that
a session went from `s` to `t` by exactly these calls. Notes and the flag of an
approach are no calls, so they drop out here once and for all: what is proved
about a run below is proved about its calls and the machines between them.
-/

namespace Homing

variable {σ : Type u} {α : Type v} [Machine σ α]

namespace Machine

/-- The machine that calls make of a machine, the first call first. -/
def after (cs : List (Call α)) (x : σ) : σ := cs.foldl (fun x c => (apply c x).1) x

@[simp] theorem after_nil (x : σ) : after ([] : List (Call α)) x = x := rfl

@[simp] theorem after_cons (c : Call α) (cs : List (Call α)) (x : σ) :
    after (c :: cs) x = after cs (apply c x).1 := rfl

@[simp] theorem after_append (cs ds : List (Call α)) (x : σ) :
    after (cs ++ ds) x = after ds (after cs x) := List.foldl_append

/-- What every call of a list keeps, the list keeps. -/
theorem after_induction {P : σ → Prop} {cs : List (Call α)} {x : σ} (hx : P x)
    (hstep : ∀ c ∈ cs, ∀ y, P y → P (apply c y).1) : P (after cs x) := by
  induction cs generalizing x with
  | nil => exact hx
  | cons c cs ih =>
      have hc : P (apply c x).1 := hstep c List.mem_cons_self x hx
      exact ih hc fun d hd => hstep d (List.mem_cons_of_mem c hd)

end Machine

/-- A session went from `s` to `t` by exactly these calls. -/
structure Session.Makes (cs : List (Call α)) (s t : Session σ α) : Prop where
  calls : t.calls = s.calls ++ cs
  machine : t.machine = Machine.after cs s.machine

namespace Session.Makes

variable {cs ds : List (Call α)} {r s t : Session σ α}

theorem refl (s : Session σ α) : Makes [] s s := ⟨by simp, rfl⟩

theorem trans (h : Makes cs r s) (g : Makes ds s t) : Makes (cs ++ ds) r t :=
  ⟨by rw [g.calls, h.calls, List.append_assoc], by rw [g.machine, h.machine, Machine.after_append]⟩

theorem call (c : Call α) (s : Session σ α) : Makes [c] s (s.call c) := ⟨by simp, by simp⟩

theorem note (n : Note α) (s : Session σ α) : Makes [] s (s.note n) := ⟨by simp, by simp⟩

theorem noteAll (ns : List (Note α)) (s : Session σ α) : Makes [] s (s.noteAll ns) :=
  ⟨by simp, by simp⟩

theorem setApproaching (b : Bool) (s : Session σ α) : Makes [] s (s.setApproaching b) :=
  ⟨by simp [Session.setApproaching, Session.calls], rfl⟩

/-- One more call at the end. -/
theorem snoc (h : Makes cs r s) (c : Call α) : Makes (cs ++ [c]) r (s.call c) := h.trans (call c s)

/-- A note at the front adds no call. -/
theorem of_note {n : Note α} (h : Makes cs (s.note n) t) : Makes cs s t := by
  simpa using (note n s).trans h

/-- A note at the end adds no call. -/
theorem snoc_note (h : Makes cs r s) (n : Note α) : Makes cs r (s.note n) := by
  simpa using h.trans (note n s)

theorem snoc_setApproaching (h : Makes cs r s) (b : Bool) : Makes cs r (s.setApproaching b) := by
  simpa using h.trans (setApproaching b s)

end Session.Makes

end Homing
