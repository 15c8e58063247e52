/-
**Programs that fail at given points.**

A program that runs outside code — calls that may raise, waits that may be broken off — can fail at
many points, and what it leaves behind depends on the point.  For a program without an inner handler
there is a simple account of all its runs: it passes its points in order, and it stops at the first
one that raises.

The programs are Lean's `EStateM`: an error keeps the state in which it was raised.

Main definitions:

* `Faults.point` — a point at which a program fails if the world says so;
* `Faults.Passes` — **the account**: the program passes a list of points, and when it stops at one
  of them the state there is known.

Main results:

* `Faults.Passes.bind`, `Faults.passes_point`, `Faults.passes_modify`, … — one rule for every way of
  building a program;
* `Faults.Passes.result`, `Faults.Passes.error` — what the account says about a run.
-/

import Mathlib

set_option relaxedAutoImplicit false
set_option autoImplicit false

namespace Faults

variable {π σ ε α β : Type}

/-- **A point of a program**: it raises `fault p` if the world says so. -/
def point (raises : π → Bool) (fault : π → ε) (p : π) : EStateM ε σ Unit := fun s =>
  if raises p then .error (fault p) s else .ok () s

/-- **The program passes the points `ps`**: started in `s` it has the result `r` when no point
raises, and otherwise it raises the first that does, in a state that meets `F`. -/
def Passes (raises : π → Bool) (fault : π → ε) (F : π → σ → Prop) (ps : List π)
    (m : EStateM ε σ α) (s : σ) (r : EStateM.Result ε σ α) : Prop :=
  match ps.find? raises with
  | none => m s = r
  | some p => ∃ t, m s = .error (fault p) t ∧ F p t

variable {raises : π → Bool} {fault : π → ε} {F : π → σ → Prop} {ps qs : List π}
variable {m : EStateM ε σ α} {s t : σ} {a : α} {r : EStateM.Result ε σ α}

/-- No point raises. -/
theorem Passes.result (h : Passes raises fault F ps m s r) (hn : ps.find? raises = none) :
    m s = r := by
  unfold Passes at h
  rw [hn] at h
  exact h

/-- The point `p` is the first that raises. -/
theorem Passes.error {p : π} (h : Passes raises fault F ps m s r)
    (hp : ps.find? raises = some p) : ∃ t, m s = .error (fault p) t ∧ F p t := by
  unfold Passes at h
  rw [hp] at h
  exact h

/-- The same points, written differently. -/
theorem Passes.of_points (h : Passes raises fault F ps m s r) (hp : ps = qs) :
    Passes raises fault F qs m s r := hp ▸ h

theorem passes_pure : Passes raises fault F [] (pure a) s (.ok a s) := rfl

theorem passes_throw (e : ε) :
    Passes raises fault F [] (throw e : EStateM ε σ α) s (.error e s) := rfl

theorem passes_modify (f : σ → σ) : Passes raises fault F [] (modify f) s (.ok () (f s)) := rfl

theorem passes_get : Passes raises fault F [] get s (.ok s s) := rfl

/-- A point, at a state that is known. -/
theorem passes_point {p : π} (h : F p s) :
    Passes raises fault F [p] (point raises fault p) s (.ok () s) := by
  unfold Passes point
  cases hp : raises p with
  | false =>
      rw [List.find?_cons_of_neg (by simp [hp]), List.find?_nil]
      exact if_neg Bool.false_ne_true
  | true =>
      rw [List.find?_cons_of_pos hp]
      exact ⟨s, if_pos rfl, h⟩

/-- **One program after another.** -/
theorem Passes.bind {k : α → EStateM ε σ β} {r' : EStateM.Result ε σ β}
    (h : Passes raises fault F ps m s (.ok a t)) (hk : Passes raises fault F qs (k a) t r') :
    Passes raises fault F (ps ++ qs) (m >>= k) s r' := by
  unfold Passes
  rw [List.find?_append]
  cases hp : ps.find? raises with
  | some p =>
      obtain ⟨u, hu, hF⟩ := h.error hp
      refine ⟨u, ?_, hF⟩
      change EStateM.bind m k s = _
      rw [EStateM.bind, hu]
  | none =>
      have hm : (m >>= k) s = k a t := by
        change EStateM.bind m k s = _
        rw [EStateM.bind, h.result hp]
      rw [Option.none_or, hm]
      exact hk

/-- A point, and the rest of the program. -/
theorem Passes.point {p : π} {k : Unit → EStateM ε σ α} (hF : F p s)
    (hk : Passes raises fault F qs (k ()) s r) :
    Passes raises fault F (p :: qs) (Faults.point raises fault p >>= k) s r :=
  (passes_point hF).bind hk

end Faults
