/-
**Observed runs of a machine.**

A property of a whole run often speaks of what has happened and not only of the state reached: who
asked for something, what was answered, how many times.  An observer keeps such a record beside the
machine.  It is shown every event and the state in which it happens; it never acts.

Main definitions:

* `Coroutine.Machine.Seen` — a state that is reached, with what an observer of the run has noted;
* `Coroutine.Machine.watch` — a schedule and its record.

Main results:

* `Coroutine.Machine.Seen.reach`, `Coroutine.Machine.Reach.seen` — **an observer changes nothing**:
  an observed run is a run, and every run can be observed;
* `Coroutine.Machine.Seen.inv`, `Coroutine.Machine.Seen.and_inv` — the invariant rule;
* `Coroutine.Machine.exists_seen` — a schedule that was watched is a proof of what it shows.
-/

import Halieutics.Coroutine

set_option relaxedAutoImplicit false
set_option autoImplicit false

namespace Coroutine.Machine

variable {σ τ ρ ι ω : Type} (M : Machine σ τ ρ ι) (note : Pool σ τ → Event ρ ι → ω → ω)

/-- **Observed runs**: the event `e` in the state `s` turns the record `w` into `note s e w`.  The
condition on the events may speak of the record. -/
inductive Seen (C : Pool σ τ → ω → Event ρ ι → Prop) (s₀ : Pool σ τ) (w₀ : ω) :
    Pool σ τ → ω → Prop
  | init : Seen C s₀ w₀ s₀ w₀
  | step {s s' : Pool σ τ} {w : ω} {e : Event ρ ι} :
      Seen C s₀ w₀ s w → C s w e → M.exec s e = some s' → Seen C s₀ w₀ s' (note s e w)

/-- A schedule and its record; each event is checked against the condition before it happens. -/
def watch (C : Pool σ τ → ω → Event ρ ι → Prop) [∀ s w e, Decidable (C s w e)] (s : Pool σ τ)
    (w : ω) : List (Event ρ ι) → Option (Pool σ τ × ω)
  | [] => some (s, w)
  | e :: es =>
      if C s w e then (M.exec s e).bind fun s' => watch C s' (note s e w) es else none

variable {M note}
variable {C : Pool σ τ → ω → Event ρ ι → Prop} {s₀ s : Pool σ τ} {w₀ w : ω}

namespace Seen

/-- An observed run is a run. -/
theorem reach {D : Pool σ τ → Event ρ ι → Prop} (hD : ∀ s w e, C s w e → D s e)
    (h : M.Seen note C s₀ w₀ s w) : M.Reach D s₀ s := by
  induction h with
  | init => exact .init
  | step _ hc he ih => exact .step ih (hD _ _ _ hc) he

/-- **The invariant rule.** -/
theorem inv {P : Pool σ τ → ω → Prop} (h₀ : P s₀ w₀)
    (hstep : ∀ s w e s', P s w → C s w e → M.exec s e = some s' → P s' (note s e w))
    (h : M.Seen note C s₀ w₀ s w) : P s w := by
  induction h with
  | init => exact h₀
  | step _ hc he ih => exact hstep _ _ _ _ ih hc he

/-- An invariant may be assumed of every state on the way. -/
theorem and_inv {P : Pool σ τ → ω → Prop} (hP : ∀ s w, M.Seen note C s₀ w₀ s w → P s w)
    (h : M.Seen note C s₀ w₀ s w) :
    M.Seen note (fun s w e => C s w e ∧ P s w) s₀ w₀ s w := by
  induction h with
  | init => exact .init
  | step hr hc he ih => exact .step ih ⟨hc, hP _ _ hr⟩ he

end Seen

/-- Every run can be observed. -/
theorem Reach.seen {D : Pool σ τ → Event ρ ι → Prop} (note : Pool σ τ → Event ρ ι → ω → ω) (w₀ : ω)
    (h : M.Reach D s₀ s) : ∃ w, M.Seen note (fun s _ e => D s e) s₀ w₀ s w := by
  induction h with
  | init => exact ⟨w₀, .init⟩
  | step _ hc he ih =>
      obtain ⟨w, hw⟩ := ih
      exact ⟨_, .step hw hc he⟩

/-- A schedule that was watched is an observed run. -/
theorem seen_of_watch [∀ s w e, Decidable (C s w e)] :
    ∀ {es : List (Event ρ ι)} {s s' : Pool σ τ} {w w' : ω}, M.Seen note C s₀ w₀ s w →
      M.watch note C s w es = some (s', w') → M.Seen note C s₀ w₀ s' w' := by
  intro es
  induction es with
  | nil =>
      intro s s' w w' hs hr
      obtain ⟨rfl, rfl⟩ : s = s' ∧ w = w' := by simpa [watch] using hr
      exact hs
  | cons e es ih =>
      intro s s' w w' hs hr
      by_cases hc : C s w e
      · rw [watch, if_pos hc, Option.bind_eq_some_iff] at hr
        obtain ⟨t, he, hr⟩ := hr
        exact ih (hs.step hc he) hr
      · rw [watch, if_neg hc] at hr
        exact absurd hr (by simp)

/-- Watching a schedule and testing what it shows finds an observed run. -/
theorem exists_seen (note : Pool σ τ → Event ρ ι → ω → ω) (C : Pool σ τ → ω → Event ρ ι → Prop)
    [∀ s w e, Decidable (C s w e)] (s₀ : Pool σ τ) (w₀ : ω) (es : List (Event ρ ι))
    {p : Pool σ τ × ω → Bool} (h : (M.watch note C s₀ w₀ es).any p = true) :
    ∃ s w, M.Seen note C s₀ w₀ s w ∧ p (s, w) = true := by
  obtain ⟨⟨s, w⟩, hs, hp⟩ := (Option.any_eq_true _ _).1 h
  exact ⟨s, w, seen_of_watch .init hs, hp⟩

end Coroutine.Machine
