/-
**Endless runs of a machine.**

Whether something comes to an end is a question about runs that do not.  An endless run is a
sequence of states and events; what holds of reachable states holds of its states, and something
that uses up a number at each of its steps happens only finitely often.

Main definitions:

* `Coroutine.Machine.Endless` — an endless run, each event of which meets a condition.

Main results:

* `Coroutine.Machine.Endless.reach` — its states are reachable;
* `Coroutine.Machine.exists_endless` — a property that some event always restores gives an endless
  run;
* `Coroutine.eventually_of_drop` — **what uses up a number that never grows comes to an end**.
-/

import Halieutics.Coroutine

set_option relaxedAutoImplicit false
set_option autoImplicit false

namespace Coroutine

/-- **What uses up a number that never grows comes to an end.** -/
theorem eventually_of_drop {f : ℕ → ℕ} {P : ℕ → Prop} (n : ℕ)
    (hle : ∀ i ≥ n, f (i + 1) ≤ f i) (hlt : ∀ i ≥ n, P i → f (i + 1) < f i) :
    ∃ m, ∀ i ≥ m, ¬ P i := by
  -- the induction is on the number that is left
  induction hk : f n using Nat.strong_induction_on generalizing n with
  | _ k ih =>
      by_cases hm : ∃ i ≥ n, P i
      · obtain ⟨i, hi, hmark⟩ := hm
        have hmono : ∀ j ≥ n, f j ≤ f n := by
          intro j hj
          induction j, hj using Nat.le_induction with
          | base => exact le_rfl
          | succ j hj ihj => exact (hle j hj).trans ihj
        have hdrop : f (i + 1) < k := hk ▸ (hlt i hi hmark).trans_le (hmono i hi)
        exact ih _ hdrop (i + 1) (fun j hj => hle j (hi.trans ((Nat.le_succ i).trans hj)))
          (fun j hj => hlt j (hi.trans ((Nat.le_succ i).trans hj))) rfl
      · exact ⟨n, fun i hi hmark => hm ⟨i, hi, hmark⟩⟩

namespace Machine

variable {σ τ ρ ι : Type} (M : Machine σ τ ρ ι)

/-- **An endless run**: each event meets the condition `C` in the state it happens in. -/
structure Endless (C : Pool σ τ → Event ρ ι → Prop) (s₀ : Pool σ τ) (run : ℕ → Pool σ τ)
    (ev : ℕ → Event ρ ι) : Prop where
  init : run 0 = s₀
  cond : ∀ i, C (run i) (ev i)
  step : ∀ i, M.exec (run i) (ev i) = some (run (i + 1))

variable {M}
variable {C : Pool σ τ → Event ρ ι → Prop} {s : Pool σ τ}
variable {run : ℕ → Pool σ τ} {ev : ℕ → Event ρ ι}

/-- The states of an endless run are reachable. -/
theorem Endless.reach (h : M.Endless C s run ev) (i : ℕ) : M.Reach C s (run i) := by
  induction i with
  | zero => exact h.init ▸ .init
  | succ i ih => exact ih.step (h.cond i) (h.step i)

/-- A weaker condition has more endless runs. -/
theorem Endless.mono {C' : Pool σ τ → Event ρ ι → Prop} (hC : ∀ s e, C s e → C' s e)
    (h : M.Endless C s run ev) : M.Endless C' s run ev :=
  ⟨h.init, fun i => hC _ _ (h.cond i), h.step⟩

/-- **A property that some event always restores** gives an endless run. -/
theorem exists_endless {P : Pool σ τ → Prop} {Q : Pool σ τ → Event ρ ι → Prop} (hs : P s)
    (hnext : ∀ s, P s → ∃ e s', C s e ∧ M.exec s e = some s' ∧ P s' ∧ Q s e) :
    ∃ run ev, M.Endless C s run ev ∧ ∀ i, Q (run i) (ev i) := by
  choose ev next hC he hP hQ using hnext
  -- the states with what is restored
  let run : ℕ → { s // P s } := fun i => Nat.rec ⟨s, hs⟩ (fun _ s => ⟨next s.1 s.2, hP s.1 s.2⟩) i
  exact ⟨fun i => (run i).1, fun i => ev (run i).1 (run i).2,
    ⟨rfl, fun i => hC _ (run i).2, fun i => he _ (run i).2⟩, fun i => hQ _ (run i).2⟩

end Machine

end Coroutine
