/-
**Coroutines over a shared state.**

A service of the actor kind runs many coroutines, but only one at a time: a coroutine keeps the
processor until it suspends itself, and between two suspensions it has the shared state to itself.
The atomic unit of such a program is therefore the *segment* — the code from one suspension to the
next — and an interleaving is a sequence of segments of different coroutines.

This module fixes that picture once.  A `Coroutine.Machine` says what a segment does: `call` runs
the first segment of a coroutine that serves a new request, `resume` runs the segment of a
suspended coroutine.  Both return the shared state afterwards together with the coroutines that
are left suspended in place of the one that ran — none when it has finished, one when it suspends
again, more when it forked.

Main definitions:

* `Coroutine.Machine`, `Coroutine.Pool`, `Coroutine.Event` — a machine, a state of it and what can
  happen next;
* `Coroutine.Machine.exec`, `Coroutine.Machine.run` — one event, and a schedule of events;
* `Coroutine.Machine.Reach` — the states reachable by a schedule each event of which meets a
  condition.

Main results:

* `Coroutine.Machine.exec_cases` — **what one event does to the pool**;
* `Coroutine.Machine.Reach.inv`, `Coroutine.Machine.Reach.and_inv` — **the invariant rule**, and its
  use inside another invariant;
* `Coroutine.Machine.reach_of_run`, `Coroutine.Machine.exists_reach` — a schedule that was run is a
  proof of reachability.
-/

import Mathlib

set_option relaxedAutoImplicit false
set_option autoImplicit false

namespace Coroutine

/-- A machine with shared state `σ`, coroutines suspended at points `τ`, requests `ρ`, and inputs
`ι` — whatever the outside world supplies to a segment: replies, clocks, random numbers. -/
structure Machine (σ τ ρ ι : Type) where
  /-- The first segment of the coroutine that serves a request. -/
  call : σ → ρ → ι → σ × List τ
  /-- The segment of a suspended coroutine; `none` when it cannot run now. -/
  resume : σ → τ → ι → Option (σ × List τ)

/-- A state of a machine: the shared state and the suspended coroutines. -/
structure Pool (σ τ : Type) where
  shared : σ
  cos : List τ

/-- What can happen next: a request arrives, or the `k`-th suspended coroutine runs. -/
inductive Event (ρ ι : Type) where
  | call (r : ρ) (i : ι)
  | resume (k : ℕ) (i : ι)

namespace Machine

variable {σ τ ρ ι : Type} (M : Machine σ τ ρ ι)

/-- One event; `none` when it is not enabled. -/
def exec (s : Pool σ τ) : Event ρ ι → Option (Pool σ τ)
  | .call r i => some ⟨(M.call s.shared r i).1, s.cos ++ (M.call s.shared r i).2⟩
  | .resume k i =>
      match s.cos[k]? with
      | none => none
      | some t =>
          (M.resume s.shared t i).map fun out =>
            ⟨out.1, s.cos.take k ++ out.2 ++ s.cos.drop (k + 1)⟩

/-- A schedule, each event of which is checked against the condition `C` before it happens. -/
def run (C : Pool σ τ → Event ρ ι → Prop) [∀ s e, Decidable (C s e)] (s : Pool σ τ) :
    List (Event ρ ι) → Option (Pool σ τ)
  | [] => some s
  | e :: es => if C s e then (M.exec s e).bind fun s' => run C s' es else none

/-- **Reachability under a condition**: every event of the schedule meets `C` in the state it
happens in. -/
inductive Reach (C : Pool σ τ → Event ρ ι → Prop) (s₀ : Pool σ τ) : Pool σ τ → Prop
  | init : Reach C s₀ s₀
  | step {s s' : Pool σ τ} {e : Event ρ ι} :
      Reach C s₀ s → C s e → M.exec s e = some s' → Reach C s₀ s'

variable {M}

/-- **What one event does to the pool**: a request adds the coroutines its first segment leaves
behind, and a resumed coroutine is replaced by those its segment leaves behind. -/
theorem exec_cases {s s' : Pool σ τ} {e : Event ρ ι} (h : M.exec s e = some s') :
    (∃ r i, e = .call r i ∧ s' = ⟨(M.call s.shared r i).1, s.cos ++ (M.call s.shared r i).2⟩) ∨
    (∃ k i l t r out, e = .resume k i ∧ s.cos[k]? = some t ∧ s.cos = l ++ t :: r ∧
      M.resume s.shared t i = some out ∧ s' = ⟨out.1, l ++ out.2 ++ r⟩) := by
  cases e with
  | call r i =>
      simp only [exec, Option.some_inj] at h
      exact Or.inl ⟨r, i, rfl, h.symm⟩
  | resume k i =>
      simp only [exec] at h
      cases ht : s.cos[k]? with
      | none => rw [ht] at h; simp at h
      | some t =>
          rw [ht] at h
          simp only [Option.map_eq_some_iff] at h
          obtain ⟨out, ho, hs⟩ := h
          obtain ⟨hk, hkt⟩ := List.getElem?_eq_some_iff.1 ht
          have hsplit : s.cos = s.cos.take k ++ t :: s.cos.drop (k + 1) := by
            rw [← hkt, ← List.drop_eq_getElem_cons hk, List.take_append_drop]
          exact Or.inr ⟨k, i, _, t, _, out, rfl, ht, hsplit, ho, hs.symm⟩

/-- The coroutines beside the one that runs. -/
theorem mem_of_mem_rest {l r : List τ} {t t' : τ} (h : t' ∈ l ++ r) : t' ∈ l ++ t :: r := by
  rcases List.mem_append.1 h with h | h
  · exact List.mem_append_left _ h
  · exact List.mem_append_right _ (List.mem_cons_of_mem _ h)

/-- After an event a coroutine was there before, or has been left behind by the one that ran. -/
theorem rest_or_left {l n r : List τ} {t : τ} (h : t ∈ l ++ n ++ r) : t ∈ l ++ r ∨ t ∈ n := by
  rcases List.mem_append.1 h with h | h
  · rcases List.mem_append.1 h with h | h
    · exact Or.inl (List.mem_append_left _ h)
    · exact Or.inr h
  · exact Or.inl (List.mem_append_right _ h)

/-- What is left behind may stand in front of the others. -/
theorem perm_front (l n r : List τ) : (l ++ n ++ r).Perm (n ++ (l ++ r)) := by
  rw [List.append_assoc]
  exact List.perm_append_comm_assoc l n r

namespace Reach

variable {C : Pool σ τ → Event ρ ι → Prop} {s₀ s : Pool σ τ}

/-- **The invariant rule.** -/
theorem inv {P : Pool σ τ → Prop} (h₀ : P s₀)
    (hstep : ∀ s e s', P s → C s e → M.exec s e = some s' → P s') (h : M.Reach C s₀ s) : P s := by
  induction h with
  | init => exact h₀
  | step _ hc he ih => exact hstep _ _ _ ih hc he

/-- An invariant may be assumed of every state on the way. -/
theorem and_inv {P : Pool σ τ → Prop} (hP : ∀ s, M.Reach C s₀ s → P s) (h : M.Reach C s₀ s) :
    M.Reach (fun s e => C s e ∧ P s) s₀ s := by
  induction h with
  | init => exact .init
  | step hr hc he ih => exact .step ih ⟨hc, hP _ hr⟩ he

/-- A weaker condition reaches more. -/
theorem mono {C' : Pool σ τ → Event ρ ι → Prop} (hC : ∀ s e, C s e → C' s e)
    (h : M.Reach C s₀ s) : M.Reach C' s₀ s := by
  induction h with
  | init => exact .init
  | step _ hc he ih => exact .step ih (hC _ _ hc) he

/-- A schedule may be continued. -/
theorem trans {s' : Pool σ τ} (h : M.Reach C s₀ s) (h' : M.Reach C s s') : M.Reach C s₀ s' := by
  induction h' with
  | init => exact h
  | step _ hc he ih => exact .step ih hc he

end Reach

/-- A schedule that was run is a proof of reachability. -/
theorem reach_of_run {C : Pool σ τ → Event ρ ι → Prop} [∀ s e, Decidable (C s e)]
    {s₀ : Pool σ τ} :
    ∀ {es : List (Event ρ ι)} {s s' : Pool σ τ}, M.Reach C s₀ s → M.run C s es = some s' →
      M.Reach C s₀ s' := by
  intro es
  induction es with
  | nil =>
      intro s s' hs hr
      simp only [run, Option.some_inj] at hr
      exact hr ▸ hs
  | cons e es ih =>
      intro s s' hs hr
      by_cases hc : C s e
      · simp only [run, hc, if_true, Option.bind_eq_some_iff] at hr
        obtain ⟨s₁, he, hr⟩ := hr
        exact ih (hs.step hc he) hr
      · simp [run, hc] at hr

/-- Running a schedule and testing the state it ends in finds a reachable state. -/
theorem exists_reach {C : Pool σ τ → Event ρ ι → Prop} [∀ s e, Decidable (C s e)]
    {i : Pool σ τ} (es : List (Event ρ ι)) {p : Pool σ τ → Bool}
    (h : (M.run C i es).any p = true) : ∃ s, M.Reach C i s ∧ p s = true := by
  obtain ⟨s, hs, hp⟩ := (Option.any_eq_true _ _).1 h
  exact ⟨s, reach_of_run .init hs, hp⟩

end Machine

end Coroutine
