/-
**Coroutines that carry a note.**

What a coroutine knows is where it stands and what its local variables hold.  A statement about a
request as a whole also speaks of things that the coroutine has forgotten: what was asked, and how
the world looked when the request began.  Here every coroutine carries a note beside it, which is
written when the request begins, may be rewritten whenever the coroutine runs, and is handed on to
the coroutines that it leaves behind.  Nobody reads the notes.

Main definitions:

* `Coroutine.Machine.carry` — the machine whose coroutines carry notes;
* `Coroutine.Pool.bare` — its states without the notes.

Main results:

* `Coroutine.Machine.Reach.bare`, `Coroutine.Machine.Reach.carry` — **notes change nothing**: a run
  with notes is a run, and every run can be noted.
-/

import Halieutics.Coroutine

set_option relaxedAutoImplicit false
set_option autoImplicit false

namespace Coroutine

variable {σ τ ρ ι γ : Type}

/-- The state without the notes. -/
def Pool.bare (s : Pool σ (τ × γ)) : Pool σ τ := ⟨s.shared, s.cos.map Prod.fst⟩

@[simp] theorem Pool.bare_shared (s : Pool σ (τ × γ)) : s.bare.shared = s.shared := rfl

namespace Machine

/-- **The machine whose coroutines carry notes**: `first` is the note of a request, and `next` is
what becomes of the note of a coroutine that runs. -/
def carry (M : Machine σ τ ρ ι) (first : σ → ρ → ι → γ) (next : σ → τ → ι → γ → γ) :
    Machine σ (τ × γ) ρ ι where
  call s r i := ((M.call s r i).1, (M.call s r i).2.map fun t => (t, first s r i))
  resume s t i :=
    (M.resume s t.1 i).map fun out => (out.1, out.2.map fun t' => (t', next s t.1 i t.2))

variable {M : Machine σ τ ρ ι} {first : σ → ρ → ι → γ} {next : σ → τ → ι → γ → γ}

/-- **Notes change nothing**: an event does to the bare state what it does to the noted one. -/
theorem exec_bare (first : σ → ρ → ι → γ) (next : σ → τ → ι → γ → γ) (s : Pool σ (τ × γ))
    (e : Event ρ ι) :
    M.exec s.bare e = ((M.carry first next).exec s e).map Pool.bare := by
  have notes : ∀ (l : List τ) (n : γ), (l.map fun t => (t, n)).map Prod.fst = l := by
    intro l n
    rw [List.map_map]
    exact List.map_id l
  cases e with
  | call r i =>
      simp only [exec, carry, Pool.bare, Option.map_some, List.map_append, notes]
  | resume k i =>
      simp only [exec, Pool.bare, List.getElem?_map]
      cases s.cos[k]? with
      | none => rfl
      | some t =>
          simp only [carry, Option.map_some, Option.map_map]
          refine Option.map_congr fun out _ => ?_
          simp only [Function.comp_apply, Pool.bare, List.map_append, List.map_take, List.map_drop,
            notes]

namespace Reach

variable {C : Pool σ τ → Event ρ ι → Prop} {s₀ s : Pool σ (τ × γ)}

/-- A run with notes is a run. -/
theorem bare (h : (M.carry first next).Reach (fun s e => C s.bare e) s₀ s) :
    M.Reach C s₀.bare s.bare := by
  induction h with
  | init => exact .init
  | step _ hc he ih =>
      refine ih.step hc ?_
      rw [exec_bare first next, he]
      rfl

/-- Every run can be noted. -/
theorem carry {t : Pool σ τ} (h : M.Reach C s₀.bare t) :
    ∃ s, (M.carry first next).Reach (fun s e => C s.bare e) s₀ s ∧ s.bare = t := by
  induction h with
  | init => exact ⟨s₀, .init, rfl⟩
  | step _ hc he ih =>
      obtain ⟨s, hs, rfl⟩ := ih
      rw [exec_bare first next] at he
      obtain ⟨s', hs', rfl⟩ := Option.map_eq_some_iff.1 he
      exact ⟨s', hs.step hc hs', rfl⟩

end Reach

end Machine

end Coroutine
