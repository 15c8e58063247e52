/-
**Re-entrant locks that are handed on in turn.**

A lock has a holder, who may take it again, and others who wait for it in a row.  When the holder
has left as often as it has entered, the first of them is the holder: the lock is handed on and
never free in between.

Main definitions:

* `FifoLock.Lock`, `FifoLock.Op` — a lock, and what is done with it;
* `FifoLock.Lock.run` — one operation after the other;
* `FifoLock.waited`, `FifoLock.passed` — who had to wait, and to whom it was handed on.

Main results:

* `FifoLock.waited_eq` — **it is handed on in the order in which they came**.
-/

import Mathlib.Data.List.Basic
import Mathlib.Data.Nat.Notation

set_option relaxedAutoImplicit false
set_option autoImplicit false

namespace FifoLock

variable {α : Type}

/-- The holder, with how often it has taken the lock again, and who waits. -/
structure Lock (α : Type) where
  holder : Option (α × ℕ) := none
  waiting : List α := []

/-- What is done with a lock. -/
inductive Op (α : Type) where
  | enter (a : α)
  | leave (a : α)

/-- The lock of the first who waits. -/
def pass : List α → Lock α
  | [] => {}
  | a :: w => ⟨some (a, 0), w⟩

section Decidable

variable [DecidableEq α]

/-- **One operation.**  Only the holder leaves. -/
def Lock.step (l : Lock α) : Op α → Option (Lock α)
  | .enter a =>
      match l.holder with
      | none => some ⟨some (a, 0), l.waiting⟩
      | some (h, n) =>
          if a = h then some ⟨some (h, n + 1), l.waiting⟩ else some ⟨some (h, n), l.waiting ++ [a]⟩
  | .leave a =>
      match l.holder with
      | none => none
      | some (h, 0) => if a = h then some (pass l.waiting) else none
      | some (h, n + 1) => if a = h then some ⟨some (h, n), l.waiting⟩ else none

/-- **One operation after the other.** -/
def Lock.run (l : Lock α) : List (Op α) → Option (Lock α)
  | [] => some l
  | o :: os => (l.step o).bind fun l => l.run os

/-- Who has to wait now. -/
def Lock.wait (l : Lock α) : Op α → List α
  | .enter a => if l.holder.any fun h => h.1 ≠ a then [a] else []
  | .leave _ => []

/-- To whom it is handed on now. -/
def Lock.pass (l : Lock α) : Op α → List α
  | .enter _ => []
  | .leave _ => if l.holder.any fun h => h.2 = 0 then l.waiting.take 1 else []

/-- **Who had to wait**, one after the other. -/
def waited (l : Lock α) : List (Op α) → List α
  | [] => []
  | o :: os => l.wait o ++ (l.step o).elim [] fun l => waited l os

/-- **To whom it was handed on**, one after the other. -/
def passed (l : Lock α) : List (Op α) → List α
  | [] => []
  | o :: os => l.pass o ++ (l.step o).elim [] fun l => passed l os

theorem Lock.run_singleton (l : Lock α) (o : Op α) : l.run [o] = l.step o := by
  rw [Lock.run]
  cases l.step o <;> rfl

theorem Lock.run_append (l : Lock α) (os os' : List (Op α)) :
    l.run (os ++ os') = (l.run os).bind fun l => l.run os' := by
  induction os generalizing l with
  | nil => rfl
  | cons o os ih =>
      rw [List.cons_append, Lock.run, Lock.run]
      cases l.step o with
      | none => rfl
      | some l' => exact ih l'

/-- One operation keeps the order. -/
theorem Lock.step_waiting {l l' : Lock α} {o : Op α} (h : l.step o = some l') :
    l.waiting ++ l.wait o = l.pass o ++ l'.waiting := by
  obtain ⟨holder, waiting⟩ := l
  cases o with
  | enter a =>
      cases holder with
      | none => cases h; simp [Lock.wait, Lock.pass]
      | some h' =>
          obtain ⟨h', n⟩ := h'
          by_cases ha : a = h'
          · simp only [Lock.step, if_pos ha] at h
            cases h
            simp [Lock.wait, Lock.pass, ha]
          · simp only [Lock.step, if_neg ha] at h
            cases h
            simp [Lock.wait, Lock.pass, Ne.symm ha]
  | leave a =>
      cases holder with
      | none => cases h
      | some h' =>
          obtain ⟨h', n⟩ := h'
          by_cases ha : a = h'
          · cases n with
            | zero =>
                simp only [Lock.step, if_pos ha] at h
                cases h
                cases waiting <;> simp [Lock.wait, Lock.pass, FifoLock.pass]
            | succ n =>
                simp only [Lock.step, if_pos ha] at h
                cases h
                simp [Lock.wait, Lock.pass]
          · cases n <;> simp only [Lock.step, if_neg ha] at h <;> cases h

/-- **It is handed on in the order in which they came.** -/
theorem waited_eq {os : List (Op α)} {l l' : Lock α} (h : l.run os = some l') :
    l.waiting ++ waited l os = passed l os ++ l'.waiting := by
  induction os generalizing l with
  | nil =>
      cases h
      simp [waited, passed]
  | cons o os ih =>
      rw [Lock.run, Option.bind_eq_some_iff] at h
      obtain ⟨l₁, hstep, hrun⟩ := h
      rw [waited, passed, hstep, Option.elim_some, Option.elim_some, ← List.append_assoc,
        Lock.step_waiting hstep,
        List.append_assoc, List.append_assoc, ih hrun]

end Decidable

end FifoLock
