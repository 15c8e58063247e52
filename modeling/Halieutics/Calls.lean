/-
**Calls between services.**

Services of the actor kind call each other: a handler sends a request, is suspended, and goes on
with the answer; meanwhile other coroutines run, of the same service too.  A coroutine that has
called into a handler, which has called into another one, is a stack of suspended handlers, and on
top of it there is one message on its way — the last request, or an answer to the topmost handler.

This module makes a `Coroutine.Machine` of any set of handlers.  A step takes one message in: a
request starts its handler, an answer resumes the topmost one; either runs up to its next call, or
to its end.

Main definitions:

* `Coroutine.Services` — what the handlers do; `Coroutine.Served` — where one of them stops;
* `Coroutine.Thread` — a stack of suspended handlers, and the message on its way;
* `Coroutine.Services.machine` — the services as a machine;
* `Coroutine.Thread.Has` — a thread holds a frame, a request or an answer of some kind.

Main results:

* `Coroutine.Services.exec_cases` — **what one event does**;
* `Coroutine.Served.has_threads` — what the threads that a step leaves behind hold.
-/

import Halieutics.Coroutine

set_option relaxedAutoImplicit false
set_option autoImplicit false

namespace Coroutine

/-- How a segment of a handler ends: it answers, or it is suspended in a frame and sends a
request. -/
inductive Ends (F Q A : Type) where
  | ret (a : A)
  | call (f : F) (q : Q)

/-- What a segment leaves behind: the state, how it ended, and the requests for which it has forked
a coroutine. -/
structure Served (σ F Q A : Type) where
  state : σ
  ends : Ends F Q A
  forks : List Q := []

/-- A message on its way. -/
inductive Message (Q A : Type) where
  | request (q : Q)
  | answer (a : A)

/-- A coroutine: the message on its way, and the frames of the handlers that wait, the topmost one
first. -/
structure Thread (F Q A : Type) where
  msg : Message Q A
  stack : List F

/-- Handlers with state `σ`, frames `F`, requests `Q` and answers `A`; the world asks for `ρ` and
supplies `ι`. -/
structure Services (σ F Q A ρ ι : Type) where
  /-- The message that a request of the world sends. -/
  ask : ρ → Q
  /-- The first segment of the handler of a request. -/
  serve : σ → Q → ι → Served σ F Q A
  /-- The segment of a frame after an answer. -/
  resume : σ → F → A → ι → Served σ F Q A

section Basic

variable {σ F Q A ρ ι : Type}

/-- A coroutine that begins with a request. -/
def Thread.start (q : Q) : Thread F Q A := ⟨.request q, []⟩

/-- What becomes of a stack; an answer that nobody waits for is dropped. -/
def Ends.thread (stack : List F) : Ends F Q A → List (Thread F Q A)
  | .ret a => if stack.isEmpty then [] else [⟨.answer a, stack⟩]
  | .call f q => [⟨.request q, f :: stack⟩]

/-- The threads that a step leaves behind. -/
def Served.threads (o : Served σ F Q A) (stack : List F) : List (Thread F Q A) :=
  o.ends.thread stack ++ o.forks.map Thread.start

/-- The step of a thread. -/
def Services.step (S : Services σ F Q A ρ ι) (s : σ) (t : Thread F Q A) (i : ι) :
    σ × List (Thread F Q A) :=
  match t with
  | ⟨.request q, stack⟩ => ((S.serve s q i).state, (S.serve s q i).threads stack)
  | ⟨.answer a, f :: stack⟩ => ((S.resume s f a i).state, (S.resume s f a i).threads stack)
  | ⟨.answer _, []⟩ => (s, [])

/-- **The services as a machine.** -/
def Services.machine (S : Services σ F Q A ρ ι) : Machine σ (Thread F Q A) ρ ι where
  call s r _ := (s, [Thread.start (S.ask r)])
  resume s t i := some (S.step s t i)

/-- **What one event does**: a message of the world is sent, or one that is on its way is taken
in. -/
theorem Services.exec_cases {S : Services σ F Q A ρ ι} {s s' : Pool σ (Thread F Q A)}
    {e : Event ρ ι} (h : S.machine.exec s e = some s') :
    (∃ r i, e = .call r i ∧ s' = ⟨s.shared, s.cos ++ [Thread.start (S.ask r)]⟩) ∨
    (∃ k i l t r, e = .resume k i ∧ s.cos[k]? = some t ∧ s.cos = l ++ t :: r ∧
      s' = ⟨(S.step s.shared t i).1, l ++ (S.step s.shared t i).2 ++ r⟩) := by
  rcases Machine.exec_cases h with ⟨r, i, rfl, rfl⟩ | ⟨k, i, l, t, r, out, rfl, ht, hcos, ho, rfl⟩
  · exact Or.inl ⟨r, i, rfl, rfl⟩
  · obtain rfl := Option.some_inj.1 ho
    exact Or.inr ⟨k, i, l, t, r, rfl, ht, hcos, rfl⟩

/-- A thread takes its step. -/
theorem Services.exec_resume {S : Services σ F Q A ρ ι} {s : Pool σ (Thread F Q A)} {k : ℕ}
    {t : Thread F Q A} (h : s.cos[k]? = some t) (i : ι) :
    S.machine.exec s (.resume k i) = some ⟨(S.step s.shared t i).1,
      s.cos.take k ++ (S.step s.shared t i).2 ++ s.cos.drop (k + 1)⟩ := by
  simp [Machine.exec, h, machine]

/-! ### What a thread holds -/

/-- A message is of a kind. -/
def Message.Is (pQ : Q → Prop) (pA : A → Prop) : Message Q A → Prop
  | .request q => pQ q
  | .answer a => pA a

/-- **A thread holds** a frame, a request or an answer of some kind. -/
def Thread.Has (pF : F → Prop) (pQ : Q → Prop) (pA : A → Prop) (t : Thread F Q A) : Prop :=
  t.msg.Is pQ pA ∨ ∃ f ∈ t.stack, pF f

instance {pQ : Q → Prop} {pA : A → Prop} [DecidablePred pQ] [DecidablePred pA] :
    DecidablePred (Message.Is pQ pA) := fun m =>
  match m with
  | .request q => inferInstanceAs (Decidable (pQ q))
  | .answer a => inferInstanceAs (Decidable (pA a))

instance {pF : F → Prop} {pQ : Q → Prop} {pA : A → Prop} [DecidablePred pF] [DecidablePred pQ]
    [DecidablePred pA] : DecidablePred (Thread.Has pF pQ pA) := fun t =>
  inferInstanceAs (Decidable (t.msg.Is pQ pA ∨ ∃ f ∈ t.stack, pF f))

/-- How a segment ends is of a kind. -/
def Ends.Is (pF : F → Prop) (pQ : Q → Prop) (pA : A → Prop) : Ends F Q A → Prop
  | .ret a => pA a
  | .call f q => pF f ∨ pQ q

/-- A segment ends, or forks, with something of a kind. -/
def Served.Is (pF : F → Prop) (pQ : Q → Prop) (pA : A → Prop) (o : Served σ F Q A) : Prop :=
  o.ends.Is pF pQ pA ∨ ∃ q ∈ o.forks, pQ q

variable {pF : F → Prop} {pQ : Q → Prop} {pA : A → Prop}

theorem Thread.has_start {q : Q} :
    (Thread.start q : Thread F Q A).Has pF pQ pA ↔ pQ q := by
  simp [Thread.Has, Thread.start, Message.Is]

theorem Thread.has_answer {a : A} {f : F} {stack : List F} :
    (⟨.answer a, f :: stack⟩ : Thread F Q A).Has pF pQ pA ↔
      pA a ∨ pF f ∨ ∃ f ∈ stack, pF f := by
  simp [Thread.Has, Message.Is]

theorem Thread.has_request {q : Q} {stack : List F} :
    (⟨.request q, stack⟩ : Thread F Q A).Has pF pQ pA ↔ pQ q ∨ ∃ f ∈ stack, pF f := Iff.rfl

/-- **What the threads hold that a step leaves behind**: what the stack held, how the segment ended,
or what it has forked. -/
theorem Served.has_threads {o : Served σ F Q A} {stack : List F} {t : Thread F Q A}
    (ht : t ∈ o.threads stack) (h : t.Has pF pQ pA) :
    (∃ f ∈ stack, pF f) ∨ o.Is pF pQ pA := by
  rcases List.mem_append.1 ht with ht | ht
  · suffices hs : (∃ f ∈ stack, pF f) ∨ o.ends.Is pF pQ pA from hs.imp_right Or.inl
    cases he : o.ends with
    | ret a =>
        rw [he, Ends.thread] at ht
        split at ht
        · exact absurd ht List.not_mem_nil
        · obtain rfl := List.mem_singleton.1 ht
          exact h.symm
    | call f q =>
        rw [he, Ends.thread] at ht
        obtain rfl := List.mem_singleton.1 ht
        rcases h with hq | ⟨f', hf', hp⟩
        · exact Or.inr (Or.inr hq)
        · rcases List.mem_cons.1 hf' with rfl | hf'
          · exact Or.inr (Or.inl hp)
          · exact Or.inl ⟨f', hf', hp⟩
  · obtain ⟨q, hq, rfl⟩ := List.mem_map.1 ht
    exact Or.inr (Or.inr ⟨q, hq, Thread.has_start.1 h⟩)

end Basic

end Coroutine
