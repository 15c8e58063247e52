/-
**Critical sections of a service: `lualib/skynet/queue.lua` on the scheduler of
`lualib/skynet.lua`.**

A service runs one coroutine at a time.  A message starts a new one or resumes one that waits for
it; when it yields, `suspend` resumes the first in `wakeup_queue` and then, when a call has failed,
its caller, and each of these may yield in turn.  `skynet.queue` answers a function that calls
others in turn: a coroutine that finds another one inside waits in `thread_queue`, and whoever is
the last to leave wakes the first of them up.

What a coroutine does between two such points is open here: an event says what it does next.

Main definitions:

* `Halieutics.SkynetQueue.State` — **the scheduler and the queues**;
* `Halieutics.SkynetQueue.step` — **what happens next**;
* `Halieutics.SkynetQueue.Allowed` — what the rest of the service keeps to.
-/

import Mathlib.Data.List.Basic
import Mathlib.Data.Nat.Notation
import Mathlib.Logic.Function.Basic

set_option relaxedAutoImplicit false
set_option autoImplicit false

namespace Halieutics.SkynetQueue

/-! ### The state -/

/-- What `skynet.queue` keeps. -/
structure Queue where
  currentThread : Option ℕ := none
  ref : ℕ := 0
  threadQueue : List ℕ := []

/-- Where a coroutine is: not started, or back in the pool; ended by an error; running; in
`skynet.call`, in `skynet.sleep`, in `skynet.wait`; in the `skynet.wait` of a queue. -/
inductive Phase (κ : Type) where
  | free
  | dead
  | ready
  | call
  | sleep
  | wait
  | queued (q : κ)

/-- A coroutine, with the queues it is inside of, the innermost first. -/
structure Thread (κ : Type) where
  phase : Phase κ := .free
  frames : List κ := []

/-- What a session is for: a coroutine, or `"BREAK"`. -/
inductive Waiter where
  | co (c : ℕ)
  | broken

/-- Where the main thread is: it waits for a message; a coroutine runs; it is about to call
`dispatch_wakeup`; so many calls of `dispatch_error_queue` are left.  While a coroutine runs or is
woken up, these are the ones of the `suspend`s around it. -/
inductive Main where
  | idle
  | running (c pending : ℕ)
  | wakeups (pending : ℕ)
  | errors (pending : ℕ)

/-- **The scheduler and the queues.**  `asserts` counts the assertions of `skynet.queue` that have
failed. -/
structure State (κ : Type) where
  queues : κ → Queue := fun _ => {}
  wakeupQueue : List ℕ := []
  sleepSession : ℕ → Option ℕ := fun _ => none
  sessionIdCoroutine : ℕ → Option Waiter := fun _ => none
  session : ℕ := 1
  threads : ℕ → Thread κ := fun _ => {}
  main : Main := .idle
  asserts : ℕ := 0

variable {κ : Type}

/-- The queues a coroutine is inside of. -/
def State.frames (s : State κ) (c : ℕ) : List κ := (s.threads c).frames

def State.phase (s : State κ) (c : ℕ) : Phase κ := (s.threads c).phase

def State.setPhase (s : State κ) (c : ℕ) (p : Phase κ) : State κ :=
  { s with threads := Function.update s.threads c { s.threads c with phase := p } }

def State.setFrames (s : State κ) (c : ℕ) (l : List κ) : State κ :=
  { s with threads := Function.update s.threads c { s.threads c with frames := l } }

theorem State.phase_setPhase (s : State κ) (c : ℕ) (p : Phase κ) (c' : ℕ) :
    (s.setPhase c p).phase c' = if c' = c then p else s.phase c' := by
  simp only [State.phase, State.setPhase, Function.update_apply]
  split_ifs <;> rfl

theorem State.frames_setPhase (s : State κ) (c : ℕ) (p : Phase κ) (c' : ℕ) :
    (s.setPhase c p).frames c' = s.frames c' := by
  simp only [State.frames, State.setPhase, Function.update_apply]
  split_ifs with h
  · rw [h]
  · rfl

theorem State.phase_setFrames (s : State κ) (c : ℕ) (l : List κ) (c' : ℕ) :
    (s.setFrames c l).phase c' = s.phase c' := by
  simp only [State.phase, State.setFrames, Function.update_apply]
  split_ifs with h
  · rw [h]
  · rfl

theorem State.frames_setFrames (s : State κ) (c : ℕ) (l : List κ) (c' : ℕ) :
    (s.setFrames c l).frames c' = if c' = c then l else s.frames c' := by
  simp only [State.frames, State.setFrames, Function.update_apply]
  split_ifs <;> rfl

/-! ### Suspending and waking up -/

/-- The coroutine yields `"SLEEP"` with a new session, and `suspend` notes it. -/
def yieldSleep (s : State κ) (c pending : ℕ) (p : Phase κ) : State κ :=
  { s.setPhase c p with
    session := s.session + 1
    sessionIdCoroutine := Function.update s.sessionIdCoroutine s.session (some (.co c))
    sleepSession := Function.update s.sleepSession c (some s.session)
    main := .wakeups pending }

/-- The coroutine yields `"CALL"`. -/
def yieldCall (s : State κ) (c pending : ℕ) : State κ :=
  { s.setPhase c .call with
    session := s.session + 1
    sessionIdCoroutine := Function.update s.sessionIdCoroutine s.session (some (.co c))
    main := .wakeups pending }

/-- **`skynet.wakeup`**. -/
def wakeup (s : State κ) (c : ℕ) : State κ :=
  if (s.sleepSession c).isSome then { s with wakeupQueue := s.wakeupQueue ++ [c] } else s

/-- The end of `skynet.wait`. -/
def waited (s : State κ) (c : ℕ) : State κ :=
  { s.setPhase c .ready with
    sleepSession := Function.update s.sleepSession c none
    sessionIdCoroutine := fun n => if s.sleepSession c = some n then none
      else s.sessionIdCoroutine n }

section Queues

variable [DecidableEq κ]

def State.setQueue (s : State κ) (q : κ) (x : Queue) :
    State κ := { s with queues := Function.update s.queues q x }

/-- The coroutine goes inside. -/
def take (s : State κ) (c : ℕ) (q : κ) : State κ :=
  (s.setQueue q { s.queues q with currentThread := some c, ref := (s.queues q).ref + 1 }).setFrames
    c (q :: s.frames c)

/-- **The function that `skynet.queue` answers**, up to the call of `f`. -/
def enter (s : State κ) (c pending : ℕ) (q : κ) : State κ :=
  if (s.queues q).currentThread.any fun t => t ≠ c then
    yieldSleep (s.setQueue q { s.queues q with threadQueue := (s.queues q).threadQueue ++ [c] }) c
      pending (.queued q)
  else take s c q

/-- **`xpcall_ret`**, whether `f` has raised an error or not. -/
def xpcallRet (s : State κ) (q : κ) : State κ :=
  let x := s.queues q
  if x.ref - 1 = 0 then
    match x.threadQueue with
    | [] => s.setQueue q ⟨none, x.ref - 1, []⟩
    | t :: rest => wakeup (s.setQueue q ⟨some t, x.ref - 1, rest⟩) t
  else s.setQueue q { x with ref := x.ref - 1 }

/-- It is still inside. -/
theorem xpcallRet_inner {s : State κ} {q : κ} (h : (s.queues q).ref - 1 ≠ 0) :
    xpcallRet s q = s.setQueue q { s.queues q with ref := (s.queues q).ref - 1 } := by
  rw [xpcallRet]
  exact if_neg h

/-- Nobody waits. -/
theorem xpcallRet_free {s : State κ} {q : κ} (h : (s.queues q).ref - 1 = 0)
    (hrow : (s.queues q).threadQueue = []) :
    xpcallRet s q = s.setQueue q {} := by
  rw [xpcallRet, if_pos h, hrow, h]

/-- The next one is woken up. -/
theorem xpcallRet_next {s : State κ} {q : κ} (h : (s.queues q).ref - 1 = 0) {t : ℕ} {row : List ℕ}
    (hrow : (s.queues q).threadQueue = t :: row) (ht : (s.sleepSession t).isSome = true) :
    xpcallRet s q = { s.setQueue q ⟨some t, 0, row⟩ with wakeupQueue := s.wakeupQueue ++ [t] } := by
  rw [xpcallRet, if_pos h, hrow, h]
  exact if_pos ht

/-- **A coroutine is resumed**, up to where it goes on by itself.  Resuming one that has ended is an
error. -/
def resume (s : State κ) (c pending : ℕ) : State κ :=
  match s.phase c with
  | .call => { s.setPhase c .ready with main := .running c pending }
  | .sleep =>
      { s.setPhase c .ready with
        sleepSession := Function.update s.sleepSession c none
        main := .running c pending }
  | .wait => { waited s c with main := .running c pending }
  | .queued q =>
      let s := { waited s c with main := .running c pending }
      -- a failed assertion is an error at the place of the call
      if (s.queues q).ref = 0 then take s c q else { s with asserts := s.asserts + 1 }
  | _ => { s with main := .idle }

/-- It gets inside when it is its turn. -/
theorem resume_queued {s : State κ} {c n : ℕ} {q : κ} (hc : s.phase c = .queued q)
    (h : (s.queues q).ref = 0) :
    resume s c n = take { waited s c with main := .running c n } c q := by
  rw [resume, hc]
  exact if_pos h

/-! ### What happens next -/

/-- A message starts a coroutine, or answers a session; the coroutine that runs calls a queue,
leaves one, or calls `skynet.wait`, `skynet.sleep`, `skynet.call` or `skynet.wakeup`, or it ends, or
ends with an error; `dispatch_wakeup` is called; `dispatch_error_queue` finds a call that has
failed, or nothing. -/
inductive Event (κ : Type) where
  | message (c : ℕ)
  | response (session : ℕ)
  | enter (q : κ)
  | leave
  | wait
  | sleep
  | call
  | wakeup (c : ℕ)
  | exit
  | error
  | dispatchWakeup
  | failed (session : ℕ)
  | noError

/-- **What happens next**; `none` when it cannot. -/
def step (s : State κ) : Event κ → Option (State κ)
  | .message c =>
      match s.main, s.phase c with
      | .idle, .free => some { s.setPhase c .ready with main := .running c 0 }
      | _, _ => none
  | .response session =>
      match s.main with
      | .idle =>
          match s.sessionIdCoroutine session with
          | none => some s
          | some .broken =>
              some
                { s with sessionIdCoroutine := Function.update s.sessionIdCoroutine session none }
          | some (.co c) =>
              some
                (resume
                { s with sessionIdCoroutine := Function.update s.sessionIdCoroutine session none } c
                0)
      | _ => none
  | .enter q =>
      match s.main with
      | .running c n => some (enter s c n q)
      | _ => none
  | .leave =>
      match s.main with
      | .running c _ =>
          match s.frames c with
          | [] => none
          | q :: rest => some (xpcallRet (s.setFrames c rest) q)
      | _ => none
  | .wait =>
      match s.main with
      | .running c n => some (yieldSleep s c n .wait)
      | _ => none
  | .sleep =>
      match s.main with
      | .running c n => some (yieldSleep s c n .sleep)
      | _ => none
  | .call =>
      match s.main with
      | .running c n => some (yieldCall s c n)
      | _ => none
  | .wakeup c =>
      match s.main with
      | .running _ _ => some (wakeup s c)
      | _ => none
  | .exit =>
      match s.main with
      | .running c n =>
          if (s.frames c).isEmpty then some { s.setPhase c .free with main := .wakeups n } else none
      | _ => none
  | .error =>
      match s.main with
      | .running c _ =>
          if (s.frames c).isEmpty then some { s.setPhase c .dead with main := .idle } else none
      | _ => none
  | .dispatchWakeup =>
      match s.main with
      | .wakeups n =>
          match s.wakeupQueue with
          | [] => some { s with main := .errors (n + 1) }
          | c :: rest =>
              match s.sleepSession c with
              | none => some { s with wakeupQueue := rest, main := .errors (n + 1) }
              | some session =>
                  some (resume { s with
                    wakeupQueue := rest
                    sessionIdCoroutine :=
                      Function.update s.sessionIdCoroutine session (some .broken) } c (n + 1))
      | _ => none
  | .failed session =>
      match s.main, s.sessionIdCoroutine session with
      | .errors (n + 1), some (.co c) =>
          some (resume
            { s with sessionIdCoroutine := Function.update s.sessionIdCoroutine session none } c n)
      | _, _ => none
  | .noError =>
      match s.main with
      | .errors (n + 2) => some { s with main := .errors (n + 1) }
      | .errors 1 => some { s with main := .idle }
      | _ => none

end Queues

/-! ### The rest of the service -/

/-- The coroutine is in `skynet.call` or in `skynet.sleep`. -/
def Answerable (s : State κ) (session : ℕ) : Prop :=
  ∀ c, s.sessionIdCoroutine session = some (.co c) → s.phase c = .call ∨ s.phase c = .sleep

/-- **What the rest of the service keeps to**: only a session of a call or of a timer is answered, a
coroutine that waits in a queue is woken up by the queue only, and no wakeup of a coroutine is still
to come when it calls a queue. -/
def Allowed (s : State κ) : Event κ → Prop
  | .response session => Answerable s session
  | .failed session => Answerable s session
  | .wakeup c => ∀ q, s.phase c ≠ .queued q
  | .enter _ => ∀ c n, s.main = .running c n → c ∉ s.wakeupQueue
  | _ => True

end Halieutics.SkynetQueue
