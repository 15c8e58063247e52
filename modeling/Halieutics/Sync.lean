/-
**The barrier of `lualib/game/sync.lua`.**

A `sync` object lets one coroutine wait — for a message, for every registered seat to arrive, or
for a time-out — while other coroutines register seats, arrive, or abandon the wait.  Everything
but the sleeping itself is plain code on the object, which this module translates; who is resumed
when the object says so is decided by the machine that owns the object.

Main definitions:

* `Halieutics.Sync` — the fields `__users`, `__wait` and `__driver`;
* `Halieutics.Sync.add`, `Halieutics.Sync.wait`, `Halieutics.Sync.wakeup`,
  `Halieutics.Sync.abandon`, `Halieutics.Sync.arrive` — the methods of the same names;
* `Halieutics.Sync.resumed` — what `sync:wait` does when its sleep returns.
-/

import Halieutics.LuaTable

set_option relaxedAutoImplicit false
set_option autoImplicit false

namespace Halieutics

open LuaTable

/-- The names of the waits. -/
inductive St where
  | ready | banker | gamerun | gameend | dismiss
  deriving DecidableEq, Repr

/-- What ended the last wait: `__driver`. -/
inductive Driver where
  | timeout | message | abandon
  deriving DecidableEq, Repr

/-- `__users`: the registered seats, their number, and the number of arrivals. -/
structure SyncUsers where
  seats : Table ℤ Bool := ∅
  count : ℤ := 0
  counter : ℤ := 0

/-- A `sync` object. -/
structure Sync where
  users : Option SyncUsers := none
  waiting : Option St := none
  driver : Option Driver := none

namespace Sync

/-- `sync:add`: register (`ud`) or remove a seat. -/
def add (s : Sync) (seat : ℤ) (ud : Bool) : Sync :=
  let us := s.users.getD {}
  if (us.seats.lookup seat).getD false then
    if ud then { s with users := some us }
    else
      { s with
        users := some { us with seats := us.seats.insert seat false, count := us.count - 1 } }
  else if ud then
    { s with users := some { us with seats := us.seats.insert seat true, count := us.count + 1 } }
  else { s with users := some us }

/-- `sync:wait` up to its sleep; `none` when the assertion that nobody waits fails. -/
def wait (s : Sync) (st : St) : Option Sync :=
  match s.waiting with
  | some _ => none
  | none => some { s with waiting := some st, driver := some .timeout }

/-- `sync:wait` after its sleep. -/
def resumed (s : Sync) : Sync :=
  if s.driver = some .timeout then { s with waiting := none } else s

/-- `sync:wakeup`; the flag is `false` when it raises because no seat was ever registered. -/
def wakeup (s : Sync) (st : St) : Sync × Bool :=
  if s.waiting = some st then
    match s.users with
    | none => ({ s with waiting := none, driver := some .message }, false)
    | some us =>
        ({ users := some { us with counter := 0 }, waiting := none, driver := some .message }, true)
  else (s, true)

/-- `sync:abandon`. -/
def abandon (s : Sync) : Sync :=
  if s.waiting.isSome then { users := none, waiting := none, driver := some .abandon } else s

/-- `sync:arrive`; the flag is `false` when it raises because no seat was ever registered. -/
def arrive (s : Sync) (st : St) (seat : ℤ) : Sync × Bool :=
  if s.waiting = some st then
    match s.users with
    | none => (s, false)
    | some us =>
        if (us.seats.lookup seat).getD false then
          let us := { us with counter := us.counter + 1 }
          if us.count = us.counter then
            wakeup { s with users := some { us with counter := 0 } } st
          else ({ s with users := some us }, true)
        else (s, true)
  else (s, true)

@[simp] theorem add_waiting (s : Sync) (seat : ℤ) (ud : Bool) :
    (s.add seat ud).waiting = s.waiting := by
  unfold add; dsimp only; split <;> split <;> rfl

/-- `sync:wakeup` ends the wait it names, or does nothing. -/
theorem wakeup_cases (s : Sync) (st : St) :
    (s.waiting = some st ∧ (s.wakeup st).1.waiting = none) ∨ (s.wakeup st).1 = s := by
  unfold wakeup
  split
  · refine Or.inl ⟨by assumption, ?_⟩
    split <;> rfl
  · exact Or.inr rfl

/-- `sync:arrive` ends the wait it names, or leaves the wait alone. -/
theorem arrive_waiting (s : Sync) (st : St) (seat : ℤ) :
    (s.waiting = some st ∧ (s.arrive st seat).1.waiting = none) ∨
      (s.arrive st seat).1.waiting = s.waiting := by
  unfold arrive
  split
  · rename_i hw
    split
    · exact Or.inr rfl
    · split
      · dsimp only
        split
        · rename_i us _ _ _
          rcases wakeup_cases { s with users := some { us with counter := 0 } } st with h | h
          · exact Or.inl ⟨hw, h.2⟩
          · exact Or.inr (by rw [h])
        · exact Or.inr rfl
      · exact Or.inr rfl
  · exact Or.inr rfl

end Sync

end Halieutics
