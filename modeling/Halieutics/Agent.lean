/-
**The sessions of an agent: `service/agent.lua`.**

An agent keeps an object for every user it serves.  A loop reads the socket of the user; when the
socket is gone the agent tells the watchdog, waits for the user to come back, and forgets him if he
does not.  The objects are shared: the loops, the table `data.users` and the coroutines that sleep
all refer to the same object, so this module keeps the objects in a heap.

Each function is the code between two yields.

Main definitions:

* `User`, `Data` — the fields of a user object that decide about its session, and the table;
* `Data.assign`, `Data.store` — `agent.assign` up to its first yield, and after it;
* `Data.gone`, `Data.expire` — `new_user_msgloop` when the socket is gone, and after the sleep;
* `Data.kick` — `agent.kick`;
* `Data.seen`, `Data.Fits` — what an agent knows about a user, and **the objects are in order**.
-/

import Halieutics.Watchdog

set_option relaxedAutoImplicit false
set_option autoImplicit false

namespace Halieutics.Agent

open LuaTable
open Watchdog (Client)

/-- A reference to a user object. -/
abbrev Ref := ℕ

/-- A user object: `fd`, `exit`, `clear` and `force`. -/
structure User where
  id : ℕ := 0
  fd : Option ℕ := none
  exit : Bool := false
  clear : Bool := false
  force : Bool := false

/-- The users of an agent.  The first `nobj` objects have been made. -/
structure Data where
  users : Table ℕ Ref := ∅
  objs : Ref → User := fun _ => {}
  nobj : ℕ := 0

/-- Changing an object in place. -/
def Data.setUser (a : Data) (u : Ref) (f : User → User) : Data :=
  { a with objs := Function.update a.objs u (f (a.objs u)) }

/-- How the first segment of `agent.assign` ends. -/
inductive Assigned where
  /-- It returns `false`: the user is leaving. -/
  | refused
  /-- It returns `true`, with a loop for the object. -/
  | joined (u : Ref)
  /-- It yields in `get_avatar`. -/
  | avatar

/-- **`agent.assign`** up to its first yield. -/
def Data.assign (a : Data) (c : Client) : Data × Assigned :=
  match a.users.lookup c.id with
  | none => (a, .avatar)
  | some u =>
      if (a.objs u).exit then (a, .refused)
      else if (a.objs u).fd.isNone then
        (a.setUser u fun x => { x with fd := some c.fd }, .joined u)
      else (a, .joined u)

/-- `agent.assign` after `get_avatar`: a new object is entered.  It then yields in
`restore_mydesk_from_db` and starts a loop for the object. -/
def Data.store (a : Data) (c : Client) : Data :=
  { users := a.users.insert c.id a.nobj
    objs := Function.update a.objs a.nobj { id := c.id, fd := some c.fd }
    nobj := a.nobj + 1 }

/-- **`new_user_msgloop`** when the socket is gone, up to the call of `watchdog.afk`; the user that
call is about, if it comes to that. -/
def Data.gone (a : Data) (u : Ref) : Data × Option Ref :=
  if (a.objs u).force then (a.setUser u fun x => { x with force := false }, none)
  else
    match a.users.lookup (a.objs u).id with
    | none => (a, none)
    | some v =>
        if (a.objs v).fd = (a.objs u).fd then
          (a.setUser v fun x => { x with fd := none }, some v)
        else (a, none)

/-- The user did not come back: `new_user_msgloop` forgets him. -/
def Data.expires (a : Data) (u : Ref) : Bool :=
  (a.objs u).fd.isNone && !(a.objs u).clear && !(a.objs u).exit

/-- **`new_user_msgloop`** after the sleep, up to the call of `watchdog.exit`. -/
def Data.expire (a : Data) (u : Ref) : Data :=
  let a' := a.setUser u fun x => { x with exit := true }
  { a' with users := a'.users.erase (a.objs u).id }

/-- **`agent.kick`**. -/
def Data.kick (a : Data) (id : ℕ) (clear : Bool) : Data :=
  match a.users.lookup id with
  | none => a
  | some u =>
      let a := if (a.objs u).fd.isSome then a.setUser u fun x =>
        { x with force := true, fd := none }
        else a
      if clear then
        let a := a.setUser u fun x => { x with clear := true }
        { a with users := a.users.erase id }
      else a

/-! ### What an agent knows -/

/-- Whether a user is on the agent, and whether he is connected. -/
def Data.seen (a : Data) (id : ℕ) : Option Bool :=
  (a.users.lookup id).map fun u => (a.objs u).fd.isSome

/-- **The objects are in order**: a user is entered under his number and is not leaving. -/
def Data.Fits (a : Data) : Prop :=
  ∀ id u, a.users.lookup id = some u → u < a.nobj ∧ (a.objs u).id = id ∧
    (a.objs u).exit = false ∧ (a.objs u).clear = false ∧ (a.objs u).force = false

variable {a : Data}

theorem fits_empty : Data.Fits {} := fun _ _ hu => by cases hu

theorem seen_eq_some {id : ℕ} {b : Bool} (h : a.seen id = some b) :
    ∃ u, a.users.lookup id = some u ∧ (a.objs u).fd.isSome = b :=
  Option.map_eq_some_iff.1 h

/-- A user leaves the table, whatever becomes of his object. -/
theorem Data.Fits.drop (h : a.Fits) {id : ℕ} {u : Ref} (hu : a.users.lookup id = some u)
    (x : User) :
    Data.Fits { a with users := a.users.erase id, objs := Function.update a.objs u x } ∧
      ∀ id', Data.seen { a with users := a.users.erase id, objs := Function.update a.objs u x }
      id' =
        if id' = id then none else a.seen id' := by
  have hne : ∀ id' u', id' ≠ id → a.users.lookup id' = some u' → u' ≠ u := by
    rintro id' u' hid hu' rfl
    exact hid ((h id' u' hu').2.1.symm.trans (h id u' hu).2.1)
  refine ⟨?_, ?_⟩
  · intro id' u' hu'
    have hu' : (a.users.erase id).lookup id' = some u' := hu'
    rw [lookup_erase_eq] at hu'
    split at hu'
    · cases hu'
    · rename_i hid
      have hobj : Function.update a.objs u x u' = a.objs u' :=
        Function.update_of_ne (hne id' u' hid hu') _ _
      dsimp only
      rw [hobj]
      exact h id' u' hu'
  · intro id'
    unfold Data.seen
    dsimp only
    rw [lookup_erase_eq]
    split
    · rfl
    · rename_i hid
      cases hu' : a.users.lookup id' with
      | none => rfl
      | some u' =>
          rw [Option.map_some, Option.map_some, Function.update_of_ne (hne id' u' hid hu')]

/-- The loop of a user whom the agent does not know any more. -/
theorem gone_of_none {u : Ref} (hforce : (a.objs u).force = false)
    (hnone : a.users.lookup (a.objs u).id = none) : a.gone u = (a, none) := by
  unfold Data.gone
  rw [if_neg (by rw [hforce]; decide), hnone]

/-- **A user is kicked**, and his loop ends. -/
theorem kick_spec (h : a.Fits) {id : ℕ} {u : Ref} (hu : a.users.lookup id = some u) :
    ((a.kick id true).gone u).1.Fits ∧
      ∀ id', ((a.kick id true).gone u).1.seen id' = if id' = id then none else a.seen id' := by
  obtain ⟨hlt, hid, hexit, hclear, hforce⟩ := h id u hu
  have herase : (a.users.erase id).lookup id = none := by
    rw [lookup_erase_eq, if_pos rfl]
  have heq : ∃ x, ((a.kick id true).gone u).1 =
      { a with users := a.users.erase id, objs := Function.update a.objs u x } := by
    cases hfd : (a.objs u).fd with
    | none =>
        refine ⟨{ a.objs u with clear := true }, ?_⟩
        have hkick : a.kick id true = { a with
            users := a.users.erase id
            objs := Function.update a.objs u { a.objs u with clear := true } } := by
          simp [Data.kick, hu, hfd, Data.setUser]
        rw [gone_of_none, hkick]
        · rw [hkick]
          simpa using hforce
        · rw [hkick]
          dsimp only
          rw [Function.update_self]
          exact hid.symm ▸ herase
    | some fd =>
        refine ⟨{ a.objs u with force := false, fd := none, clear := true }, ?_⟩
        have hkick : a.kick id true = { a with
            users := a.users.erase id
            objs := Function.update a.objs u
              { a.objs u with force := true, fd := none, clear := true } } := by
          simp [Data.kick, hu, hfd, Data.setUser]
        rw [hkick]
        simp [Data.gone, Data.setUser]
  obtain ⟨x, hx⟩ := heq
  rw [hx]
  exact h.drop hu x

/-- **A user is entered** whom the agent does not know. -/
theorem store_spec (h : a.Fits) (c : Client) :
    (a.store c).Fits ∧
      ∀ id', (a.store c).seen id' = if id' = c.id then some true else a.seen id' := by
  have hne : ∀ id' u, a.users.lookup id' = some u → u ≠ a.nobj :=
    fun id' u hu => Nat.ne_of_lt (h id' u hu).1
  refine ⟨?_, ?_⟩
  · intro id' u hu
    have hu : (a.users.insert c.id a.nobj).lookup id' = some u := hu
    rw [lookup_insert_eq] at hu
    split at hu
    · rename_i hid
      obtain rfl := Option.some_inj.1 hu
      simp [Data.store, hid]
    · obtain ⟨hlt, hrest⟩ := h id' u hu
      have hobj : (a.store c).objs u = a.objs u := Function.update_of_ne (hne id' u hu) _ _
      rw [hobj]
      exact ⟨Nat.lt_succ_of_lt hlt, hrest⟩
  · intro id'
    unfold Data.seen Data.store
    dsimp only
    rw [lookup_insert_eq]
    by_cases hid : id' = c.id
    · rw [if_pos hid, if_pos hid, Option.map_some, Function.update_self]
      rfl
    · rw [if_neg hid, if_neg hid]
      cases hu : a.users.lookup id' with
      | none => rfl
      | some u => rw [Option.map_some, Option.map_some, Function.update_of_ne (hne id' u hu)]

/-- **The socket of a user is gone.** -/
theorem gone_spec (h : a.Fits) {id : ℕ} {u : Ref} (hu : a.users.lookup id = some u) :
    (a.gone u).2 = some u ∧ (a.gone u).1.users.lookup id = some u ∧ (a.gone u).1.Fits ∧
      ∀ id', (a.gone u).1.seen id' = if id' = id then some false else a.seen id' := by
  obtain ⟨hlt, hid, hexit, hclear, hforce⟩ := h id u hu
  have heq : a.gone u = (a.setUser u fun x => { x with fd := none }, some u) := by
    unfold Data.gone
    rw [if_neg (by rw [hforce]; decide), hid, hu]
    exact if_pos rfl
  rw [heq]
  refine ⟨rfl, hu, ?_, ?_⟩
  · intro id' u' hu'
    have hu' : a.users.lookup id' = some u' := hu'
    by_cases hne : u' = u
    · subst hne
      simpa [Data.setUser] using h id' u' hu'
    · simpa [Data.setUser, Function.update_of_ne hne] using h id' u' hu'
  · intro id'
    change (a.users.lookup id').map _ = _
    by_cases hid' : id' = id
    · rw [hid', hu, if_pos rfl]
      simp [Data.setUser]
    · rw [if_neg hid']
      unfold Data.seen
      cases hu' : a.users.lookup id' with
      | none => rfl
      | some u' =>
          have hne : u' ≠ u := by
            rintro rfl
            exact hid' ((h id' u' hu').2.1.symm.trans hid)
          simp [Data.setUser, Function.update_of_ne hne]

/-- **A user who has not come back is forgotten.** -/
theorem expire_spec (h : a.Fits) {id : ℕ} {u : Ref} (hu : a.users.lookup id = some u) :
    (a.expires u = !(a.objs u).fd.isSome) ∧ (a.expire u).Fits ∧
      ∀ id', (a.expire u).seen id' = if id' = id then none else a.seen id' := by
  obtain ⟨hlt, hid, hexit, hclear, hforce⟩ := h id u hu
  have heq : a.expire u = { a with
      users := a.users.erase id
      objs := Function.update a.objs u { a.objs u with exit := true } } := by
    simp [Data.expire, Data.setUser, hid]
  refine ⟨?_, ?_⟩
  · simp [Data.expires, hexit, hclear, Option.not_isSome]
  · rw [heq]
    exact h.drop hu _

end Halieutics.Agent
