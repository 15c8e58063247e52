/-
**The users of a gate: `service/gate.lua`.**

A gate expects the users that the login service sends to it.  A user who has been announced waits
until he signs in, and a timer forgets him if he does not; after the sign-in he stays on the gate as
long as his session lasts.  The objects are shared between the table `data.users` and the timers, so
this module keeps them in a heap.

The cache of the gate is never filled: `gate.kick` would fill it in a branch that is switched off.
The functions that read it are translated all the same.

Main definitions:

* `User`, `Data` — a user, and the tables of the gate;
* `Data.login`, `Data.signin`, `Data.setState` — `gate.login`, and `cli:signin` without its calls;
* `Data.kick`, `Data.timeout` — `gate.kick` and `timeout_handler` without the call of
  `login.logout`;
* `Data.stateOf` — what the gate knows about a user;
* `Data.Fits` — **the objects and the timers are in order**.
-/

import Halieutics.LuaTable

set_option relaxedAutoImplicit false
set_option autoImplicit false

namespace Halieutics.Gate

open LuaTable

/-- `user.state`. -/
inductive State where
  | wait | ok | afk
  deriving DecidableEq, Repr

/-- A user. -/
structure User where
  id : ℕ := 0
  secret : ℕ := 0
  state : State := .wait

/-- A reference to a user. -/
abbrev Ref := ℕ

/-- The tables of a gate.  The first `nobj` users have been made; `timers` lists those whose timer
`ltmr` has neither run nor been removed. -/
structure Data where
  users : Table ℕ Ref := ∅
  ucache : Table ℕ Ref := ∅
  objs : Ref → User := fun _ => {}
  nobj : ℕ := 0
  timers : List Ref := []

/-- **`gate.login`**: `reset_cache` and the timer. -/
def Data.login (d : Data) (id secret : ℕ) : Data where
  users := d.users.insert id d.nobj
  ucache := d.ucache.erase id
  objs := Function.update d.objs d.nobj ⟨id, secret, .wait⟩
  nobj := d.nobj + 1
  timers := d.timers ++ [d.nobj]

/-- `fetch_user`. -/
def Data.fetchUser (d : Data) (id : ℕ) : Data :=
  match d.users.lookup id, d.ucache.lookup id with
  | none, some u => { d with users := d.users.insert id u, ucache := d.ucache.erase id }
  | _, _ => d

/-- `timer.remove`. -/
def Data.removeTimer (d : Data) (u : Ref) : Data :=
  { d with timers := d.timers.filter fun t => t ≠ u }

/-- `cli:signin` from `fetch_user` to the check of the secret; the user, if it comes to that. -/
def Data.signin (d : Data) (id secret : ℕ) : Data × Option Ref :=
  let d := d.fetchUser id
  match d.users.lookup id with
  | none => (d, none)
  | some u => (d.removeTimer u, if (d.objs u).secret = secret then some u else none)

/-- `user.state = state`. -/
def Data.setState (d : Data) (u : Ref) (state : State) : Data :=
  { d with objs := Function.update d.objs u { d.objs u with state := state } }

/-- **`gate.kick`** up to `login.logout`; `none` if the user is not known. -/
def Data.kick (d : Data) (id : ℕ) : Option Data :=
  match d.users.lookup id with
  | none => none
  | some u => some { d with users := d.users.erase (d.objs u).id }

/-- **`timeout_handler`** up to `login.logout`; the user who is to be logged out. -/
def Data.timeout (d : Data) (u : Ref) : Data × Option ℕ :=
  let d := d.removeTimer u
  if (d.objs u).state = .ok then (d, none)
  else
    -- `clear_user`
    ({ d with
        users := d.users.erase (d.objs u).id
        ucache := d.ucache.erase (d.objs u).id }, some (d.objs u).id)

/-! ### What a gate knows -/

/-- The state of a user on the gate. -/
def Data.stateOf (d : Data) (id : ℕ) : Option State :=
  (d.users.lookup id).map fun u => (d.objs u).state

/-- **The objects and the timers are in order**: a user is entered under his number, the cache is
empty, and a timer belongs to a user who waits. -/
structure Data.Fits (d : Data) : Prop where
  made : ∀ id u, d.users.lookup id = some u → u < d.nobj ∧ (d.objs u).id = id
  cache : ∀ id, d.ucache.lookup id = none
  timers : ∀ u ∈ d.timers, d.users.lookup (d.objs u).id = some u ∧ (d.objs u).state = .wait

variable {d : Data}

theorem fits_empty : Data.Fits {} where
  made := fun _ _ hu => by cases hu
  cache := fun _ => rfl
  timers := List.forall_mem_nil _

theorem stateOf_eq_some {id : ℕ} {st : State} (h : d.stateOf id = some st) :
    ∃ u, d.users.lookup id = some u ∧ (d.objs u).state = st :=
  Option.map_eq_some_iff.1 h

/-- The user `u` is entered under no other number. -/
theorem Data.Fits.inj (h : d.Fits) {id id' : ℕ} {u : Ref} (hu : d.users.lookup id = some u)
    (hu' : d.users.lookup id' = some u) : id = id' :=
  (h.made id u hu).2.symm.trans (h.made id' u hu').2

theorem stateOf_login (h : d.Fits) (id secret id' : ℕ) :
    (d.login id secret).stateOf id' = if id' = id then some .wait else d.stateOf id' := by
  unfold Data.stateOf Data.login
  dsimp only
  rw [lookup_insert_eq]
  by_cases hid : id' = id
  · rw [if_pos hid, if_pos hid, Option.map_some, Function.update_self]
  · rw [if_neg hid, if_neg hid]
    cases hu : d.users.lookup id' with
    | none => rfl
    | some u =>
        have hne : u ≠ d.nobj := Nat.ne_of_lt (h.made id' u hu).1
        rw [Option.map_some, Option.map_some, Function.update_of_ne hne]

/-- **A user is announced** who is not on the gate. -/
theorem Data.Fits.login (h : d.Fits) {id : ℕ} (hid : d.users.lookup id = none) (secret : ℕ) :
    (d.login id secret).Fits where
  made := by
    intro id' u hu
    have hu : (d.users.insert id d.nobj).lookup id' = some u := hu
    change u < d.nobj + 1 ∧ (Function.update d.objs d.nobj ⟨id, secret, .wait⟩ u).id = id'
    rw [lookup_insert_eq] at hu
    split at hu
    · rename_i heq
      obtain rfl := Option.some_inj.1 hu
      rw [Function.update_self]
      exact ⟨Nat.lt_succ_self _, heq.symm⟩
    · obtain ⟨hlt, hmade⟩ := h.made id' u hu
      rw [Function.update_of_ne (Nat.ne_of_lt hlt)]
      exact ⟨Nat.lt_succ_of_lt hlt, hmade⟩
  cache := by
    intro id'
    change (d.ucache.erase id).lookup id' = none
    rw [lookup_erase_eq]
    split
    · rfl
    · exact h.cache id'
  timers := by
    intro u hu
    change (d.users.insert id d.nobj).lookup
      (Function.update d.objs d.nobj ⟨id, secret, .wait⟩ u).id
      = some u ∧ (Function.update d.objs d.nobj ⟨id, secret, .wait⟩ u).state = .wait
    rcases List.mem_append.1 hu with hu | hu
    · obtain ⟨hlook, hst⟩ := h.timers u hu
      have hne : u ≠ d.nobj := Nat.ne_of_lt (h.made _ u hlook).1
      have hne' : (d.objs u).id ≠ id := by
        intro heq
        rw [heq, hid] at hlook
        cases hlook
      rw [Function.update_of_ne hne, lookup_insert_eq, if_neg hne']
      exact ⟨hlook, hst⟩
    · obtain rfl := List.mem_singleton.1 hu
      rw [Function.update_self]
      exact ⟨AList.lookup_insert _, rfl⟩

theorem Data.Fits.removeTimer (h : d.Fits) (u : Ref) : (d.removeTimer u).Fits where
  made := h.made
  cache := h.cache
  timers := fun t ht => h.timers t (List.mem_of_mem_filter ht)

/-- The cache is empty, so `fetch_user` looks the user up. -/
theorem fetchUser_eq (hc : ∀ id, d.ucache.lookup id = none) (id : ℕ) : d.fetchUser id = d := by
  unfold Data.fetchUser
  rw [hc id]
  split
  · rename_i hc
    cases hc
  · rfl

/-- **What `cli:signin` finds**: the user who is announced under this number, and whose timer is
removed, if the secret is his. -/
theorem signin_cases (hc : ∀ id, d.ucache.lookup id = none) (id secret : ℕ) :
    (d.users.lookup id = none ∧ d.signin id secret = (d, none)) ∨
    ∃ u, d.users.lookup id = some u ∧
      ((d.objs u).secret ≠ secret ∧ d.signin id secret = (d.removeTimer u, none) ∨
        (d.objs u).secret = secret ∧ d.signin id secret = (d.removeTimer u, some u)) := by
  unfold Data.signin
  dsimp only
  rw [fetchUser_eq hc]
  cases hu : d.users.lookup id with
  | none => exact Or.inl ⟨rfl, rfl⟩
  | some u =>
      refine Or.inr ⟨u, rfl, ?_⟩
      by_cases hs : (d.objs u).secret = secret
      · exact Or.inr ⟨hs, by simp only [if_pos hs]⟩
      · exact Or.inl ⟨hs, by simp only [if_neg hs]⟩

/-- Changing the state of a user is seen under his number only. -/
theorem stateOf_setState (h : d.Fits) {id : ℕ} {u : Ref} (hu : d.users.lookup id = some u)
    (st : State) (id' : ℕ) :
    (d.setState u st).stateOf id' = if id' = id then some st else d.stateOf id' := by
  unfold Data.stateOf Data.setState
  dsimp only
  by_cases hid : id' = id
  · rw [if_pos hid, hid, hu, Option.map_some, Function.update_self]
  · rw [if_neg hid]
    cases hu' : d.users.lookup id' with
    | none => rfl
    | some u' =>
        have hne : u' ≠ u := by
          rintro rfl
          exact hid (h.inj hu' hu)
        rw [Option.map_some, Option.map_some, Function.update_of_ne hne]

theorem Data.Fits.setState (h : d.Fits) {u : Ref} (hu : u ∉ d.timers) (st : State) :
    (d.setState u st).Fits where
  made := by
    intro id u' hu'
    obtain ⟨hlt, hid⟩ := h.made id u' hu'
    refine ⟨hlt, ?_⟩
    unfold Data.setState
    by_cases hne : u' = u
    · subst hne
      simpa using hid
    · simpa [Function.update_of_ne hne] using hid
  cache := h.cache
  timers := by
    intro t ht
    have hne : t ≠ u := by
      rintro rfl
      exact hu ht
    have hobj : (d.setState u st).objs t = d.objs t := Function.update_of_ne hne _ _
    rw [hobj]
    exact h.timers t ht

/-- A user leaves the table, and with him his timer. -/
theorem Data.Fits.erase (h : d.Fits) {id : ℕ} {ts : List Ref}
    (hts : ∀ t ∈ ts, t ∈ d.timers ∧ (d.objs t).id ≠ id) (c : Table ℕ Ref)
    (hc : ∀ id, c.lookup id = none) :
    Data.Fits { d with users := d.users.erase id, ucache := c, timers := ts } where
  made := by
    intro id' u hu
    have hu : (d.users.erase id).lookup id' = some u := hu
    rw [lookup_erase_eq] at hu
    split at hu
    · cases hu
    · exact h.made id' u hu
  cache := hc
  timers := by
    intro t ht
    obtain ⟨hmem, hne⟩ := hts t ht
    obtain ⟨hlook, hst⟩ := h.timers t hmem
    refine ⟨?_, hst⟩
    change (d.users.erase id).lookup (d.objs t).id = some t
    rw [lookup_erase_eq, if_neg hne]
    exact hlook

theorem stateOf_erase (d : Data) (id id' : ℕ) (c : Table ℕ Ref) (ts : List Ref) :
    Data.stateOf { d with users := d.users.erase id, ucache := c, timers := ts } id' =
      if id' = id then none else d.stateOf id' := by
  unfold Data.stateOf
  dsimp only
  rw [lookup_erase_eq]
  split <;> rfl

/-- **A user who does not wait is kicked.** -/
theorem kick_spec (h : d.Fits) {id : ℕ} {st : State} (hst : d.stateOf id = some st)
    (hne : st ≠ .wait) :
    ∃ d', d.kick id = some d' ∧ d'.Fits ∧
      ∀ id', d'.stateOf id' = if id' = id then none else d.stateOf id' := by
  obtain ⟨u, hu, rfl⟩ := stateOf_eq_some hst
  have hid := (h.made id u hu).2
  have heq : d.kick id = some { d with users := d.users.erase id } := by
    unfold Data.kick
    rw [hu]
    dsimp only
    rw [hid]
  refine ⟨_, heq, h.erase (fun t ht => ⟨ht, fun htid => ?_⟩) d.ucache h.cache, fun id' =>
    stateOf_erase d id id' d.ucache d.timers⟩
  -- the timer would be his own
  obtain ⟨hlook, hwait⟩ := h.timers t ht
  rw [htid, hu, Option.some_inj] at hlook
  exact hne (hlook ▸ hwait)

/-- **A timer runs**: the user is forgotten. -/
theorem timeout_spec (h : d.Fits) {u : Ref} (hu : u ∈ d.timers) :
    ∃ d' id, d.timeout u = (d', some id) ∧ d.stateOf id = some .wait ∧ d'.Fits ∧
      ∀ id', d'.stateOf id' = if id' = id then none else d.stateOf id' := by
  obtain ⟨hlook, hst⟩ := h.timers u hu
  have heq : d.timeout u = ({ d with
      users := d.users.erase (d.objs u).id
      ucache := d.ucache.erase (d.objs u).id
      timers := d.timers.filter fun t => t ≠ u }, some (d.objs u).id) := by
    have hne : ¬ (d.objs u).state = .ok := by
      rw [hst]
      decide
    unfold Data.timeout Data.removeTimer
    dsimp only
    rw [if_neg hne]
  refine ⟨_, _, heq, ?_, h.erase (fun t ht => ?_) _ fun id => ?_,
    fun id' => stateOf_erase d _ id' _ _⟩
  · unfold Data.stateOf
    rw [hlook, Option.map_some, hst]
  · obtain ⟨hmem, hne⟩ := List.mem_filter.1 ht
    refine ⟨hmem, fun hid => ?_⟩
    have hlook' := (h.timers t hmem).1
    rw [hid, hlook, Option.some_inj] at hlook'
    exact of_decide_eq_true hne hlook'.symm
  · rw [lookup_erase_eq]
    split
    · rfl
    · exact h.cache id

end Halieutics.Gate
