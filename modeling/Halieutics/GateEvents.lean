/-
**Timers, sockets and logins of a gate.**

A gate keeps one record for every `gate.login`.  The time-out timer and the socket that signed in
hold the record they were made for; but what they clean up — the entry of `data.users`, and the
user's entry at the login service — they find by the number of the user.  `gate.login` puts a new
record in the place of the old one and leaves its timer alone.

This module runs a gate with all its yields, and with the messages on their way between the gate and
the login service.  Records are numbered in the order in which the login service sends them.

Main definitions:

* `Halieutics.Gate.Service`, `Halieutics.Gate.Pc` — the gate, what the login service knows of its
  users, the sockets, and what is on its way;
* `Halieutics.Gate.machine` — the gate as a machine;
* `Halieutics.Gate.Fresh` — **no timer and no socket removes a later login**;
* `Halieutics.Gate.Apart` — the condition: a login of a user does not meet what an earlier one of
  his left behind.

Main results:

* `Halieutics.Gate.orderly_of_apart` — what timers, sockets and messages hold is the last login of
  their user;
* `Halieutics.Gate.fresh_of_apart` — **stale events never remove a newer session**, in every run
  that meets the condition;
* `Halieutics.Gate.timer_removes_newer` — a timer that was left behind does.
-/

import Halieutics.Coroutine
import Halieutics.Gate

set_option relaxedAutoImplicit false
set_option autoImplicit false

namespace Halieutics.Gate

open Coroutine LuaTable

/-! ### The gate -/

/-- A record on its way to the gate. -/
def Data.make (d : Data) (id secret : ℕ) : Data :=
  { d with objs := Function.update d.objs d.nobj ⟨id, secret, .wait⟩, nobj := d.nobj + 1 }

/-- `reset_cache`. -/
def Data.resetCache (d : Data) (u : Ref) : Data :=
  let d := d.setState u .wait
  { d with users := d.users.insert (d.objs u).id u, ucache := d.ucache.erase (d.objs u).id }

/-- `timer.add`. -/
def Data.addTimer (d : Data) (u : Ref) : Data := { d with timers := d.timers ++ [u] }

/-- `gate.login` is all three. -/
theorem login_eq (d : Data) (id secret : ℕ) :
    d.login id secret = ((d.make id secret).resetCache d.nobj).addTimer d.nobj := by
  simp [Data.login, Data.make, Data.resetCache, Data.addTimer, Data.setState]

/-- Who removes a session. -/
inductive Cause where
  | timer (u : Ref)
  | socket (u : Ref)
  | watchdog

/-- The session that a timer or a socket belongs to. -/
def Cause.session : Cause → Option Ref
  | .timer u | .socket u => some u
  | .watchdog => none

/-- What an observer sees: a session is taken out of `data.users`, or out of the login service. -/
inductive Seen where
  | removed (cause : Cause) (victim : Ref) (state : State)
  | loggedOut (cause : Cause) (victim : Ref)

/-- A socket that the gate reads. -/
structure Sock where
  exit : Bool := false
  user : Option Ref := none
  login : Bool := false

/-- A gate, and `app.online` of the login service. -/
structure Service where
  data : Data := {}
  online : Table ℕ Ref := ∅
  socks : ℕ → Sock := fun _ => {}
  nsock : ℕ := 0
  hist : List Seen := []

/-- What is suspended or on its way. -/
inductive Pc where
  /-- `gate.login` on its way -/
  | arrive (u : Ref) (new : Bool)
  /-- `gate.login` at `userdb.add_prop` -/
  | addProp (u : Ref)
  /-- `client.dispatch` of `new_socket` -/
  | reading (fd : ℕ)
  /-- `cli:signin` at `watchdog.secret` -/
  | secret (fd id secret : ℕ)
  /-- `cli:signin` at `login.restore` -/
  | restore (fd : ℕ) (u : Ref)
  /-- `cli:signin` at `watchdog.kick` -/
  | kickAgent (fd : ℕ) (u : Ref)
  /-- `login.logout` -/
  | logout (cause : Cause) (id : ℕ)

/-- What a socket brings. -/
inductive Read where
  | signin (id secret : ℕ)
  | other
  | lost

/-- What the world supplies to a segment: what was read, whether a call raised, and the answer of
`watchdog.secret`. -/
structure Inp where
  read : Read := .lost
  raised : Bool := false
  secret : Option ℕ := none

/-- The events that begin something: the login service sends a user, a client connects, a timer
runs, the watchdog kicks. -/
inductive Req where
  | login (id secret : ℕ) (new : Bool)
  | connect
  | timeout (u : Ref)
  | kick (id : ℕ)

/-- Whoever has this number is removed. -/
def Service.removing (g : Service) (cause : Cause) (id : ℕ) : List Seen :=
  match g.data.users.lookup id with
  | none => g.hist
  | some v => .removed cause v (g.data.objs v).state :: g.hist

/-- **`gate.kick`** up to `login.logout`. -/
def Service.kick (g : Service) (cause : Cause) (id : ℕ) : Service × List Pc :=
  match g.data.kick id with
  | none => (g, [])
  | some d => ({ g with data := d, hist := g.removing cause id }, [.logout cause id])

/-- **`timeout_handler`** up to `login.logout`. -/
def Service.timeout (g : Service) (u : Ref) : Service × List Pc :=
  match g.data.timeout u with
  | (d, none) => ({ g with data := d }, [])
  | (d, some id) =>
      ({ g with data := d, hist := g.removing (.timer u) id }, [.logout (.timer u) id])

/-- **`gate.login`** from `reset_cache` to the calls that only write to databases. -/
def Service.enter (g : Service) (u : Ref) : Service :=
  { g with data := (g.data.resetCache u).addTimer u }

def Service.setSock (g : Service) (fd : ℕ) (f : Sock → Sock) : Service :=
  { g with socks := Function.update g.socks fd (f (g.socks fd)) }

/-- The end of `cli:signin`. -/
def Service.signed (g : Service) (fd : ℕ) (u : Ref) : Service :=
  ({ g with data := g.data.setState u .ok } : Service).setSock fd fun c =>
    { c with user := some u, login := true }

/-- **`cli:signin`** after the check of `watchdog.secret`. -/
def Service.signin (g : Service) (fd id secret : ℕ) : Service × List Pc :=
  match g.data.signin id secret with
  | (d, none) => ({ g with data := d }, [])
  | (d, some u) =>
      match (d.objs u).state with
      | .afk => ({ g with data := d }, [.restore fd u])
      | .ok => ({ g with data := d }, [.kickAgent fd u])
      | .wait => (({ g with data := d } : Service).signed fd u, [])

/-- `client.dispatch` raises: the end of `new_socket`. -/
def Service.lost (g : Service) (fd : ℕ) : Service × List Pc :=
  match (g.socks fd).login, (g.socks fd).user with
  | true, some u => g.kick (.socket u) (g.data.objs u).id
  | _, _ => (g, [])

/-- **The segments after the yields.** -/
def segment (g : Service) (inp : Inp) : Pc → Service × List Pc
  | .arrive u new => if new then (g, [.addProp u]) else (g.enter u, [])
  | .addProp u => if inp.raised then (g, []) else (g.enter u, [])
  | .reading fd =>
      match inp.read with
      | .lost => g.lost fd
      | .other =>
          -- the socket is handed over to the watchdog, or the request is refused by an assertion
          if (g.socks fd).exit then (g, []) else g.lost fd
      | .signin id secret =>
          if (g.socks fd).exit then (g, [])
          else (g.setSock fd fun c => { c with exit := true }, [.reading fd, .secret fd id secret])
  | .secret fd id secret =>
      if inp.raised then (g, [])
      else
        match inp.secret with
        | none => g.signin fd id secret
        | some s => if s = secret then g.signin fd id secret else (g, [])
  | .restore fd u =>
      if inp.raised || (g.online.lookup (g.data.objs u).id).isSome then (g, [])
      else (({ g with online := g.online.insert (g.data.objs u).id u } : Service).signed fd u, [])
  | .kickAgent fd u => if inp.raised then (g, []) else (g.signed fd u, [])
  | .logout cause id =>
      if inp.raised then (g, [])
      else
        match g.online.lookup id with
        | none => (g, [])
        | some v =>
            ({ g with online := g.online.erase id, hist := .loggedOut cause v :: g.hist }, [])

/-- The first segments. -/
def direct (g : Service) : Req → Service × List Pc
  | .login id secret new =>
      ({ g with
          data := g.data.make id secret
          online := g.online.insert id g.data.nobj }, [.arrive g.data.nobj new])
  | .connect => ({ g with socks := Function.update g.socks g.nsock {}, nsock := g.nsock + 1 },
      [.reading g.nsock])
  | .timeout u => if u ∈ g.data.timers then g.timeout u else (g, [])
  | .kick id => g.kick .watchdog id

/-- **The gate as a machine.** -/
def machine : Machine Service Pc Req Inp where
  call g r _ := direct g r
  resume g pc inp := some (segment g inp pc)

abbrev Sys := Pool Service Pc

abbrev Ev := Coroutine.Event Req Inp

/-- Before the first login. -/
def start : Sys := ⟨{}, []⟩

/-! ### Stale events -/

/-- A removal is no harm to later logins; and a timer removes nobody who is signed in. -/
def Seen.harmless : Seen → Prop
  | .removed (.timer u) v st => v ≤ u ∧ st ≠ .ok
  | .removed (.socket u) v _ => v ≤ u
  | .loggedOut (.timer u) v => v ≤ u
  | .loggedOut (.socket u) v => v ≤ u
  | _ => True

/-- **No timer and no socket removes a later login.** -/
def Fresh (hist : List Seen) : Prop := ∀ e ∈ hist, e.harmless

/-- This is the last login of its user. -/
def Data.Latest (d : Data) (u : Ref) : Prop :=
  ∀ v, v < d.nobj → (d.objs v).id = (d.objs u).id → v ≤ u

/-- The session that something suspended holds. -/
def Pc.session (g : Service) : Pc → Option Ref
  | .arrive u _ | .addProp u | .restore _ u | .kickAgent _ u => some u
  | .reading fd => if (g.socks fd).login then (g.socks fd).user else none
  | .secret _ _ _ => none
  | .logout cause _ => cause.session

/-- The sessions that timers, sockets and messages hold. -/
def attached (s : Sys) : List Ref := s.shared.data.timers ++ s.cos.filterMap (Pc.session s.shared)

/-- **The condition**: a login of a user is sent only when no timer, no socket and no message holds
an earlier one of his, and nobody signs in with an earlier one when a later one was sent. -/
def Apart (s : Sys) : Ev → Prop
  | .call (.login id _ _) _ => ∀ u ∈ attached s, (s.shared.data.objs u).id ≠ id
  | .call _ _ => True
  | .resume i _ =>
      match s.cos[i]? with
      | some (.secret _ id _) =>
          ∀ u, s.shared.data.users.lookup id = some u → s.shared.data.Latest u
      | _ => True

instance (d : Data) (u : Ref) : Decidable (d.Latest u) := by
  unfold Data.Latest
  infer_instance

instance (s : Sys) (e : Ev) : Decidable (Apart s e) := by
  unfold Apart
  split
  · infer_instance
  · infer_instance
  · split
    · rename_i id _ _
      exact decidable_of_iff
        ((s.shared.data.users.lookup id).all fun u => decide (s.shared.data.Latest u))
        (by cases s.shared.data.users.lookup id <;> simp)
    · infer_instance

/-! ### What a segment may change -/

/-- The records and their numbers stay. -/
structure Data.Same (d d' : Data) : Prop where
  nobj : d'.nobj = d.nobj
  ids : ∀ u, (d'.objs u).id = (d.objs u).id

/-- A session that something may hold: the last login of its user. -/
def Service.Held (g : Service) (u : Ref) : Prop := u < g.data.nobj ∧ g.data.Latest u

theorem held_same {g g' : Service} (h : g.data.Same g'.data) (u : Ref) : g'.Held u ↔ g.Held u := by
  simp only [Service.Held, Data.Latest, h.nobj, h.ids]

/-- Two logins of one user that are both the last are one. -/
theorem Service.Held.unique {g : Service} {u v : Ref} (hu : g.Held u) (hv : g.Held v)
    (h : (g.data.objs u).id = (g.data.objs v).id) : u = v :=
  le_antisymm (hv.2 u hu.1 h) (hu.2 v hv.1 h.symm)

/-- **What a segment may change**: whatever it adds is held by the last login of a user. -/
structure Moves (g g' : Service) (l : List Pc) : Prop where
  same : g.data.Same g'.data
  users : ∀ id v, g'.data.users.lookup id = some v →
    g.data.users.lookup id = some v ∨ g.Held v ∧ (g.data.objs v).id = id
  cache : ∀ id, g'.data.ucache.lookup id = none
  online : ∀ id v, g'.online.lookup id = some v →
    g.online.lookup id = some v ∨ g.Held v ∧ (g.data.objs v).id = id
  timers : ∀ u ∈ g'.data.timers, u ∈ g.data.timers ∨
    g.Held u ∧ ∀ v, g'.data.users.lookup (g.data.objs u).id = some v → v = u
  sessions : ∀ (pc : Pc) u, pc.session g' = some u → pc.session g = some u ∨ g.Held u
  left : ∀ pc ∈ l, ∀ u, pc.session g' = some u → g.Held u
  causes : ∀ cause id u, .logout cause id ∈ l → cause.session = some u → (g.data.objs u).id = id
  hist : ∀ e ∈ g'.hist, e ∈ g.hist ∨ e.harmless

/-- **The invariant**: the tables are in order, and timers, sockets and messages hold the last login
of their user. -/
structure Orderly (g : Service) (pcs : List Pc) : Prop where
  made : ∀ id u, g.data.users.lookup id = some u → u < g.data.nobj ∧ (g.data.objs u).id = id
  cache : ∀ id, g.data.ucache.lookup id = none
  online : ∀ id u, g.online.lookup id = some u → u < g.data.nobj ∧ (g.data.objs u).id = id
  held : ∀ u ∈ g.data.timers, g.Held u
  sessions : ∀ pc ∈ pcs, ∀ u, pc.session g = some u → g.Held u
  timers : ∀ u ∈ g.data.timers, ∀ v, g.data.users.lookup (g.data.objs u).id = some v → v = u
  causes : ∀ cause id u, .logout cause id ∈ pcs → cause.session = some u → (g.data.objs u).id = id
  fresh : Fresh g.hist

section Moves

variable {g g' g'' : Service} {l l' ps rest : List Pc}

/-- **A segment keeps the invariant.** -/
theorem Orderly.move (ps : List Pc) (h : Orderly g (ps ++ rest)) (hm : Moves g g' l) :
    Orderly g' (l ++ rest) where
  made id u hu := by
    rw [hm.same.nobj, hm.same.ids]
    rcases hm.users id u hu with hu | ⟨hu, hid⟩
    · exact h.made id u hu
    · exact ⟨hu.1, hid⟩
  cache := hm.cache
  online id u hu := by
    rw [hm.same.nobj, hm.same.ids]
    rcases hm.online id u hu with hu | ⟨hu, hid⟩
    · exact h.online id u hu
    · exact ⟨hu.1, hid⟩
  held u hu := by
    rw [held_same hm.same]
    rcases hm.timers u hu with hu | hu
    · exact h.held u hu
    · exact hu.1
  sessions pc hpc u hu := by
    rw [held_same hm.same]
    rcases List.mem_append.1 hpc with hpc | hpc
    · exact hm.left pc hpc u hu
    · rcases hm.sessions pc u hu with hu | hu
      · exact h.sessions pc (List.mem_append_right _ hpc) u hu
      · exact hu
  timers u hu v hv := by
    rw [hm.same.ids] at hv
    rcases hm.timers u hu with hu | ⟨-, hu⟩
    · rcases hm.users _ v hv with hv | ⟨hv, hid⟩
      · exact h.timers u hu v hv
      · exact hv.unique (h.held u hu) hid
    · exact hu v hv
  causes cause id u hpc hu := by
    rw [hm.same.ids]
    rcases List.mem_append.1 hpc with hpc | hpc
    · exact hm.causes cause id u hpc hu
    · exact h.causes cause id u (List.mem_append_right _ hpc) hu
  fresh e he := by
    rcases hm.hist e he with he | he
    · exact h.fresh e he
    · exact he

theorem Orderly.perm {pcs pcs' : List Pc} (h : Orderly g pcs) (hp : pcs.Perm pcs') :
    Orderly g pcs' where
  made := h.made
  cache := h.cache
  online := h.online
  held := h.held
  sessions pc hpc := h.sessions pc (hp.mem_iff.2 hpc)
  timers := h.timers
  causes cause id u hpc := h.causes cause id u (hp.mem_iff.2 hpc)
  fresh := h.fresh

/-- Nothing changes, and something goes on that holds what it may hold. -/
theorem moves_refl (hc : ∀ id, g.data.ucache.lookup id = none)
    (hl : ∀ pc ∈ l, ∀ u, pc.session g = some u → g.Held u)
    (hk : ∀ cause id u, .logout cause id ∈ l → cause.session = some u → (g.data.objs u).id = id) :
    Moves g g l where
  same := ⟨rfl, fun _ => rfl⟩
  users _ _ hv := Or.inl hv
  cache := hc
  online _ _ hv := Or.inl hv
  timers _ hu := Or.inl hu
  sessions _ _ hu := Or.inl hu
  left := hl
  causes := hk
  hist _ he := Or.inl he

/-- One change after the other. -/
theorem Moves.trans (h : Moves g g' []) (h' : Moves g' g'' l) : Moves g g'' l where
  same := ⟨h'.same.nobj.trans h.same.nobj, fun u => (h'.same.ids u).trans (h.same.ids u)⟩
  users id v hv := by
    rcases h'.users id v hv with hv | ⟨hv, hid⟩
    · exact h.users id v hv
    · exact Or.inr ⟨(held_same h.same v).1 hv, (h.same.ids v).symm.trans hid⟩
  cache := h'.cache
  online id v hv := by
    rcases h'.online id v hv with hv | ⟨hv, hid⟩
    · exact h.online id v hv
    · exact Or.inr ⟨(held_same h.same v).1 hv, (h.same.ids v).symm.trans hid⟩
  timers u hu := by
    rcases h'.timers u hu with hu' | ⟨hu', hv⟩
    · rcases h.timers u hu' with hu'' | ⟨hu'', hv⟩
      · exact Or.inl hu''
      · refine Or.inr ⟨hu'', fun v hlook => ?_⟩
        rcases h'.users _ v hlook with hlook | ⟨hheld, hid⟩
        · exact hv v hlook
        · rw [h.same.ids] at hid
          exact ((held_same h.same v).1 hheld).unique hu'' hid
    · exact Or.inr ⟨(held_same h.same u).1 hu', by rw [← h.same.ids]; exact hv⟩
  sessions pc u hu := by
    rcases h'.sessions pc u hu with hu | hu
    · exact h.sessions pc u hu
    · exact Or.inr ((held_same h.same u).1 hu)
  left pc hpc u hu := (held_same h.same u).1 (h'.left pc hpc u hu)
  causes cause id u hpc hu := by
    rw [← h.same.ids]
    exact h'.causes cause id u hpc hu
  hist e he := by
    rcases h'.hist e he with he | he
    · exact h.hist e he
    · exact Or.inr he

/-- A segment that ends without a change. -/
theorem moves_end (hc : ∀ id, g.data.ucache.lookup id = none) : Moves g g [] :=
  moves_refl hc (fun _ h => absurd h List.not_mem_nil) fun _ _ _ h => absurd h List.not_mem_nil

/-- `timer.remove`. -/
theorem moves_removeTimer (hc : ∀ id, g.data.ucache.lookup id = none) (u : Ref) :
    Moves g { g with data := g.data.removeTimer u } [] :=
  { moves_end hc with
    same := ⟨rfl, fun _ => rfl⟩
    timers := fun _ ht => Or.inl (List.mem_of_mem_filter ht)
    sessions := fun pc _ hv => Or.inl (by cases pc <;> exact hv) }

/-- Setting the state of a user. -/
theorem same_setState (d : Data) (u : Ref) (st : State) : d.Same (d.setState u st) where
  nobj := rfl
  ids v := by
    by_cases h : v = u
    · rw [h, Data.setState]
      simp
    · rw [Data.setState]
      simp [Function.update_of_ne h]

/-- What the sockets hold when one of them has changed. -/
theorem session_setSock {fd : ℕ} {f : Sock → Sock} {pc : Pc} {u : Ref}
    (h : pc.session (g.setSock fd f) = some u) : pc.session g = some u ∨
      (f (g.socks fd)).login = true ∧ (f (g.socks fd)).user = some u := by
  cases pc with
  | reading fd' =>
      by_cases hfd : fd' = fd
      · rw [Pc.session, hfd] at h
        simp only [Service.setSock, Function.update_self] at h
        split at h
        · rename_i hl
          exact Or.inr ⟨hl, h⟩
        · simp at h
      · rw [Pc.session] at h
        simp only [Service.setSock, Function.update_of_ne hfd] at h
        exact Or.inl h
  | _ => exact Or.inl h

/-- **A sign-in is finished**: the socket holds the session. -/
theorem moves_signed (hc : ∀ id, g.data.ucache.lookup id = none) {u : Ref}
    (hu : g.Held u) (fd : ℕ) :
    Moves g (g.signed fd u) [] where
  same := same_setState g.data u .ok
  users _ _ hv := Or.inl hv
  cache := hc
  online _ _ hv := Or.inl hv
  timers _ ht := Or.inl ht
  sessions pc v hv := by
    rcases session_setSock hv with hv | ⟨-, hv⟩
    · exact Or.inl (by cases pc <;> exact hv)
    · obtain rfl : u = v := Option.some.inj hv
      exact Or.inr hu
  left _ h := absurd h List.not_mem_nil
  causes _ _ _ h := absurd h List.not_mem_nil
  hist _ he := Or.inl he

/-- **A login enters its session, and a timer holds it.** -/
theorem moves_enter (hc : ∀ id, g.data.ucache.lookup id = none) {u : Ref} (hu : g.Held u) :
    Moves g (g.enter u) [] := by
  have hids := (same_setState g.data u .wait).ids
  have hlook : ∀ id, (g.enter u).data.users.lookup id =
      if id = (g.data.objs u).id then some u else g.data.users.lookup id := by
    intro id
    change (g.data.users.insert ((g.data.setState u .wait).objs u).id u).lookup id = _
    rw [hids, lookup_insert_eq]
  refine ⟨⟨rfl, hids⟩, fun id v hv => ?_, fun id => ?_, fun _ _ hv => Or.inl hv,
    fun t ht => ?_, fun pc v hv => Or.inl (by cases pc <;> exact hv),
    fun _ h => absurd h List.not_mem_nil, fun _ _ _ h => absurd h List.not_mem_nil,
    fun _ he => Or.inl he⟩
  · rw [hlook] at hv
    split at hv
    · rename_i hid
      obtain rfl := Option.some.inj hv
      exact Or.inr ⟨hu, hid.symm⟩
    · exact Or.inl hv
  · change (g.data.ucache.erase _).lookup id = none
    rw [lookup_erase_eq]
    split
    · rfl
    · exact hc id
  · rcases List.mem_append.1 ht with ht | ht
    · exact Or.inl ht
    · obtain rfl := List.mem_singleton.1 ht
      refine Or.inr ⟨hu, fun v hv => ?_⟩
      rw [hlook, if_pos rfl] at hv
      exact (Option.some.inj hv).symm

/-- **Somebody is removed**, and the login service will be told. -/
theorem moves_removing {cause : Cause} {id : ℕ} {d : Data}
    (hd : g.data.Same d)
    (hu : ∀ id' v, d.users.lookup id' = some v → g.data.users.lookup id' = some v)
    (hc : ∀ id, d.ucache.lookup id = none) (ht : ∀ u ∈ d.timers, u ∈ g.data.timers)
    (hs : ∀ u, cause.session = some u → g.Held u ∧ (g.data.objs u).id = id)
    (hh : ∀ v, g.data.users.lookup id = some v →
      (Seen.removed cause v (g.data.objs v).state).harmless) :
    Moves g { g with data := d, hist := g.removing cause id } [.logout cause id] where
  same := hd
  users id' v hv := Or.inl (hu id' v hv)
  cache := hc
  online _ _ hv := Or.inl hv
  timers u hu := Or.inl (ht u hu)
  sessions pc v hv := Or.inl (by cases pc <;> exact hv)
  left pc hpc u hu := by
    obtain rfl := List.mem_singleton.1 hpc
    exact (hs u hu).1
  causes cause' id' u hpc hu := by
    obtain ⟨rfl, rfl⟩ := Pc.logout.inj (List.mem_singleton.1 hpc)
    exact (hs u hu).2
  hist e he := by
    change e ∈ g.removing cause id at he
    rw [Service.removing] at he
    cases hv : g.data.users.lookup id with
    | none =>
        rw [hv] at he
        exact Or.inl he
    | some v =>
        rw [hv] at he
        rcases List.mem_cons.1 he with rfl | he
        · exact Or.inr (hh v hv)
        · exact Or.inl he

/-- `gate.kick`, on behalf of a timer, a socket or the watchdog. -/
theorem moves_kick (h : Orderly g ps) {cause : Cause} {id : ℕ}
    (hs : ∀ u, cause.session = some u → g.Held u ∧ (g.data.objs u).id = id)
    (hh : ∀ v, g.data.users.lookup id = some v →
      (Seen.removed cause v (g.data.objs v).state).harmless) :
    Moves g (g.kick cause id).1 (g.kick cause id).2 := by
  rw [Service.kick, Data.kick]
  cases hu : g.data.users.lookup id with
  | none => exact moves_end h.cache
  | some u =>
      refine moves_removing ⟨rfl, fun _ => rfl⟩ (fun id' v hv => ?_) h.cache (fun _ ht => ht) hs hh
      have hv : (g.data.users.erase (g.data.objs u).id).lookup id' = some v := hv
      rw [lookup_erase_eq] at hv
      split at hv
      · cases hv
      · exact hv

/-- A session that is held is not older than the others of its user. -/
theorem Orderly.le_of_held (h : Orderly g ps) {u v : Ref} (hu : g.Held u)
    (hv : g.data.users.lookup (g.data.objs u).id = some v) : v ≤ u := by
  obtain ⟨hlt, hid⟩ := h.made _ v hv
  exact hu.2 v hlt hid

/-- **A socket is lost.** -/
theorem moves_lost (h : Orderly g ps) {fd : ℕ} (hfd : .reading fd ∈ ps) :
    Moves g (g.lost fd).1 (g.lost fd).2 := by
  rw [Service.lost]
  split
  · rename_i u hl hu
    have hheld : g.Held u := h.sessions _ hfd u (by rw [Pc.session, if_pos hl, hu])
    refine moves_kick h (fun v hv => ?_) fun v hv => h.le_of_held hheld hv
    obtain rfl : u = v := Option.some.inj hv
    exact ⟨hheld, rfl⟩
  · exact moves_end h.cache

/-- **A timer runs**: it removes its own session, and only when nobody has signed in with it. -/
theorem moves_timeout (h : Orderly g ps) {u : Ref} (hu : u ∈ g.data.timers) :
    Moves g (g.timeout u).1 (g.timeout u).2 := by
  have hheld := h.held u hu
  rw [Service.timeout, Data.timeout]
  split
  · rename_i hst he
    split at he
    · obtain ⟨rfl, -⟩ := Prod.mk.inj he
      exact moves_removeTimer h.cache u
    · simp at he
  · rename_i d id he
    split at he
    · simp at he
    · rename_i hst
      obtain ⟨rfl, hid⟩ := Prod.mk.inj he
      obtain rfl := Option.some.inj hid
      refine moves_removing ⟨rfl, fun _ => rfl⟩ (fun id' v hv => ?_) (fun id' => ?_)
        (fun _ ht => List.mem_of_mem_filter ht) (fun v hv => ?_) fun v hv => ?_
      · have hv : (g.data.users.erase (g.data.objs u).id).lookup id' = some v := hv
        rw [lookup_erase_eq] at hv
        split at hv
        · cases hv
        · exact hv
      · change (g.data.ucache.erase _).lookup id' = none
        rw [lookup_erase_eq]
        split
        · rfl
        · exact h.cache id'
      · obtain rfl : u = v := Option.some.inj hv
        exact ⟨hheld, rfl⟩
      · obtain rfl := h.timers u hu v hv
        exact ⟨le_rfl, hst⟩

/-- **A sign-in**, when what it finds is the last login. -/
theorem moves_signin (h : Orderly g ps) {fd id secret : ℕ}
    (hlast : ∀ u, g.data.users.lookup id = some u → g.data.Latest u) :
    Moves g (g.signin fd id secret).1 (g.signin fd id secret).2 := by
  rw [Service.signin]
  rcases signin_cases h.cache id secret with ⟨-, hs⟩ | ⟨u, hu, ⟨-, hs⟩ | ⟨-, hs⟩⟩
  · rw [hs]
    exact moves_end h.cache
  · rw [hs]
    exact moves_removeTimer h.cache u
  · rw [hs]
    have hheld : g.Held u := ⟨(h.made id u hu).1, hlast u hu⟩
    have hrem := moves_removeTimer h.cache u
    have hheld' := (held_same hrem.same u).2 hheld
    have waits : ∀ pc : Pc, (∀ g v, pc.session g = some v → u = v) → (∀ c i, pc ≠ .logout c i) →
        Moves g { g with data := g.data.removeTimer u } [pc] := by
      intro pc hpc hno
      refine hrem.trans (moves_refl h.cache (fun pc' hpc' v hv => ?_) fun c i _ hm => ?_)
      · obtain rfl := List.mem_singleton.1 hpc'
        obtain rfl := hpc _ v hv
        exact hheld'
      · exact absurd (List.mem_singleton.1 hm).symm (hno c i)
    dsimp only
    split
    · exact waits (.restore fd u) (fun _ _ hv => Option.some.inj hv) (by simp)
    · exact waits (.kickAgent fd u) (fun _ _ hv => Option.some.inj hv) (by simp)
    · exact hrem.trans
        (moves_signed (g := { g with data := g.data.removeTimer u }) h.cache hheld' fd)

/-- **What a segment changes.** -/
theorem moves_segment {pc : Pc} (h : Orderly g (pc :: rest)) (inp : Inp)
    (hlast : ∀ fd id secret, pc = .secret fd id secret →
      ∀ u, g.data.users.lookup id = some u → g.data.Latest u) :
    Moves g (segment g inp pc).1 (segment g inp pc).2 := by
  have hheld := h.sessions pc List.mem_cons_self
  have ends : Moves g g [] := moves_end h.cache
  cases pc with
  | arrive u new =>
      rw [segment]
      split
      · refine moves_refl h.cache (fun pc' hpc' v hv => ?_) (by simp)
        obtain rfl := List.mem_singleton.1 hpc'
        exact hheld v hv
      · exact moves_enter h.cache (hheld u rfl)
  | addProp u =>
      rw [segment]
      split
      · exact ends
      · exact moves_enter h.cache (hheld u rfl)
  | reading fd =>
      have hlost : Moves g (g.lost fd).1 (g.lost fd).2 := moves_lost h List.mem_cons_self
      rw [segment]
      split
      · exact hlost
      · split
        · exact ends
        · exact hlost
      · split
        · exact ends
        · rename_i hexit
          have hset : ∀ (pc' : Pc) v,
            pc'.session (g.setSock fd fun c => { c with exit := true }) = some v →
              pc'.session g = some v ∨ (Pc.reading fd).session g = some v := by
            intro pc' v hv
            refine (session_setSock hv).imp_right fun hv => ?_
            rw [Pc.session, if_pos hv.1]
            exact hv.2
          refine ⟨⟨rfl, fun _ => rfl⟩, fun _ _ hv => Or.inl hv, h.cache, fun _ _ hv => Or.inl hv,
            fun _ ht => Or.inl ht, fun pc' v hv => (hset pc' v hv).imp_right (hheld v),
            fun pc' hpc' v hv => ?_, by simp, fun _ he => Or.inl he⟩
          rcases hset pc' v hv with hv | hv
          · rcases List.mem_cons.1 hpc' with rfl | hpc'
            · exact hheld v hv
            · obtain rfl := List.mem_singleton.1 hpc'
              simp [Pc.session] at hv
          · exact hheld v hv
  | secret fd id secret =>
      have hsign : Moves g (g.signin fd id secret).1 (g.signin fd id secret).2 :=
        moves_signin h (hlast fd id secret rfl)
      rw [segment]
      split
      · exact ends
      · split
        · exact hsign
        · split
          · exact hsign
          · exact ends
  | restore fd u =>
      have hu := hheld u rfl
      rw [segment]
      split
      · exact ends
      · have honline : Moves g { g with online := g.online.insert (g.data.objs u).id u } [] := ?_
        · exact honline.trans
            (moves_signed (g := { g with online := g.online.insert (g.data.objs u).id u })
            h.cache hu fd)
        refine { ends with
          online := fun id v hv => ?_
          sessions := fun pc _ hv => Or.inl (by cases pc <;> exact hv) }
        have hv : (g.online.insert (g.data.objs u).id u).lookup id = some v := hv
        rw [lookup_insert_eq] at hv
        split at hv
        · rename_i hid
          obtain rfl := Option.some.inj hv
          exact Or.inr ⟨hu, hid.symm⟩
        · exact Or.inl hv
  | kickAgent fd u =>
      rw [segment]
      split
      · exact ends
      · exact moves_signed h.cache (hheld u rfl) fd
  | logout cause id =>
      rw [segment]
      split
      · exact ends
      · cases hv : g.online.lookup id with
        | none => exact ends
        | some v =>
            refine { ends with
              online := fun id' v' hv' => ?_
              sessions := fun pc _ hv => Or.inl (by cases pc <;> exact hv)
              hist := fun e he => ?_ }
            · have hv' : (g.online.erase id).lookup id' = some v' := hv'
              rw [lookup_erase_eq] at hv'
              split at hv'
              · cases hv'
              · exact Or.inl hv'
            · rcases List.mem_cons.1 he with rfl | he
              · right
                have hle : ∀ u, cause.session = some u → v ≤ u := by
                  intro u hu
                  obtain ⟨hlt, hid⟩ := h.online id v hv
                  exact (hheld u hu).2 v hlt
                    (hid.trans (h.causes cause id u List.mem_cons_self hu).symm)
                cases cause with
                | timer u => exact hle u rfl
                | socket u => exact hle u rfl
                | watchdog => trivial
              · exact Or.inl he

/-- **A login is sent**: nothing holds an earlier login of the user. -/
theorem Orderly.login {id secret : ℕ} {new : Bool} (h : Orderly g rest)
    (hapart : ∀ u, (u ∈ g.data.timers ∨ ∃ pc ∈ rest, pc.session g = some u) →
    (g.data.objs u).id ≠ id) :
    Orderly (direct g (.login id secret new)).1 ((direct g (.login id secret new)).2 ++ rest) := by
  obtain ⟨g', hg'⟩ : ∃ g', g' = (direct g (.login id secret new)).1 := ⟨_, rfl⟩
  have hold : ∀ u, u < g.data.nobj → g'.data.objs u = g.data.objs u := by
    intro u hu
    rw [hg']
    exact Function.update_of_ne hu.ne _ _
  have hnew : g'.data.objs g.data.nobj = ⟨id, secret, .wait⟩ := by
    rw [hg']
    exact Function.update_self _ _ _
  have hnobj : g'.data.nobj = g.data.nobj + 1 := by rw [hg']; rfl
  have hlt : ∀ {v}, v < g'.data.nobj → v < g.data.nobj ∨ v = g.data.nobj := by
    intro v hv
    rw [hnobj] at hv
    exact Nat.lt_succ_iff_lt_or_eq.1 hv
  -- what is held stays the last login
  have keep : ∀ u, g.Held u → (g.data.objs u).id ≠ id → g'.Held u := by
    intro u hu hid
    refine ⟨by rw [hnobj]; exact Nat.lt_succ_of_lt hu.1, fun v hv hv' => ?_⟩
    rw [hold u hu.1] at hv'
    rcases hlt hv with hv | rfl
    · rw [hold v hv] at hv'
      exact hu.2 v hv hv'
    · rw [hnew] at hv'
      exact absurd hv'.symm hid
  have hfresh : g'.Held g.data.nobj := by
    refine ⟨by rw [hnobj]; exact Nat.lt_succ_self _, fun v hv _ => ?_⟩
    rcases hlt hv with hv | rfl
    · exact hv.le
    · exact le_rfl
  have hmade : ∀ id' u, u < g.data.nobj ∧ (g.data.objs u).id = id' →
      u < g'.data.nobj ∧ (g'.data.objs u).id = id' := by
    rintro id' u ⟨hu, hid⟩
    rw [hold u hu, hnobj]
    exact ⟨Nat.lt_succ_of_lt hu, hid⟩
  have hsess : ∀ (pc : Pc), pc.session g' = pc.session g := by
    intro pc
    rw [hg']
    cases pc <;> rfl
  have hheld : ∀ pc ∈ rest, ∀ u, pc.session g = some u → g.Held u ∧ (g.data.objs u).id ≠ id :=
    fun pc hpc u hu => ⟨h.sessions pc hpc u hu, hapart u (Or.inr ⟨pc, hpc, hu⟩)⟩
  have htimers : g'.data.timers = g.data.timers := by rw [hg']; rfl
  have husers : g'.data.users = g.data.users := by rw [hg']; rfl
  change Orderly _ (.arrive g.data.nobj new :: rest)
  rw [← hg']
  refine ⟨fun id' u hu => ?_, fun id' => ?_, fun id' u hu => ?_, fun u hu => ?_,
    fun pc hpc u hu => ?_,
    fun u hu v hv => ?_, fun cause id' u hpc hu => ?_, ?_⟩
  · rw [husers] at hu
    exact hmade id' u (h.made id' u hu)
  · rw [hg']
    exact h.cache id'
  · have hu : (g.online.insert id g.data.nobj).lookup id' = some u := by rw [hg'] at hu; exact hu
    rw [lookup_insert_eq] at hu
    split at hu
    · rename_i hid
      obtain rfl := Option.some.inj hu
      rw [hnew]
      exact ⟨hfresh.1, hid.symm⟩
    · exact hmade id' u (h.online id' u hu)
  · rw [htimers] at hu
    exact keep u (h.held u hu) (hapart u (Or.inl hu))
  · rw [hsess] at hu
    rcases List.mem_cons.1 hpc with rfl | hpc
    · obtain rfl : g.data.nobj = u := Option.some.inj hu
      exact hfresh
    · exact keep u (hheld pc hpc u hu).1 (hheld pc hpc u hu).2
  · rw [htimers] at hu
    rw [husers, hold u (h.held u hu).1] at hv
    exact h.timers u hu v hv
  · rcases List.mem_cons.1 hpc with hpc | hpc
    · cases hpc
    · have hlt' := (hheld _ hpc u hu).1.1
      rw [hold u hlt']
      exact h.causes cause id' u hpc hu
  · rw [hg']
    exact h.fresh

end Moves

/-! ### Every run -/

/-- **The invariant holds along every run** that meets the condition. -/
theorem orderly_of_apart {s : Sys} (h : machine.Reach Apart start s) : Orderly s.shared s.cos := by
  refine Machine.Reach.inv (P := fun s => Orderly s.shared s.cos) ?_ ?_ h
  · exact ⟨fun _ _ hu => (by cases hu), fun _ => rfl, fun _ _ hu => (by cases hu),
      fun _ hu => absurd hu List.not_mem_nil, fun _ hu => absurd hu List.not_mem_nil,
      fun _ hu => absurd hu List.not_mem_nil, fun _ _ _ hu => absurd hu List.not_mem_nil,
      fun _ he => absurd he List.not_mem_nil⟩
  · intro s e s' hI hC he
    rcases Machine.exec_cases he with ⟨r, inp, rfl, rfl⟩ |
      ⟨i, inp, l, pc, rest, out, rfl, hpc, hcos, ho, rfl⟩
    · suffices hr : Orderly (direct s.shared r).1 ((direct s.shared r).2 ++ s.cos) from
        hr.perm List.perm_append_comm
      cases r with
      | login id secret new =>
          refine hI.login fun u hu => hC u ?_
          rcases hu with hu | ⟨pc, hpc, hu⟩
          · exact List.mem_append_left _ hu
          · exact List.mem_append_right _ (List.mem_filterMap.2 ⟨pc, hpc, hu⟩)
      | connect =>
          refine Orderly.move [] hI ?_
          have hsess : ∀ (pc : Pc) u, pc.session (direct s.shared .connect).1 = some u →
              pc.session s.shared = some u := by
            intro pc u hu
            cases pc with
            | reading fd =>
                by_cases hfd : fd = s.shared.nsock
                · simp [Pc.session, direct, hfd] at hu
                · simpa [Pc.session, direct, Function.update_of_ne hfd] using hu
            | _ => exact hu
          refine ⟨⟨rfl, fun _ => rfl⟩, fun _ _ hv => Or.inl hv, hI.cache, fun _ _ hv => Or.inl hv,
            fun _ ht => Or.inl ht, fun pc v hv => Or.inl (hsess pc v hv), fun pc hpc v hv => ?_,
            by simp [direct], fun _ he => Or.inl he⟩
          obtain rfl := List.mem_singleton.1 hpc
          simp [Pc.session, direct] at hv
      | timeout u =>
          rw [direct]
          split
          · rename_i hu
            exact Orderly.move [] hI (moves_timeout hI hu)
          · exact hI
      | kick id =>
          refine Orderly.move [] hI (moves_kick hI (fun u hu => ?_) fun _ _ => trivial)
          cases hu
    · have hI' : Orderly s.shared ([pc] ++ (l ++ rest)) := hI.perm (hcos ▸ List.perm_middle)
      obtain rfl := Option.some.inj ho
      have hout := Orderly.move [pc] hI' (moves_segment hI' inp fun fd id secret hsec => by
        have hC' := hC
        simp only [Apart, hpc, hsec] at hC'
        exact hC')
      refine hout.perm ?_
      exact (Machine.perm_front _ _ _).symm

/-- **Stale events never remove a newer session**, in every run in which a login of a user does not
meet what an earlier one of his left behind. -/
theorem fresh_of_apart {s : Sys} (h : machine.Reach Apart start s) : Fresh s.shared.hist :=
  (orderly_of_apart h).fresh

/-- A user signs in and is kicked, and logs in again; his second login times out. -/
theorem fresh_relogin : ∃ s, machine.Reach Apart start s ∧ s.shared.hist.length = 4 ∧
    Fresh s.shared.hist := by
  obtain ⟨s, hs, hp⟩ := Machine.exists_reach (M := machine) (C := Apart) (i := start)
    [.call (.login 1 11 false) {}, .resume 0 {}, .call .connect {},
      .resume 0 { read := .signin 1 11 }, .resume 1 {}, .resume 0 { read := .other },
      .call (.kick 1) {}, .resume 0 {}, .call (.login 1 22 false) {}, .resume 0 {},
      .call (.timeout 1) {}, .resume 0 {}]
    (p := fun s => decide (s.shared.hist.length = 4)) (by decide +kernel)
  exact ⟨s, hs, of_decide_eq_true hp, fresh_of_apart hs⟩

/-- **A timer that was left behind removes a newer session**, of a user who has signed in. -/
theorem timer_removes_newer : ¬ ∀ s, machine.Reach (fun _ _ => True) start s →
    Fresh s.shared.hist := by
  intro hall
  obtain ⟨s, hs, hp⟩ := Machine.exists_reach (M := machine) (C := fun _ _ => True) (i := start)
    [.call (.login 1 11 false) {}, .resume 0 {}, .call (.login 1 22 false) {}, .resume 0 {},
      .call .connect {}, .resume 0 { read := .signin 1 22 }, .resume 1 {}, .call (.timeout 0) {}]
    (p := fun s => match s.shared.hist with
      | [.removed (.timer 0) 1 .ok] => true
      | _ => false) (by decide +kernel)
  have hf := hall s hs
  split at hp
  · rename_i hh
    rw [hh] at hf
    exact absurd (hf _ List.mem_cons_self).1 (by decide)
  · cases hp

end Halieutics.Gate
