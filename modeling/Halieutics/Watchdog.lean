/-
**The watchdog: `service/watchdog.lua`.**

The watchdog knows for every user with a session the agent that serves him and the gate he came
through.  Agents are services with a limited number of users; the watchdog starts them and closes
them when the last user has gone.  Its handlers call the agents and the gates and yield there, and
`watchdog.assign` yields where a new agent is started as well.

The module translates the handlers, segment by segment, and makes a machine of them in which the
agents and the gates are part of the world.

Main definitions:

* `Record` — what the watchdog knows about a user with a session;
* `Data` — its tables;
* `slotIn`, `freeIn`, `Data.freeAgent` — `new_agent` without its yield, and `free_agent`;
* `assign`, `exit`, `afk`, `kick` — the first segments of the handlers; `resume` — the others;
* `service` — the watchdog as a machine.

Main results:

* `slotIn_cases`, `freeIn_cases` — what taking and freeing a slot do to the agents;
* `sends_assign`, `sends_assignOnto`, `sends_assignStarted` — **an assignment sends the user to the
  agent on record and takes no user from his agent**.
-/

import Halieutics.Coroutine
import Halieutics.LuaTable

set_option relaxedAutoImplicit false
set_option autoImplicit false

namespace Halieutics.Watchdog

open Coroutine LuaTable

/-- An entry of `data.agents`. -/
structure Agent where
  service : ℕ
  count : ℤ
  deriving DecidableEq

/-- A record of `data.users`. -/
structure Record where
  agent : ℕ
  gate : ℕ
  secret : ℕ
  afk : Bool := false

/-- A reference to a record. -/
abbrev Ref := ℕ

/-- The tables of the watchdog.  Records are kept in a heap, of which the first `nrec` have been
made; `nservice` is the next address that `skynet.newservice` returns.  `closed` lists the agents
that `free_agent` has closed, each with the number of users mapped to it at that time; no code reads
it. -/
structure Data where
  load : ℤ
  agents : List Agent := []
  users : Table ℕ Ref := ∅
  recs : Ref → Record := fun _ => ⟨0, 0, 0, false⟩
  nrec : ℕ := 0
  nservice : ℕ := 1
  closed : List (ℕ × ℕ) := []

/-- The client that a gate hands over. -/
structure Client where
  id : ℕ
  gate : ℕ
  secret : ℕ
  fd : ℕ
  deriving DecidableEq

/-- What a handler returns; `raise` is a Lua error. -/
inductive Ret where
  | nil
  | raise (msg : String)
  deriving DecidableEq, Repr

/-- The yields of the watchdog. -/
inductive Pc where
  /-- `assign` in `skynet.newservice`. -/
  | newAgent (c : Client)
  /-- `assign` closing the agent it has started in vain. -/
  | surplus (c : Client)
  /-- `assign` in the call of `agent.assign`. -/
  | agentAssign (c : Client) (user : Ref)
  /-- `exit` closing the agent. -/
  | exitClose (id : ℕ) (user : Ref)
  /-- `kick` and `try_kick` in the call of `agent.kick`. -/
  | kickAgent (id : ℕ) (user : Ref) (try_ : Bool)
  /-- `kick` and `try_kick` closing the agent. -/
  | kickClose (id : ℕ) (user : Ref) (try_ : Bool)
  /-- The call of `gate.kick`, the last thing `afk`, `exit` and `try_kick` do. -/
  | gateKick (id gate : ℕ) (force : Bool)
  /-- The first agent, at start-up. -/
  | initAgent
  | initClose
  deriving DecidableEq

/-- How a segment ends. -/
inductive Out where
  | ret (w : Data) (r : Ret)
  | wait (w : Data) (pc : Pc)

/-- The tables after a segment. -/
def Out.w : Out → Data
  | .ret w _ => w
  | .wait w _ => w

/-- Where the coroutine is suspended. -/
def Out.pcs : Out → List Pc
  | .ret _ _ => []
  | .wait _ pc => [pc]

/-- What the world supplies: whether the remote call raised, and what `agent.assign` returned. -/
structure Inp where
  raised : Bool := false
  reply : Bool := true

/-! ### Slots -/

/-- The loop of `new_agent`: a slot of the first agent that has one. -/
def slotIn (load : ℤ) : List Agent → Option (ℕ × List Agent)
  | [] => none
  | a :: as =>
      if a.count < load then some (a.service, { a with count := a.count + 1 } :: as)
      else (slotIn load as).map fun r => (r.1, a :: r.2)

/-- The loop of `free_agent`: the slot is given back, and the agent leaves the list when that was
its last and it is not the only one of the `n` agents. -/
def freeIn (n agent : ℕ) : List Agent → List Agent × Option ℕ
  | [] => ([], none)
  | a :: as =>
      if a.service = agent then
        if a.count - 1 = 0 ∧ 1 < n then (as, some a.service)
        else ({ a with count := a.count - 1 } :: as, none)
      else (a :: (freeIn n agent as).1, (freeIn n agent as).2)

/-- The number of users mapped to an agent. -/
def Data.mapped (w : Data) (agent : ℕ) : ℕ :=
  (vals w.users).countP fun u => (w.recs u).agent == agent

/-- `free_agent` up to the call that closes the agent, if it comes to that. -/
def Data.freeAgent (w : Data) (agent : ℕ) : Data × Option ℕ :=
  let r := freeIn w.agents.length agent w.agents
  ({ w with
      agents := r.1
      closed := w.closed ++ (r.2.map fun a => (a, w.mapped a)).toList }, r.2)

/-- `skynet.newservice` has returned: the agent is entered with one slot in use. -/
def Data.startAgent (w : Data) : Data × ℕ :=
  ({ w with agents := w.agents ++ [⟨w.nservice, 1⟩], nservice := w.nservice + 1 }, w.nservice)

/-! ### Assigning a user -/

/-- Changing a record in place. -/
def Data.setRecord (w : Data) (user : Ref) (f : Record → Record) : Data :=
  { w with recs := Function.update w.recs user (f (w.recs user)) }

/-- `users[c.id] = user` with a new record. -/
def Data.enter (w : Data) (c : Client) (agent : ℕ) : Data :=
  { w with
    recs := Function.update w.recs w.nrec ⟨agent, c.gate, c.secret, false⟩
    nrec := w.nrec + 1
    users := w.users.insert c.id w.nrec }

/-- **`watchdog.assign`** from the beginning of a round of its loop. -/
def assign (w : Data) (c : Client) : Out :=
  match w.users.lookup c.id with
  | some user =>
      .wait (w.setRecord user fun r => { r with gate := c.gate, secret := c.secret, afk := false })
        (.agentAssign c user)
  | none =>
      match slotIn w.load w.agents with
      | some (agent, agents) =>
          .wait ({ w with agents := agents }.enter c agent) (.agentAssign c w.nrec)
      | none => .wait w (.newAgent c)

/-- The rest of a round after another coroutine has entered the user. -/
def assignOnto (w : Data) (c : Client) : Out :=
  match w.users.lookup c.id with
  | none => .ret w (.raise "attempt to index a nil value (local 'user')")
  | some user => .wait (w.setRecord user fun r => { r with afk := false }) (.agentAssign c user)

/-- `new_agent` has started an agent. -/
def assignStarted (w : Data) (c : Client) : Out :=
  let p := w.startAgent
  match p.1.users.lookup c.id with
  | none => .wait (p.1.enter c p.2) (.agentAssign c p.1.nrec)
  | some _ =>
      match p.1.freeAgent p.2 with
      | (w, some _) => .wait w (.surplus c)
      | (w, none) => assignOnto w c

/-! ### Ending a session -/

/-- **`watchdog.afk`**. -/
def afk (w : Data) (id : ℕ) : Out :=
  match w.users.lookup id with
  | none => .ret w (.raise "no userid ")
  | some user =>
      if (w.recs user).afk then .ret w .nil
      else
        .wait (w.setRecord user fun r => { r with afk := true })
          (.gateKick id (w.recs user).gate false)

/-- The end of `watchdog.exit`. -/
def exitDrop (w : Data) (id : ℕ) (user : Ref) : Out :=
  let w := { w with users := w.users.erase id }
  if (w.recs user).afk then .ret w .nil else .wait w (.gateKick id (w.recs user).gate false)

/-- **`watchdog.exit`**. -/
def exit (w : Data) (id : ℕ) : Out :=
  match w.users.lookup id with
  | none => .ret w (.raise "no userid ")
  | some user =>
      match w.freeAgent (w.recs user).agent with
      | (w, some _) => .wait w (.exitClose id user)
      | (w, none) => exitDrop w id user

/-- **`watchdog.kick`** and **`watchdog.try_kick`**: the second also kicks the user from his
gate. -/
def kick (w : Data) (id : ℕ) (try_ : Bool) : Out :=
  match w.users.lookup id with
  | none => .ret w .nil
  | some user => .wait w (.kickAgent id user try_)

/-- The end of `watchdog.kick` and `watchdog.try_kick`. -/
def kickDrop (w : Data) (id : ℕ) (user : Ref) (try_ : Bool) : Out :=
  let w := { w with users := w.users.erase id }
  if try_ then .wait w (.gateKick id (w.recs user).gate true) else .ret w .nil

/-- `watchdog.kick` and `watchdog.try_kick` after `agent.kick`. -/
def kicked (w : Data) (id : ℕ) (user : Ref) (try_ : Bool) : Out :=
  match w.freeAgent (w.recs user).agent with
  | (w, some _) => .wait w (.kickClose id user try_)
  | (w, none) => kickDrop w id user try_

/-! ### The machine -/

/-- The requests of the watchdog. -/
inductive Req where
  | assign (c : Client)
  | afk (id : ℕ)
  | exit (id : ℕ)
  | kick (id : ℕ)
  | tryKick (id : ℕ)
  /-- The coroutine that the start-up forks: `free_agent(new_agent())`. -/
  | init

/-- `free_agent(new_agent())`. -/
def initAgent (w : Data) : Out :=
  match slotIn w.load w.agents with
  | none => .wait w .initAgent
  | some (agent, agents) =>
      match { w with agents := agents }.freeAgent agent with
      | (w, some _) => .wait w .initClose
      | (w, none) => .ret w .nil

/-- The first segment of a request. -/
def direct (w : Data) : Req → Out
  | .assign c => assign w c
  | .afk id => afk w id
  | .exit id => exit w id
  | .kick id => kick w id false
  | .tryKick id => kick w id true
  | .init => initAgent w

/-- The segments after a yield; a remote call that raises ends the handler. -/
def resume (w : Data) (inp : Inp) (pc : Pc) : Out :=
  if inp.raised then .ret w (.raise "call failed")
  else
    match pc with
    | .newAgent c => assignStarted w c
    | .surplus c => assignOnto w c
    | .agentAssign c _ =>
        if inp.reply then
          match w.users.lookup c.id with
          | none => .ret w (.raise "attempt to index a nil value")
          | some _ => .ret w .nil
        else assign w c
    | .exitClose id user => exitDrop w id user
    | .kickAgent id user try_ => kicked w id user try_
    | .kickClose id user try_ => kickDrop w id user try_
    | .gateKick _ _ _ => .ret w .nil
    | .initAgent =>
        match w.startAgent.1.freeAgent w.startAgent.2 with
        | (w, some _) => .wait w .initClose
        | (w, none) => .ret w .nil
    | .initClose => .ret w .nil

/-- **The watchdog as a machine.** -/
def service : Machine Data Pc Req Inp where
  call w r _ := ((direct w r).w, (direct w r).pcs)
  resume w pc inp := some ((resume w inp pc).w, (resume w inp pc).pcs)

/-! ### What slots are -/

/-- **Taking a slot** raises the count of one agent that had room. -/
theorem slotIn_cases {load : ℤ} {l l' : List Agent} {agent : ℕ}
    (h : slotIn load l = some (agent, l')) :
    ∃ l₁ n l₂, l = l₁ ++ ⟨agent, n⟩ :: l₂ ∧ l' = l₁ ++ ⟨agent, n + 1⟩ :: l₂ ∧ n < load := by
  induction l generalizing l' with
  | nil => simp [slotIn] at h
  | cons a as ih =>
      unfold slotIn at h
      split at h
      · rename_i hlt
        obtain ⟨rfl, rfl⟩ := Prod.mk.inj (Option.some_inj.1 h)
        exact ⟨[], a.count, as, rfl, rfl, hlt⟩
      · obtain ⟨⟨b, l''⟩, hr, heq⟩ := Option.map_eq_some_iff.1 h
        dsimp only at heq
        obtain ⟨rfl, rfl⟩ := Prod.mk.inj heq
        obtain ⟨l₁, n, l₂, rfl, rfl, hlt⟩ := ih hr
        exact ⟨a :: l₁, n, l₂, rfl, rfl, hlt⟩

/-- **Freeing a slot**: the agent is not listed, or its count is lowered, or it was its last slot
and the agent leaves the list. -/
theorem freeIn_cases (n agent : ℕ) (l : List Agent) :
    (agent ∉ l.map Agent.service ∧ freeIn n agent l = (l, none)) ∨
    (∃ l₁ m l₂, l = l₁ ++ ⟨agent, m⟩ :: l₂ ∧ ¬ (m - 1 = 0 ∧ 1 < n) ∧
      freeIn n agent l = (l₁ ++ ⟨agent, m - 1⟩ :: l₂, none)) ∨
    (∃ l₁ m l₂, l = l₁ ++ ⟨agent, m⟩ :: l₂ ∧ (m - 1 = 0 ∧ 1 < n) ∧
      freeIn n agent l = (l₁ ++ l₂, some agent)) := by
  induction l with
  | nil => exact Or.inl ⟨by simp, rfl⟩
  | cons a as ih =>
      by_cases ha : a.service = agent
      · obtain rfl := ha
        by_cases hlast : a.count - 1 = 0 ∧ 1 < n
        · exact Or.inr (Or.inr ⟨[], a.count, as, rfl, hlast, by
            rw [freeIn, if_pos rfl, if_pos hlast]; rfl⟩)
        · exact Or.inr (Or.inl ⟨[], a.count, as, rfl, hlast, by
            rw [freeIn, if_pos rfl, if_neg hlast]; rfl⟩)
      · rcases ih with ⟨hn, heq⟩ | ⟨l₁, m, l₂, rfl, hlast, heq⟩ | ⟨l₁, m, l₂, rfl, hlast, heq⟩
        · refine Or.inl ⟨?_, by rw [freeIn, if_neg ha, heq]⟩
          rw [List.map_cons, List.mem_cons, not_or]
          exact ⟨Ne.symm ha, hn⟩
        · exact Or.inr (Or.inl ⟨a :: l₁, m, l₂, rfl, hlast, by rw [freeIn, if_neg ha, heq]; rfl⟩)
        · exact Or.inr (Or.inr ⟨a :: l₁, m, l₂, rfl, hlast, by rw [freeIn, if_neg ha, heq]; rfl⟩)

/-! ### The agent of a user -/

/-- The agent that the watchdog has on record for a user. -/
def Data.agentOf (w : Data) (id : ℕ) : Option ℕ := (w.users.lookup id).map fun r => (w.recs r).agent

/-- Every record in use has been made. -/
def Data.Made (w : Data) : Prop := ∀ id r, w.users.lookup id = some r → r < w.nrec

/-- What a segment of an assignment does to the records: every user keeps his agent, and a message
goes to the agent on record only. -/
structure Sends (w : Data) (c : Client) (o : Out) : Prop where
  made : o.w.Made
  keeps : ∀ id agent, w.agentOf id = some agent → o.w.agentOf id = some agent
  pcs : ∀ pc ∈ o.pcs, pc = .newAgent c ∨ pc = .surplus c ∨
    ∃ u, pc = .agentAssign c u ∧ o.w.agentOf c.id = some (o.w.recs u).agent

variable {w : Data}

theorem agentOf_setRecord (w : Data) (user : Ref) {f : Record → Record}
    (hf : ∀ r, (f r).agent = r.agent) (id : ℕ) :
    (w.setRecord user f).agentOf id = w.agentOf id := by
  unfold Data.agentOf
  refine congrArg (fun g => (w.users.lookup id).map g) (funext fun r => ?_)
  by_cases hr : r = user
  · subst hr
    simp [Data.setRecord, hf]
  · simp [Data.setRecord, Function.update_of_ne hr]

theorem agentOf_freeAgent (w : Data) (agent id : ℕ) :
    (w.freeAgent agent).1.agentOf id = w.agentOf id := rfl

theorem Data.Made.freeAgent (h : w.Made) (agent : ℕ) : (w.freeAgent agent).1.Made := h

/-- Entering a user leaves the other records alone. -/
theorem agentOf_enter (h : w.Made) (c : Client) (agent id : ℕ) :
    (w.enter c agent).agentOf id = if id = c.id then some agent else w.agentOf id := by
  unfold Data.agentOf Data.enter
  dsimp only
  rw [lookup_insert_eq]
  by_cases hid : id = c.id
  · rw [if_pos hid, if_pos hid, Option.map_some, Function.update_self]
  · rw [if_neg hid, if_neg hid]
    -- the new record is behind every record in use
    cases hu : w.users.lookup id with
    | none => rfl
    | some r =>
        have hne : r ≠ w.nrec := Nat.ne_of_lt (h id r hu)
        rw [Option.map_some, Option.map_some, Function.update_of_ne hne]

theorem Data.Made.enter (h : w.Made) (c : Client) (agent : ℕ) : (w.enter c agent).Made := by
  intro id r hr
  have hr : (w.users.insert c.id w.nrec).lookup id = some r := hr
  rw [lookup_insert_eq] at hr
  split at hr
  · obtain rfl := Option.some_inj.1 hr
    exact Nat.lt_succ_self _
  · exact Nat.lt_succ_of_lt (h id r hr)

theorem Data.Made.erase (h : w.Made) (id : ℕ) :
    Data.Made { w with users := w.users.erase id } := by
  intro id' r hr
  have hr : (w.users.erase id).lookup id' = some r := hr
  rw [lookup_erase_eq] at hr
  split at hr
  · cases hr
  · exact h id' r hr

theorem agentOf_erase (w : Data) (id id' : ℕ) :
    Data.agentOf { w with users := w.users.erase id } id' =
      if id' = id then none else w.agentOf id' := by
  unfold Data.agentOf
  dsimp only
  rw [lookup_erase_eq]
  split <;> rfl

/-- Entering a user who has no record, and sending him to his agent. -/
theorem sends_enter (h : w.Made) {c : Client} (hnew : w.users.lookup c.id = none) (agent : ℕ) :
    Sends w c (.wait (w.enter c agent) (.agentAssign c w.nrec)) := by
  refine ⟨h.enter c agent, ?_, ?_⟩
  · intro id a ha
    have hne : id ≠ c.id := by
      rintro rfl
      rw [Data.agentOf, hnew] at ha
      cases ha
    change (w.enter c agent).agentOf id = some a
    rw [agentOf_enter h, if_neg hne]
    exact ha
  · intro pc hpc
    obtain rfl := List.mem_singleton.1 hpc
    refine Or.inr (Or.inr ⟨w.nrec, rfl, ?_⟩)
    change (w.enter c agent).agentOf c.id = some ((w.enter c agent).recs w.nrec).agent
    rw [agentOf_enter h, if_pos rfl]
    simp [Data.enter]

/-- Sending a user who has a record to his agent. -/
theorem sends_setRecord (h : w.Made) {c : Client} {user : Ref}
    (hu : w.users.lookup c.id = some user) {f : Record → Record}
    (hf : ∀ r, (f r).agent = r.agent) :
    Sends w c (.wait (w.setRecord user f) (.agentAssign c user)) := by
  refine ⟨h, ?_, ?_⟩
  · intro id a ha
    change (w.setRecord user f).agentOf id = some a
    rw [agentOf_setRecord w user hf]
    exact ha
  · intro pc hpc
    obtain rfl := List.mem_singleton.1 hpc
    refine Or.inr (Or.inr ⟨user, rfl, ?_⟩)
    have hl : (w.setRecord user f).users.lookup c.id = some user := hu
    change ((w.setRecord user f).users.lookup c.id).map _ = _
    rw [hl]
    rfl

theorem sends_assign (h : w.Made) (c : Client) : Sends w c (assign w c) := by
  unfold assign
  cases hu : w.users.lookup c.id with
  | some user => exact sends_setRecord h hu fun _ => rfl
  | none =>
      dsimp only
      cases hs : slotIn w.load w.agents with
      | some p =>
          have h' : Data.Made { w with agents := p.2 } := h
          obtain ⟨hm, hk, hp⟩ := sends_enter h' hu p.1
          exact ⟨hm, hk, hp⟩
      | none =>
          refine ⟨h, fun _ _ ha => ha, fun pc hpc => ?_⟩
          exact Or.inl (List.mem_singleton.1 hpc)

theorem sends_assignOnto (h : w.Made) (c : Client) : Sends w c (assignOnto w c) := by
  unfold assignOnto
  cases hu : w.users.lookup c.id with
  | none => exact ⟨h, fun _ _ ha => ha, by simp [Out.pcs]⟩
  | some user => exact sends_setRecord h hu fun _ => rfl

theorem sends_assignStarted (h : w.Made) (c : Client) : Sends w c (assignStarted w c) := by
  have h' : w.startAgent.1.Made := h
  unfold assignStarted
  dsimp only
  cases hu : w.startAgent.1.users.lookup c.id with
  | none =>
      obtain ⟨hm, hk, hp⟩ := sends_enter h' hu w.startAgent.2
      exact ⟨hm, hk, hp⟩
  | some user =>
      dsimp only
      have hfree : (w.startAgent.1.freeAgent w.startAgent.2).1.Made := h
      split
      · rename_i w' a heq
        rw [heq] at hfree
        have hkeep : ∀ id, w'.agentOf id = w.agentOf id := fun id =>
          (congrArg (fun p : Data × Option ℕ => p.1.agentOf id) heq).symm
        refine ⟨hfree, fun id a ha => (hkeep id).trans ha, fun pc hpc => ?_⟩
        exact Or.inr (Or.inl (List.mem_singleton.1 hpc))
      · rename_i w' heq
        rw [heq] at hfree
        have hkeep : ∀ id, w'.agentOf id = w.agentOf id := fun id =>
          (congrArg (fun p : Data × Option ℕ => p.1.agentOf id) heq).symm
        obtain ⟨hm, hk, hp⟩ := sends_assignOnto hfree c
        exact ⟨hm, fun id a ha => hk id a ((hkeep id).trans ha), hp⟩

/-! ### The record of a user -/

/-- What the watchdog knows about a user. -/
def Data.entry (w : Data) (id : ℕ) : Option Record := (w.users.lookup id).map w.recs

/-- No two users share a record. -/
def Data.Own (w : Data) : Prop :=
  ∀ id id' r, w.users.lookup id = some r → w.users.lookup id' = some r → id = id'

theorem agentOf_eq_entry (w : Data) (id : ℕ) : w.agentOf id = (w.entry id).map Record.agent := by
  unfold Data.agentOf Data.entry
  rw [Option.map_map]
  rfl

theorem entry_eq_some {id : ℕ} {x : Record} (h : w.entry id = some x) :
    ∃ r, w.users.lookup id = some r ∧ w.recs r = x :=
  Option.map_eq_some_iff.1 h

theorem lookup_of_entry {id : ℕ} (h : w.entry id = none) : w.users.lookup id = none :=
  Option.map_eq_none_iff.1 h

theorem entry_enter (h : w.Made) (c : Client) (agent id : ℕ) :
    (w.enter c agent).entry id =
      if id = c.id then some ⟨agent, c.gate, c.secret, false⟩ else w.entry id := by
  unfold Data.entry Data.enter
  dsimp only
  rw [lookup_insert_eq]
  by_cases hid : id = c.id
  · rw [if_pos hid, if_pos hid, Option.map_some, Function.update_self]
  · rw [if_neg hid, if_neg hid]
    cases hu : w.users.lookup id with
    | none => rfl
    | some r =>
        have hne : r ≠ w.nrec := Nat.ne_of_lt (h id r hu)
        rw [Option.map_some, Option.map_some, Function.update_of_ne hne]

theorem Data.Own.enter (h : w.Own) (hm : w.Made) (c : Client) (agent : ℕ) :
    (w.enter c agent).Own := by
  intro id id' r hr hr'
  have hr : (w.users.insert c.id w.nrec).lookup id = some r := hr
  have hr' : (w.users.insert c.id w.nrec).lookup id' = some r := hr'
  have hold : ∀ id'', w.users.lookup id'' ≠ some w.nrec :=
    fun id'' hl => Nat.lt_irrefl _ (hm id'' w.nrec hl)
  rw [lookup_insert_eq] at hr hr'
  split at hr
  · rename_i hid
    obtain rfl := Option.some_inj.1 hr
    split at hr'
    · rename_i hid'
      exact hid.trans hid'.symm
    · exact absurd hr' (hold id')
  · split at hr'
    · obtain rfl := Option.some_inj.1 hr'
      exact absurd hr (hold id)
    · exact h id id' r hr hr'

theorem entry_erase (w : Data) (id id' : ℕ) :
    Data.entry { w with users := w.users.erase id } id' =
      if id' = id then none else w.entry id' := by
  unfold Data.entry
  dsimp only
  rw [lookup_erase_eq]
  split <;> rfl

theorem Data.Own.erase (h : w.Own) (id : ℕ) : Data.Own { w with users := w.users.erase id } := by
  have hold : ∀ id' r, (w.users.erase id).lookup id' = some r → w.users.lookup id' = some r := by
    intro id' r hr
    rw [lookup_erase_eq] at hr
    split at hr
    · cases hr
    · exact hr
  exact fun id' id'' r hr hr' => h id' id'' r (hold id' r hr) (hold id'' r hr')

/-- Changing a record is seen under the number of its user only. -/
theorem entry_setRecord (h : w.Own) {id : ℕ} {r : Ref} (hr : w.users.lookup id = some r)
    (f : Record → Record) (id' : ℕ) :
    (w.setRecord r f).entry id' = if id' = id then some (f (w.recs r)) else w.entry id' := by
  unfold Data.entry Data.setRecord
  dsimp only
  by_cases hid : id' = id
  · rw [if_pos hid, hid, hr, Option.map_some, Function.update_self]
  · rw [if_neg hid]
    cases hr' : w.users.lookup id' with
    | none => rfl
    | some r' =>
        have hne : r' ≠ r := by
          rintro rfl
          exact hid (h id' id r' hr' hr)
        rw [Option.map_some, Option.map_some, Function.update_of_ne hne]

end Halieutics.Watchdog
