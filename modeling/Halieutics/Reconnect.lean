/-
**Reconnecting: the watchdog and its agents.**

When the socket of a user is gone the agent waits twenty seconds for him, then forgets him and tells
the watchdog with `watchdog.exit`.  A user who comes back is assigned by the watchdog to the agent
that it has on record.  The two messages may cross.  `agent.assign` is prepared for that — it
refuses a user whose object is marked `exit`, and `watchdog.assign` then tries again — but the agent
takes the object out of `data.users` at the very moment it marks it, so the mark is never seen: the
user gets a new object, and the watchdog, which hears of the exit of the old one, forgets him.

The machine of this module consists of the watchdog and all its agents.  A message in flight is a
suspended coroutine, so every order in which messages can be delivered is a schedule.

Main definitions:

* `Net`, `Thread`, `net` — the services, what can happen next in them, and the machine;
* `Agreement` — a user with a live entry in an agent is mapped to that agent;
* `apart` — the condition: an exit and an assignment of the same user do not overlap, and neither
  do two assignments that make an object.

Main results:

* `Agree.sends`, `Agree.exit`, `Agree.expire` — the steps of the handshake;
* `agreement_of_apart` — **watchdog and agents agree in every run that meets the condition**;
* `exit_crosses_assign` — **an exit that crosses an assignment leaves them in disagreement**.
-/

import Halieutics.Agent

set_option relaxedAutoImplicit false
set_option autoImplicit false

namespace Halieutics.Reconnect

open Coroutine LuaTable
open Watchdog (Client)

/-- The watchdog and its agents, known by their addresses; the agents that have exited. -/
structure Net where
  wd : Watchdog.Data
  agents : ℕ → Agent.Data := fun _ => {}
  dead : List ℕ := []

/-- What can happen next: messages in flight, and coroutines that wait for something else. -/
inductive Thread where
  /-- A coroutine of the watchdog that waits for a new service, a gate or an agent that exits. -/
  | wd (pc : Watchdog.Pc)
  /-- The message `assign` on its way to an agent. -/
  | assignReq (c : Client) (agent : ℕ)
  /-- `agent.assign` in `get_avatar`. -/
  | avatar (c : Client) (agent : ℕ)
  /-- `agent.assign` in `restore_mydesk_from_db`. -/
  | mydesk (c : Client) (agent : ℕ) (u : Agent.Ref)
  /-- The reply of `agent.assign` on its way back; `none` is an error. -/
  | assignReply (c : Client) (reply : Option Bool)
  /-- `new_user_msgloop` reading the socket. -/
  | loop (agent : ℕ) (u : Agent.Ref)
  /-- The message `afk` on its way to the watchdog. -/
  | afkReq (agent : ℕ) (u : Agent.Ref)
  /-- `new_user_msgloop` waiting for the watchdog and the desk, and then for the client. -/
  | grace (agent : ℕ) (u : Agent.Ref)
  /-- The message `exit` on its way to the watchdog. -/
  | exitReq (agent id : ℕ)
  /-- The message `close` on its way to an agent. -/
  | close (agent : ℕ)
  deriving DecidableEq

/-- A message is on its way, or is being served. -/
def Thread.inFlight : Thread → Bool
  | .loop _ _ => false
  | .grace _ _ => false
  | _ => true

/-- The messages and the coroutine that a segment of the watchdog leaves behind. -/
def spread (w : Watchdog.Data) (o : Watchdog.Out) : List Thread :=
  (o.pcs.map fun pc =>
    match pc with
    | .agentAssign c user => .assignReq c (o.w.recs user).agent
    | pc => .wd pc) ++
  (o.w.closed.drop w.closed.length).map fun p => .close p.1

/-- A segment of the watchdog. -/
def Net.run (s : Net) (o : Watchdog.Out) :
    Net × List Thread := ({ s with wd := o.w }, spread s.wd o)

/-- A segment of an agent. -/
def Net.setAgent (s : Net) (agent : ℕ) (a : Agent.Data) : Net :=
  { s with agents := Function.update s.agents agent a }

/-- Whether a call into the rest of the system raised. -/
structure Inp where
  raised : Bool := false

/-- The message `assign` reaches an agent. -/
def assignReq (s : Net) (c : Client) (agent : ℕ) : Net × List Thread :=
  if agent ∈ s.dead then (s, [.assignReply c none])
  else
    let r := (s.agents agent).assign c
    (s.setAgent agent r.1,
      match r.2 with
      | .refused => [.assignReply c (some false)]
      | .joined u => [.loop agent u, .assignReply c (some true)]
      | .avatar => [.avatar c agent])

/-- `get_avatar` returns. -/
def avatar (s : Net) (inp : Inp) (c : Client) (agent : ℕ) : Net × List Thread :=
  if agent ∈ s.dead ∨ inp.raised then (s, [.assignReply c none])
  else (s.setAgent agent ((s.agents agent).store c), [.mydesk c agent (s.agents agent).nobj])

/-- The message `afk` reaches the watchdog. -/
def afkReq (s : Net) (agent : ℕ) (u : Agent.Ref) : Net × List Thread :=
  match Watchdog.afk s.wd ((s.agents agent).objs u).id with
  | .ret w .nil => ({ s with wd := w }, [.grace agent u])
  | .ret w (.raise _) => ({ s with wd := w }, [])
  | .wait w _ => ({ s with wd := w }, [.grace agent u])

/-- One thing happens. -/
def resume (s : Net) (inp : Inp) : Thread → Net × List Thread
  | .wd pc => s.run (Watchdog.resume s.wd { raised := inp.raised } pc)
  | .assignReq c agent => assignReq s c agent
  | .avatar c agent => avatar s inp c agent
  | .mydesk c agent u =>
      if agent ∈ s.dead ∨ inp.raised then (s, [.assignReply c none])
      else (s, [.loop agent u, .assignReply c (some true)])
  | .assignReply c reply =>
      s.run (Watchdog.resume s.wd { raised := reply.isNone, reply := reply.getD false }
        (.agentAssign c 0))
  | .loop agent u =>
      if agent ∈ s.dead then (s, [])
      else
        let r := (s.agents agent).gone u
        (s.setAgent agent r.1, (r.2.map fun v => .afkReq agent v).toList)
  | .afkReq agent u => afkReq s agent u
  | .grace agent u =>
      if agent ∈ s.dead then (s, [])
      else if (s.agents agent).expires u then
        (s.setAgent agent ((s.agents agent).expire u),
          [.exitReq agent ((s.agents agent).objs u).id])
      else (s, [])
  | .exitReq _ id => s.run (Watchdog.exit s.wd id)
  | .close agent => ({ s with dead := agent :: s.dead }, [])

/-- The requests: a gate hands over a client, and the start-up of the watchdog. -/
inductive Req where
  | assign (c : Client)
  | init

/-- **The watchdog and its agents as a machine.** -/
def net : Machine Net Thread Req Inp where
  call s r _ :=
    match r with
    | .assign c => s.run (Watchdog.assign s.wd c)
    | .init => s.run (Watchdog.initAgent s.wd)
  resume s t inp := some (resume s inp t)

/-- **Agreement**: a user with a live entry in an agent is mapped to that agent. -/
def Agreement (s : Net) : Prop :=
  ∀ agent id u, agent ∉ s.dead → (s.agents agent).users.lookup id = some u →
    ((s.agents agent).objs u).exit = false →
      (s.wd.users.lookup id).map (fun r => (s.wd.recs r).agent) = some agent

/-! ### The condition -/

/-- The exit of a user that the watchdog has not finished. -/
def Thread.ending? : Thread → Option ℕ
  | .exitReq _ id => some id
  | .wd (.exitClose id _) => some id
  | _ => none

/-- An assignment for which the agent has not yet found or made an object. -/
def Thread.coming? : Thread → Option (ℕ × ℕ)
  | .assignReq c agent => some (c.id, agent)
  | .avatar c agent => some (c.id, agent)
  | _ => none

/-- **The condition.**  The watchdog does not send a user to an agent while an exit of that user is
on its way; an agent does not forget a user while an assignment of that user is on its way; and an
agent does not make a second object for a user. -/
def apart (s : Pool Net Thread) : Event Req Inp → Bool
  | .call (.assign c) _ => s.cos.all fun t => t.ending? != some c.id
  | .call .init _ => true
  | .resume k inp =>
      match s.cos[k]? with
      | some (.wd (.newAgent c)) => s.cos.all fun t => t.ending? != some c.id
      | some (.wd (.surplus c)) => s.cos.all fun t => t.ending? != some c.id
      | some (.assignReply c (some false)) => s.cos.all fun t => t.ending? != some c.id
      | some (.grace agent u) =>
          !(s.shared.agents agent).expires u ||
            s.cos.all fun t => t.coming?.map Prod.fst != some ((s.shared.agents agent).objs u).id
      | some (.avatar c agent) =>
          inp.raised || ((s.shared.agents agent).users.lookup c.id).isNone
      | _ => true

/-! ### The invariant -/

/-- The user object that a coroutine of an agent works with. -/
def Thread.held? : Thread → Option (ℕ × Agent.Ref)
  | .mydesk _ agent u => some (agent, u)
  | .loop agent u => some (agent, u)
  | .afkReq agent u => some (agent, u)
  | .grace agent u => some (agent, u)
  | _ => none

/-- The coroutines of the watchdog that occur here: nobody is kicked. -/
def Thread.calm : Thread → Bool
  | .wd (.agentAssign _ _) => false
  | .wd (.kickAgent _ _ _) => false
  | .wd (.kickClose _ _ _) => false
  | _ => true

/-- No agent has an entry of the user. -/
def Fresh (s : Net) (id : ℕ) : Prop :=
  ∀ agent, agent ∉ s.dead → (s.agents agent).users.lookup id = none

/-- An object that is still somebody's is the one in the table. -/
def Holds (a : Agent.Data) (u : Agent.Ref) : Prop :=
  u < a.nobj ∧ ((a.objs u).exit = true ∨ a.users.lookup (a.objs u).id = some u)

/-- The table of an agent: its objects are made, filed under their ids and not marked, and the
watchdog has the agent on record. -/
def Entered (w : Watchdog.Data) (agent : ℕ) (a : Agent.Data) : Prop :=
  ∀ id u, a.users.lookup id = some u →
    w.agentOf id = some agent ∧ u < a.nobj ∧ (a.objs u).id = id ∧ (a.objs u).exit = false

/-- **The invariant.** -/
structure Agree (s : Net) (l : List Thread) : Prop where
  made : s.wd.Made
  entered : ∀ agent, agent ∉ s.dead → Entered s.wd agent (s.agents agent)
  calm : ∀ t ∈ l, t.calm = true
  coming : ∀ t ∈ l, ∀ id agent, t.coming? = some (id, agent) → s.wd.agentOf id = some agent
  ending : ∀ t ∈ l, ∀ id, t.ending? = some id → Fresh s id
  holds : ∀ t ∈ l, ∀ agent u, t.held? = some (agent, u) → agent ∉ s.dead → Holds (s.agents agent) u
  apart : ∀ t ∈ l, ∀ t' ∈ l, ∀ id, t.ending? = some id → t'.coming?.map Prod.fst ≠ some id

variable {s : Net} {l l' : List Thread}

/-- Watchdog and agents that keep the invariant agree. -/
theorem Agree.agreement (h : Agree s l) : Agreement s :=
  fun agent id u hlive hu _ => (h.entered agent hlive id u hu).1

/-- The invariant does not depend on the order of the coroutines. -/
theorem Agree.mono (h : Agree s l) (hl : ∀ t ∈ l', t ∈ l) : Agree s l' where
  made := h.made
  entered := h.entered
  calm t ht := h.calm t (hl t ht)
  coming t ht := h.coming t (hl t ht)
  ending t ht := h.ending t (hl t ht)
  holds t ht := h.holds t (hl t ht)
  apart t ht t' ht' := h.apart t (hl t ht) t' (hl t' ht')

/-- **A coroutine may be added**: an assignment if it goes to the agent on record and the user is
not leaving, an exit if the user has no entry and is not coming, and a coroutine that works with an
object if it holds that object. -/
theorem Agree.cons (h : Agree s l) {t : Thread} (hcalm : t.calm = true)
    (hcoming : ∀ id agent, t.coming? = some (id, agent) →
      t.ending? = none ∧ s.wd.agentOf id = some agent ∧ ∀ t' ∈ l, t'.ending? ≠ some id)
    (hending : ∀ id, t.ending? = some id →
      Fresh s id ∧ ∀ t' ∈ l, t'.coming?.map Prod.fst ≠ some id)
    (hheld : ∀ agent u, t.held? = some (agent, u) → agent ∉ s.dead → Holds (s.agents agent) u) :
    Agree s (t :: l) where
  made := h.made
  entered := h.entered
  calm := List.forall_mem_cons.2 ⟨hcalm, h.calm⟩
  coming := List.forall_mem_cons.2 ⟨fun id agent hc => (hcoming id agent hc).2.1, h.coming⟩
  ending := List.forall_mem_cons.2 ⟨fun id he => (hending id he).1, h.ending⟩
  holds := List.forall_mem_cons.2 ⟨hheld, h.holds⟩
  apart := by
    intro t₁ ht₁ t₂ ht₂ id he hc
    rcases List.mem_cons.1 ht₂ with rfl | hl₂
    · obtain ⟨⟨id', agent⟩, hca, rfl⟩ := Option.map_eq_some_iff.1 hc
      obtain ⟨hnone, -, hend⟩ := hcoming id' agent hca
      rcases List.mem_cons.1 ht₁ with rfl | hl₁
      · rw [hnone] at he
        cases he
      · exact hend t₁ hl₁ he
    · rcases List.mem_cons.1 ht₁ with rfl | hl₁
      · exact (hending id he).2 t₂ hl₂ hc
      · exact h.apart t₁ hl₁ t₂ hl₂ id he hc

/-- A coroutine that is neither an assignment nor an exit and works with no object. -/
structure Thread.Idle (t : Thread) : Prop where
  calm : t.calm = true
  coming : t.coming? = none
  ending : t.ending? = none
  held : t.held? = none

theorem Agree.append_idle (h : Agree s l) {r : List Thread} (hr : ∀ t ∈ r, t.Idle) :
    Agree s (r ++ l) := by
  induction r with
  | nil => exact h
  | cons t r ih =>
      obtain ⟨ht, hr⟩ := List.forall_mem_cons.1 hr
      exact (ih hr).cons ht.calm (by simp [ht.coming]) (by simp [ht.ending]) (by simp [ht.held])

/-- A coroutine that works with an object it holds may be added. -/
theorem Agree.cons_held (h : Agree s l) {t : Thread} {agent : ℕ} {u : Agent.Ref}
    (hcalm : t.calm = true) (hc : t.coming? = none) (he : t.ending? = none)
    (ht : t.held? = some (agent, u)) (hu : agent ∉ s.dead → Holds (s.agents agent) u) :
    Agree s (t :: l) := by
  refine h.cons hcalm (by simp [hc]) (by simp [he]) ?_
  intro agent' u' hh
  rw [ht] at hh
  obtain ⟨rfl, rfl⟩ := Prod.mk.inj (Option.some_inj.1 hh)
  exact hu

/-- An assignment may be added if it goes to the agent on record and the user is not leaving. -/
theorem Agree.cons_coming (h : Agree s l) {t : Thread} {id agent : ℕ} (hcalm : t.calm = true)
    (ht : t.coming? = some (id, agent)) (he : t.ending? = none) (hh : t.held? = none)
    (hmap : s.wd.agentOf id = some agent) (hend : ∀ t ∈ l, t.ending? ≠ some id) :
    Agree s (t :: l) := by
  refine h.cons hcalm ?_ (by simp [he]) (by simp [hh])
  intro id' agent' hc
  rw [ht] at hc
  obtain ⟨rfl, rfl⟩ := Prod.mk.inj (Option.some_inj.1 hc)
  exact ⟨he, hmap, hend⟩

/-- An exit may be added if the user has no entry and is not coming. -/
theorem Agree.cons_ending (h : Agree s l) {t : Thread} {id : ℕ} (hcalm : t.calm = true)
    (hc : t.coming? = none) (ht : t.ending? = some id) (hh : t.held? = none) (hfresh : Fresh s id)
    (hcome : ∀ t ∈ l, t.coming?.map Prod.fst ≠ some id) : Agree s (t :: l) := by
  refine h.cons hcalm (by simp [hc]) ?_ (by simp [hh])
  intro id' he
  rw [ht, Option.some_inj] at he
  exact he ▸ ⟨hfresh, hcome⟩

/-! ### What the services do -/

/-- **A segment of the watchdog** that takes no user from his agent, except one who has no entry and
is not coming. -/
theorem Agree.watchdog (h : Agree s l) {w : Watchdog.Data} (hmade : w.Made)
    (hkeep : ∀ id agent, s.wd.agentOf id = some agent →
      w.agentOf id = some agent ∨ (Fresh s id ∧ ∀ t ∈ l, t.coming?.map Prod.fst ≠ some id)) :
    Agree { s with wd := w } l where
  made := hmade
  entered := by
    intro agent hlive id u hu
    obtain ⟨hmap, hrest⟩ := h.entered agent hlive id u hu
    rcases hkeep id agent hmap with hmap' | ⟨hfresh, -⟩
    · exact ⟨hmap', hrest⟩
    · have hu : (s.agents agent).users.lookup id = some u := hu
      rw [hfresh agent hlive] at hu
      cases hu
  calm := h.calm
  coming := by
    intro t ht id agent hc
    rcases hkeep id agent (h.coming t ht id agent hc) with hmap' | ⟨-, hcome⟩
    · exact hmap'
    · exact absurd (by rw [hc]; rfl) (hcome t ht)
  ending := h.ending
  holds := h.holds
  apart := h.apart

/-- **A segment of an agent** that leaves its objects with those who hold them and makes no entry of
a user who is leaving. -/
theorem Agree.setAgent (h : Agree s l) {agent : ℕ} {a : Agent.Data}
    (hent : agent ∉ s.dead → Entered s.wd agent a)
    (hhold : agent ∉ s.dead → ∀ u, Holds (s.agents agent) u → Holds a u)
    (hfresh : ∀ t ∈ l, ∀ id, t.ending? = some id → agent ∉ s.dead → a.users.lookup id = none) :
    Agree (s.setAgent agent a) l where
  made := h.made
  entered := by
    intro b hlive
    change Entered s.wd b (Function.update s.agents agent a b)
    by_cases hb : b = agent
    · subst hb
      rw [Function.update_self]
      exact hent hlive
    · rw [Function.update_of_ne hb]
      exact h.entered b hlive
  calm := h.calm
  coming := h.coming
  ending := by
    intro t ht id he b hlive
    change (Function.update s.agents agent a b).users.lookup id = none
    by_cases hb : b = agent
    · subst hb
      rw [Function.update_self]
      exact hfresh t ht id he hlive
    · rw [Function.update_of_ne hb]
      exact h.ending t ht id he b hlive
  holds := by
    intro t ht b u hh hlive
    change Holds (Function.update s.agents agent a b) u
    have hu := h.holds t ht b u hh hlive
    by_cases hb : b = agent
    · subst hb
      rw [Function.update_self]
      exact hhold hlive u hu
    · rw [Function.update_of_ne hb]
      exact hu
  apart := h.apart

/-- Changing an object in a field that has no part in the agreement. -/
theorem Agree.setUser (h : Agree s l) (agent : ℕ) (v : Agent.Ref) (f : Agent.User → Agent.User)
    (hid : ∀ x, (f x).id = x.id) (hexit : ∀ x, (f x).exit = x.exit) :
    Agree (s.setAgent agent ((s.agents agent).setUser v f)) l := by
  have hobj : ∀ u, (((s.agents agent).setUser v f).objs u).id = ((s.agents agent).objs u).id ∧
      (((s.agents agent).setUser v f).objs u).exit = ((s.agents agent).objs u).exit := by
    intro u
    by_cases hu : u = v
    · subst hu
      simp [Agent.Data.setUser, hid, hexit]
    · simp [Agent.Data.setUser, Function.update_of_ne hu]
  refine h.setAgent ?_ ?_ ?_
  · intro hlive id u hu
    obtain ⟨hmap, hlt, hi, he⟩ := h.entered agent hlive id u hu
    exact ⟨hmap, hlt, (hobj u).1.trans hi, (hobj u).2.trans he⟩
  · intro _ u hu
    unfold Holds
    rw [(hobj u).1, (hobj u).2]
    exact hu
  · intro t ht id he hlive
    exact h.ending t ht id he agent hlive

/-- **A new object** for a user who is on record and not leaving, and who has no entry. -/
theorem Agree.store (h : Agree s l) {c : Client} {agent : ℕ}
    (hmap : s.wd.agentOf c.id = some agent) (hnew : (s.agents agent).users.lookup c.id = none)
    (hend : ∀ t ∈ l, t.ending? ≠ some c.id) :
    Agree (s.setAgent agent ((s.agents agent).store c)) l := by
  have hold : ∀ u, u < (s.agents agent).nobj →
      ((s.agents agent).store c).objs u = (s.agents agent).objs u := fun u hu =>
    Function.update_of_ne (Nat.ne_of_lt hu) _ _
  have hlook : ∀ id, ((s.agents agent).store c).users.lookup id =
      if id = c.id then some (s.agents agent).nobj else (s.agents agent).users.lookup id :=
    fun id => lookup_insert_eq _ _ _ _
  refine h.setAgent ?_ ?_ ?_
  · intro hlive id u hu
    rw [hlook] at hu
    split at hu
    · rename_i hid
      obtain rfl := Option.some_inj.1 hu
      refine ⟨hid ▸ hmap, Nat.lt_succ_self _, ?_, ?_⟩
      · simp [Agent.Data.store, hid]
      · simp [Agent.Data.store]
    · obtain ⟨hm, hlt, hi, he⟩ := h.entered agent hlive id u hu
      rw [hold u hlt]
      exact ⟨hm, Nat.lt_succ_of_lt hlt, hi, he⟩
  · rintro - u ⟨hlt, hu⟩
    refine ⟨Nat.lt_succ_of_lt hlt, ?_⟩
    rw [hold u hlt]
    refine hu.imp_right fun hu => ?_
    -- an object under this id would have been found
    have hne : ((s.agents agent).objs u).id ≠ c.id := by
      intro heq
      rw [heq, hnew] at hu
      cases hu
    rw [hlook, if_neg hne]
    exact hu
  · intro t ht id he hlive
    have hne : id ≠ c.id := by
      rintro rfl
      exact hend t ht he
    rw [hlook, if_neg hne]
    exact h.ending t ht id he agent hlive

/-- **An agent forgets a user** who is on record and not coming: the exit may be reported. -/
theorem Agree.expire (h : Agree s l) {agent : ℕ} {u : Agent.Ref} (hlive : agent ∉ s.dead)
    (hu : (s.agents agent).users.lookup ((s.agents agent).objs u).id = some u)
    (hcome : ∀ t ∈ l, t.coming?.map Prod.fst ≠ some ((s.agents agent).objs u).id) :
    Agree (s.setAgent agent ((s.agents agent).expire u))
      (.exitReq agent ((s.agents agent).objs u).id :: l) := by
  obtain ⟨hmap, -, -, -⟩ := h.entered agent hlive _ u hu
  have hlook : ∀ id, ((s.agents agent).expire u).users.lookup id =
      if id = ((s.agents agent).objs u).id then none else (s.agents agent).users.lookup id :=
    fun id => lookup_erase_eq _ _ _
  have hold : ∀ v, v ≠ u → ((s.agents agent).expire u).objs v = (s.agents agent).objs v :=
    fun v hv => Function.update_of_ne hv _ _
  have h' : Agree (s.setAgent agent ((s.agents agent).expire u)) l := by
    refine h.setAgent ?_ ?_ ?_
    · intro _ id v hv
      rw [hlook] at hv
      split at hv
      · cases hv
      · rename_i hid
        obtain ⟨hm, hlt, hi, he⟩ := h.entered agent hlive id v hv
        have hne : v ≠ u := by
          rintro rfl
          exact hid hi.symm
        rw [hold v hne]
        exact ⟨hm, hlt, hi, he⟩
    · rintro - v ⟨hlt, hv⟩
      refine ⟨hlt, ?_⟩
      by_cases hvu : v = u
      · subst hvu
        exact Or.inl (by simp [Agent.Data.expire, Agent.Data.setUser])
      · rw [hold v hvu]
        refine hv.imp_right fun hv => ?_
        have hne : ((s.agents agent).objs v).id ≠ ((s.agents agent).objs u).id := by
          intro heq
          rw [heq, hu] at hv
          exact hvu (Option.some_inj.1 hv).symm
        rw [hlook, if_neg hne]
        exact hv
    · intro t ht id he _
      rw [hlook]
      split
      · rfl
      · exact h.ending t ht id he agent hlive
  refine h'.cons_ending rfl rfl rfl rfl ?_ hcome
  -- the agent on record was the only one with an entry
  intro b hb
  by_cases hba : b = agent
  · subst hba
    change (Function.update s.agents b ((s.agents b).expire u) b).users.lookup _ = none
    rw [Function.update_self, hlook, if_pos rfl]
  · change (Function.update s.agents agent _ b).users.lookup _ = none
    rw [Function.update_of_ne hba]
    cases hv : (s.agents b).users.lookup ((s.agents agent).objs u).id with
    | none => rfl
    | some v =>
        have hm := (h.entered b hb _ v hv).1
        rw [hmap, Option.some_inj] at hm
        exact absurd hm.symm hba

/-- What a segment of the watchdog leaves behind, besides agents to be closed. -/
def posted (o : Watchdog.Out) : List Thread :=
  o.pcs.map fun pc =>
    match pc with
    | .agentAssign c user => .assignReq c (o.w.recs user).agent
    | pc => .wd pc

theorem Agree.spread (w : Watchdog.Data) {o : Watchdog.Out} (h : Agree s (posted o ++ l)) :
    Agree s (spread w o ++ l) := by
  have hclose : ∀ t ∈ (o.w.closed.drop w.closed.length).map fun p => Thread.close p.1, t.Idle := by
    intro t ht
    obtain ⟨p, -, rfl⟩ := List.mem_map.1 ht
    exact ⟨rfl, rfl, rfl, rfl⟩
  refine (h.append_idle hclose).mono fun t ht => ?_
  rcases List.mem_append.1 ht with ht | ht
  · rcases List.mem_append.1 ht with ht | ht
    · exact List.mem_append_right _ (List.mem_append_left _ ht)
    · exact List.mem_append_left _ ht
  · exact List.mem_append_right _ (List.mem_append_right _ ht)

/-- **A segment of an assignment** of a user who is not leaving. -/
theorem Agree.sends (h : Agree s l) {c : Client} {o : Watchdog.Out}
    (ho : Watchdog.Sends s.wd c o) (hend : ∀ t ∈ l, t.ending? ≠ some c.id) :
    Agree (s.run o).1 ((s.run o).2 ++ l) := by
  have hw : Agree { s with wd := o.w } l :=
    h.watchdog ho.made fun id agent hm => Or.inl (ho.keeps id agent hm)
  refine Agree.spread s.wd ?_
  cases o with
  | ret w r => exact hw
  | wait w pc =>
      rcases ho.pcs pc (List.mem_singleton_self pc) with rfl | rfl | ⟨u, rfl, hmap⟩
      · exact hw.append_idle (r := [.wd (.newAgent c)])
          (List.forall_mem_singleton.2 ⟨rfl, rfl, rfl, rfl⟩)
      · exact hw.append_idle (r := [.wd (.surplus c)])
          (List.forall_mem_singleton.2 ⟨rfl, rfl, rfl, rfl⟩)
      · exact hw.cons_coming (t := .assignReq c (w.recs u).agent) rfl rfl rfl rfl hmap hend

/-- A segment of the watchdog that is not about an assignment or an exit. -/
theorem Agree.quiet (h : Agree s l) {o : Watchdog.Out} (hmade : o.w.Made)
    (hkeep : ∀ id, o.w.agentOf id = s.wd.agentOf id)
    (hpcs : ∀ t ∈ posted o, t.Idle) : Agree (s.run o).1 ((s.run o).2 ++ l) := by
  have hw : Agree { s with wd := o.w } l :=
    h.watchdog hmade fun id agent hm => Or.inl ((hkeep id).trans hm)
  exact Agree.spread s.wd (hw.append_idle hpcs)

/-- The end of `watchdog.exit`, for a user who has no entry and is not coming. -/
theorem Agree.exitDrop (h : Agree s l) {w : Watchdog.Data} {id : ℕ} {user : Watchdog.Ref}
    (hmade : w.Made) (hsame : ∀ id, w.agentOf id = s.wd.agentOf id) (hfresh : Fresh s id)
    (hcome : ∀ t ∈ l, t.coming?.map Prod.fst ≠ some id) :
    Agree (s.run (Watchdog.exitDrop w id user)).1
    ((s.run (Watchdog.exitDrop w id user)).2 ++ l) := by
  have hw : (Watchdog.exitDrop w id user).w = { w with users := w.users.erase id } := by
    unfold Watchdog.exitDrop
    dsimp only
    split <;> rfl
  have hgate : ∀ t ∈ posted (Watchdog.exitDrop w id user), t.Idle := by
    unfold Watchdog.exitDrop
    dsimp only
    split
    · exact List.forall_mem_nil _
    · exact List.forall_mem_singleton.2 ⟨rfl, rfl, rfl, rfl⟩
  have hnext : Agree { s with wd := (Watchdog.exitDrop w id user).w } l := by
    refine h.watchdog (by rw [hw]; exact hmade.erase id) fun id' agent hm => ?_
    rw [hw, Watchdog.agentOf_erase]
    by_cases hid : id' = id
    · subst hid
      exact Or.inr ⟨hfresh, hcome⟩
    · rw [if_neg hid, hsame]
      exact Or.inl hm
  exact Agree.spread s.wd (hnext.append_idle hgate)

/-- **`watchdog.exit`** takes a user off the record whom no agent has and nobody sends to one. -/
theorem Agree.exit (h : Agree s l) {id : ℕ} (hfresh : Fresh s id)
    (hcome : ∀ t ∈ l, t.coming?.map Prod.fst ≠ some id) :
    Agree (s.run (Watchdog.exit s.wd id)).1 ((s.run (Watchdog.exit s.wd id)).2 ++ l) := by
  unfold Watchdog.exit
  cases hu : s.wd.users.lookup id with
  | none => exact h.quiet (o := .ret s.wd _) h.made (fun _ => rfl) (List.forall_mem_nil _)
  | some user =>
      dsimp only
      have hmade := h.made.freeAgent (s.wd.recs user).agent
      have hsame := Watchdog.agentOf_freeAgent s.wd (s.wd.recs user).agent
      split
      · -- the last user of the agent: it is closed first
        rename_i w a heq
        rw [heq] at hmade hsame
        have hw : Agree { s with wd := w } l :=
          h.watchdog hmade fun id' agent hm => Or.inl ((hsame id').trans hm)
        refine Agree.spread s.wd ?_
        exact hw.cons_ending (t := .wd (.exitClose id user)) rfl rfl rfl rfl hfresh hcome
      · rename_i w heq
        rw [heq] at hmade hsame
        exact h.exitDrop hmade hsame hfresh hcome

/-! ### One event -/

section Step

variable {t : Thread}

/-- The coroutine that runs is taken out of the pool. -/
theorem Agree.tail (h : Agree s (t :: l)) :
    Agree s l := h.mono fun _ ht => List.mem_cons_of_mem _ ht

/-- The message `assign` reaches an agent. -/
theorem Agree.assignReq {c : Client} {agent : ℕ} (h : Agree s (.assignReq c agent :: l)) :
    Agree (assignReq s c agent).1 ((assignReq s c agent).2 ++ l) := by
  have hmap := h.coming _ List.mem_cons_self c.id agent rfl
  have hend : ∀ t ∈ l, t.ending? ≠ some c.id := fun t ht he =>
    h.apart t (List.mem_cons_of_mem _ ht) _ List.mem_cons_self c.id he rfl
  have hreply : ∀ r, (Thread.assignReply c r).Idle := fun _ => ⟨rfl, rfl, rfl, rfl⟩
  unfold Reconnect.assignReq
  by_cases hdead : agent ∈ s.dead
  · rw [if_pos hdead]
    exact h.tail.append_idle (r := [_]) (List.forall_mem_singleton.2 (hreply none))
  rw [if_neg hdead]
  dsimp only
  cases hu : (s.agents agent).users.lookup c.id with
  | none =>
      have heq : (s.agents agent).assign c = (s.agents agent, .avatar) := by
        simp only [Agent.Data.assign, hu]
      have hsame : s.setAgent agent (s.agents agent) = s := by simp [Net.setAgent]
      rw [heq, hsame]
      exact h.tail.cons_coming (t := .avatar c agent) rfl rfl rfl rfl hmap hend
  | some u =>
      obtain ⟨-, hlt, hid, hexit⟩ := h.entered agent hdead c.id u hu
      have hheld : Holds (s.agents agent) u := ⟨hlt, Or.inr (by rw [hid]; exact hu)⟩
      cases hfd : ((s.agents agent).objs u).fd with
      | none =>
          have heq : (s.agents agent).assign c =
              ((s.agents agent).setUser u fun x => { x with fd := some c.fd }, .joined u) := by
            simp [Agent.Data.assign, hu, hexit, hfd]
          rw [heq]
          have hset :=
            (h.tail.cons_held (t := .loop agent u) rfl rfl rfl rfl fun _ => hheld).setUser
            agent u (fun x => { x with fd := some c.fd }) (fun _ => rfl) (fun _ => rfl)
          refine (hset.append_idle (r := [_])
            (List.forall_mem_singleton.2 (hreply (some true)))).mono fun t ht => ?_
          simp only [List.cons_append, List.nil_append, List.mem_cons] at ht ⊢
          tauto
      | some fd =>
          have heq : (s.agents agent).assign c = (s.agents agent, .joined u) := by
            simp [Agent.Data.assign, hu, hexit, hfd]
          have hsame : s.setAgent agent (s.agents agent) = s := by simp [Net.setAgent]
          rw [heq, hsame]
          refine ((h.tail.cons_held (t := .loop agent u) rfl rfl rfl rfl
            fun _ => hheld).append_idle (r := [_])
            (List.forall_mem_singleton.2 (hreply (some true)))).mono fun t ht => ?_
          simp only [List.cons_append, List.nil_append, List.mem_cons] at ht ⊢
          tauto

/-- `get_avatar` returns to an agent that has no entry of the user. -/
theorem Agree.avatar {c : Client} {agent : ℕ} {inp : Inp} (h : Agree s (.avatar c agent :: l))
    (hnew : inp.raised = true ∨ (s.agents agent).users.lookup c.id = none) :
    Agree (avatar s inp c agent).1 ((avatar s inp c agent).2 ++ l) := by
  have hmap := h.coming _ List.mem_cons_self c.id agent rfl
  have hend : ∀ t ∈ l, t.ending? ≠ some c.id := fun t ht he =>
    h.apart t (List.mem_cons_of_mem _ ht) _ List.mem_cons_self c.id he rfl
  unfold Reconnect.avatar
  by_cases hstop : agent ∈ s.dead ∨ inp.raised = true
  · rw [if_pos hstop]
    exact h.tail.append_idle (r := [.assignReply c none])
      (List.forall_mem_singleton.2 ⟨rfl, rfl, rfl, rfl⟩)
  rw [if_neg hstop]
  have hnew : (s.agents agent).users.lookup c.id = none :=
    hnew.resolve_left fun hr => hstop (Or.inr hr)
  refine (h.tail.store hmap hnew hend).cons_held (t := .mydesk c agent (s.agents agent).nobj)
    rfl rfl rfl rfl fun _ => ?_
  change Holds (Function.update s.agents agent ((s.agents agent).store c) agent) _
  rw [Function.update_self]
  refine ⟨Nat.lt_succ_self _, Or.inr ?_⟩
  have hobj : ((s.agents agent).store c).objs (s.agents agent).nobj =
    { id := c.id, fd := some c.fd } :=
    Function.update_self _ _ _
  rw [hobj]
  exact AList.lookup_insert _

/-- The socket of a user is gone. -/
theorem Agree.loop {agent : ℕ} {u : Agent.Ref} {inp : Inp} (h : Agree s (.loop agent u :: l)) :
    Agree (resume s inp (.loop agent u)).1 ((resume s inp (.loop agent u)).2 ++ l) := by
  unfold resume
  by_cases hdead : agent ∈ s.dead
  · simpa only [if_pos hdead, List.nil_append] using h.tail
  simp only [if_neg hdead]
  unfold Agent.Data.gone
  split
  · simp only [Option.map_none, Option.toList_none, List.nil_append]
    exact h.tail.setUser agent u _ (fun _ => rfl) (fun _ => rfl)
  have hsame : s.setAgent agent (s.agents agent) = s := by simp [Net.setAgent]
  cases hv : (s.agents agent).users.lookup ((s.agents agent).objs u).id with
  | none => simpa [hsame] using h.tail
  | some v =>
      dsimp only
      split
      · obtain ⟨-, hlt, hid, -⟩ := h.entered agent hdead _ v hv
        have hheld : Holds (s.agents agent) v := ⟨hlt, Or.inr (by rw [hid]; exact hv)⟩
        exact (h.tail.cons_held (t := .afkReq agent v) rfl rfl rfl rfl fun _ => hheld).setUser
          agent v (fun x => { x with fd := none }) (fun _ => rfl) (fun _ => rfl)
      · simpa [hsame] using h.tail

/-- The message `afk` reaches the watchdog. -/
theorem Agree.afkReq {agent : ℕ} {u : Agent.Ref} (h : Agree s (.afkReq agent u :: l)) :
    Agree (afkReq s agent u).1 ((afkReq s agent u).2 ++ l) := by
  have hheld := h.holds _ List.mem_cons_self agent u rfl
  have hgrace : Agree s (.grace agent u :: l) :=
    h.tail.cons_held (t := .grace agent u) rfl rfl rfl rfl hheld
  unfold Reconnect.afkReq Watchdog.afk
  cases hw : s.wd.users.lookup ((s.agents agent).objs u).id with
  | none => exact h.tail
  | some user =>
      dsimp only
      by_cases hafk : (s.wd.recs user).afk = true
      · rw [if_pos hafk]
        exact hgrace
      · rw [if_neg hafk]
        refine hgrace.watchdog h.made fun id a hm => Or.inl ?_
        rw [Watchdog.agentOf_setRecord]
        · exact hm
        · exact fun _ => rfl

/-- The grace period is over. -/
theorem Agree.grace {agent : ℕ} {u : Agent.Ref} {inp : Inp} (h : Agree s (.grace agent u :: l))
    (hc : (s.agents agent).expires u = true →
      ∀ t ∈ l, t.coming?.map Prod.fst ≠ some ((s.agents agent).objs u).id) :
    Agree (resume s inp (.grace agent u)).1 ((resume s inp (.grace agent u)).2 ++ l) := by
  unfold resume
  by_cases hdead : agent ∈ s.dead
  · simpa only [if_pos hdead, List.nil_append] using h.tail
  simp only [if_neg hdead]
  by_cases hexp : (s.agents agent).expires u = true
  · rw [if_pos hexp]
    have hexit : ((s.agents agent).objs u).exit = false := by
      simp only [Agent.Data.expires, Bool.and_eq_true, Bool.not_eq_true'] at hexp
      exact hexp.2
    obtain ⟨-, hu⟩ := h.holds _ List.mem_cons_self agent u rfl hdead
    have hu := hu.resolve_left (by rw [hexit]; exact Bool.false_ne_true)
    exact h.tail.expire hdead hu (hc hexp)
  · rw [if_neg hexp]
    exact h.tail

end Step

/-! ### Runs -/

/-- A coroutine of the watchdog runs. -/
theorem Agree.wd {pc : Watchdog.Pc} {inp : Inp} (h : Agree s (.wd pc :: l))
    (hc : ∀ c, pc = .newAgent c ∨ pc = .surplus c → ∀ t ∈ l, t.ending? ≠ some c.id) :
    Agree (resume s inp (.wd pc)).1 ((resume s inp (.wd pc)).2 ++ l) := by
  have hcalm := h.calm _ List.mem_cons_self
  have hret : ∀ r, Agree (s.run (.ret s.wd r)).1 ((s.run (.ret s.wd r)).2 ++ l) := fun r =>
    h.tail.quiet (o := .ret s.wd r) h.made (fun _ => rfl) (List.forall_mem_nil _)
  unfold resume Watchdog.resume
  dsimp only
  by_cases hraised : inp.raised = true
  · rw [if_pos hraised]
    exact hret _
  rw [if_neg hraised]
  cases pc with
  | newAgent c => exact h.tail.sends (Watchdog.sends_assignStarted h.made c) (hc c (Or.inl rfl))
  | surplus c => exact h.tail.sends (Watchdog.sends_assignOnto h.made c) (hc c (Or.inr rfl))
  | agentAssign c user => cases hcalm
  | exitClose id user =>
      have hfresh := h.ending _ List.mem_cons_self id rfl
      have hcome : ∀ t ∈ l, t.coming?.map Prod.fst ≠ some id := fun t ht =>
        h.apart _ List.mem_cons_self t (List.mem_cons_of_mem _ ht) id rfl
      exact h.tail.exitDrop h.made (fun _ => rfl) hfresh hcome
  | kickAgent id user try_ => cases hcalm
  | kickClose id user try_ => cases hcalm
  | gateKick id gate force => exact hret _
  | initAgent =>
      dsimp only
      have hmade : (s.wd.startAgent.1.freeAgent s.wd.startAgent.2).1.Made := h.made
      have hsame : ∀ id, (s.wd.startAgent.1.freeAgent s.wd.startAgent.2).1.agentOf id =
          s.wd.agentOf id := fun _ => rfl
      split
      · rename_i w a heq
        rw [heq] at hmade hsame
        exact h.tail.quiet (o := .wait w .initClose) hmade hsame
          (List.forall_mem_singleton.2 ⟨rfl, rfl, rfl, rfl⟩)
      · rename_i w heq
        rw [heq] at hmade hsame
        exact h.tail.quiet (o := .ret w .nil) hmade hsame (List.forall_mem_nil _)
  | initClose => exact hret _

/-- The reply of an agent reaches the watchdog: a refused user is assigned again. -/
theorem Agree.assignReply {c : Client} {reply : Option Bool} {inp : Inp}
    (h : Agree s (.assignReply c reply :: l))
    (hc : reply = some false → ∀ t ∈ l, t.ending? ≠ some c.id) :
    Agree (resume s inp (.assignReply c reply)).1
      ((resume s inp (.assignReply c reply)).2 ++ l) := by
  have hret : ∀ r, Agree (s.run (.ret s.wd r)).1 ((s.run (.ret s.wd r)).2 ++ l) := fun r =>
    h.tail.quiet (o := .ret s.wd r) h.made (fun _ => rfl) (List.forall_mem_nil _)
  unfold resume Watchdog.resume
  rcases reply with - | - | -
  · exact hret _
  · exact h.tail.sends (Watchdog.sends_assign h.made c) (hc rfl)
  · dsimp only
    simp only [Option.isNone_some, Bool.false_eq_true, if_false, Option.getD_some, if_true]
    split
    · exact hret _
    · exact hret _

/-- `free_agent(new_agent())` at start-up. -/
theorem Agree.init (h : Agree s l) :
    Agree (s.run (Watchdog.initAgent s.wd)).1 ((s.run (Watchdog.initAgent s.wd)).2 ++ l) := by
  unfold Watchdog.initAgent
  split
  · exact h.quiet (o := .wait s.wd .initAgent) h.made (fun _ => rfl)
      (List.forall_mem_singleton.2 ⟨rfl, rfl, rfl, rfl⟩)
  · rename_i agent agents heq
    have hmade : (Watchdog.Data.freeAgent { s.wd with agents := agents } agent).1.Made := h.made
    have hsame : ∀ id, (Watchdog.Data.freeAgent { s.wd with agents := agents } agent).1.agentOf id =
        s.wd.agentOf id := fun _ => rfl
    split
    · rename_i w a heq
      rw [heq] at hmade hsame
      exact h.quiet (o := .wait w .initClose) hmade hsame
        (List.forall_mem_singleton.2 ⟨rfl, rfl, rfl, rfl⟩)
    · rename_i w heq
      rw [heq] at hmade hsame
      exact h.quiet (o := .ret w .nil) hmade hsame (List.forall_mem_nil _)

/-- **One thing happens**, in a pool that meets the condition. -/
theorem agree_resume {s : Pool Net Thread} {k : ℕ} {inp : Inp} {t : Thread}
    (hk : s.cos[k]? = some t) (h : Agree s.shared (t :: l)) (hl : ∀ t ∈ l, t ∈ s.cos)
    (hc : apart s (.resume k inp) = true) :
    Agree (resume s.shared inp t).1 ((resume s.shared inp t).2 ++ l) := by
  simp only [apart, hk] at hc
  cases t with
  | wd pc =>
      refine h.wd fun c hpc t ht => ?_
      rcases hpc with rfl | rfl
      · simpa using List.all_eq_true.1 hc t (hl t ht)
      · simpa using List.all_eq_true.1 hc t (hl t ht)
  | assignReq c agent => exact h.assignReq
  | avatar c agent =>
      refine h.avatar ?_
      simpa [Option.isNone_iff_eq_none] using hc
  | mydesk c agent u =>
      have hheld := h.holds _ List.mem_cons_self agent u rfl
      simp only [resume]
      split
      · exact h.tail.append_idle (r := [.assignReply c none])
          (List.forall_mem_singleton.2 ⟨rfl, rfl, rfl, rfl⟩)
      · have hreply : Agree s.shared (.assignReply c (some true) :: l) :=
          h.tail.append_idle (r := [.assignReply c (some true)])
            (List.forall_mem_singleton.2 ⟨rfl, rfl, rfl, rfl⟩)
        exact hreply.cons_held (t := .loop agent u) rfl rfl rfl rfl hheld
  | assignReply c reply =>
      refine h.assignReply fun hr t ht => ?_
      subst hr
      simpa using List.all_eq_true.1 hc t (hl t ht)
  | loop agent u => exact h.loop
  | afkReq agent u => exact h.afkReq
  | grace agent u =>
      refine h.grace fun hexp t ht => ?_
      simp only [hexp, Bool.not_true, Bool.false_or] at hc
      simpa using List.all_eq_true.1 hc t (hl t ht)
  | exitReq agent id =>
      have hfresh := h.ending _ List.mem_cons_self id rfl
      have hcome : ∀ t ∈ l, t.coming?.map Prod.fst ≠ some id := fun t ht =>
        h.apart _ List.mem_cons_self t (List.mem_cons_of_mem _ ht) id rfl
      exact h.tail.exit hfresh hcome
  | close agent =>
      -- a dead agent has nothing to agree on
      exact {
        made := h.made
        entered := fun b hb => h.entered b fun hd => hb (List.mem_cons_of_mem _ hd)
        calm := h.tail.calm
        coming := h.tail.coming
        ending := fun t ht id he b hb => h.tail.ending t ht id he b fun hd =>
          hb (List.mem_cons_of_mem _ hd)
        holds := fun t ht b u hh hb => h.tail.holds t ht b u hh fun hd =>
          hb (List.mem_cons_of_mem _ hd)
        apart := h.tail.apart }

theorem agree_exec {s s' : Pool Net Thread} {e : Event Req Inp} (h : Agree s.shared s.cos)
    (hc : apart s e = true) (he : net.exec s e = some s') : Agree s'.shared s'.cos := by
  rcases Machine.exec_cases he with ⟨r, i, rfl, rfl⟩ | ⟨k, i, l, t, r, out, rfl, hk, hl, ho, rfl⟩
  · -- a request
    have key : Agree (net.call s.shared r i).1 ((net.call s.shared r i).2 ++ s.cos) := by
      cases r with
      | assign c =>
          refine h.sends (Watchdog.sends_assign h.made c) fun t ht => ?_
          simpa using List.all_eq_true.1 hc t ht
      | init => exact h.init
    exact key.mono fun t ht => List.mem_append.2 (List.mem_append.1 ht).symm
  · obtain rfl := Option.some_inj.1 ho
    have h' : Agree s.shared (t :: (l ++ r)) := by
      refine h.mono fun t' ht => ?_
      rw [hl]
      exact List.perm_middle.mem_iff.2 ht
    have hmem : ∀ t' ∈ l ++ r, t' ∈ s.cos := by
      intro t' ht
      rw [hl]
      exact Machine.mem_of_mem_rest ht
    refine (agree_resume hk h' hmem hc).mono fun t' ht => ?_
    exact List.mem_append.2 (Machine.rest_or_left ht).symm

/-- The watchdog at its start. -/
def start (load : ℤ) : Pool Net Thread := ⟨{ wd := { load := load } }, []⟩

theorem agree_start (load : ℤ) : Agree (start load).shared (start load).cos where
  made := fun _ _ h => by cases h
  entered := fun _ _ _ _ h => by cases h
  calm := List.forall_mem_nil _
  coming := List.forall_mem_nil _
  ending := List.forall_mem_nil _
  holds := List.forall_mem_nil _
  apart := List.forall_mem_nil _

/-- **Watchdog and agents agree in every run that meets the condition**, also while messages are in
flight. -/
theorem agreement_of_apart {load : ℤ} {s : Pool Net Thread}
    (h : net.Reach (fun s e => apart s e = true) (start load) s) : Agreement s.shared :=
  Agree.agreement
    (Machine.Reach.inv (P := fun s => Agree s.shared s.cos) (agree_start load)
      (fun _ _ _ hP hc he => agree_exec hP hc he) h)

/-- A user connects, is away for longer than the grace period, and comes back: the run meets the
condition. -/
theorem agreement_comesBack :
    ∃ s, net.Reach (fun s e => apart s e = true) (start 10) s ∧
      (∀ t ∈ s.cos, t.inFlight = false) ∧ s.shared.wd.agentOf 7 = some 1 ∧ Agreement s.shared := by
  obtain ⟨s, hs, hp⟩ := Machine.exists_reach (M := net) (C := fun s e => apart s e = true)
    (i := start 10)
    ([.call .init {}, .resume 0 {}, .call (.assign ⟨7, 2, 3, 4⟩) {}] ++
      -- he gets an object, his socket breaks and the grace period ends
      [.resume 0 {}, .resume 0 {}, .resume 0 {}, .resume 1 {}, .resume 0 {}, .resume 0 {},
        .resume 0 {}] ++
      -- the watchdog hears of it before he is assigned again
      [.resume 0 {}, .call (.assign ⟨7, 2, 3, 5⟩) {}, .resume 0 {}, .resume 0 {}, .resume 0 {},
        .resume 1 {}])
    (p := fun s => (s.cos.all fun t => !t.inFlight) && s.shared.wd.agentOf 7 == some 1)
    (by decide +kernel)
  rw [Bool.and_eq_true, List.all_eq_true, beq_iff_eq] at hp
  exact ⟨s, hs, fun t ht => by simpa using hp.1 t ht, hp.2, agreement_of_apart hs⟩

/-- **An exit that crosses an assignment leaves them in disagreement**: the assignment reaches the
agent after it has forgotten the user and the exit reaches the watchdog after the assignment.  The
agent has a live entry that the watchdog does not know of, and nothing is in flight. -/
theorem exit_crosses_assign :
    ∃ s, net.Reach (fun _ _ => True) (start 10) s ∧
      (∀ t ∈ s.cos, t.inFlight = false) ∧ ¬ Agreement s.shared := by
  obtain ⟨s, hs, hp⟩ := Machine.exists_reach (M := net) (C := fun _ _ => True) (i := start 10)
    ([.call .init {}, .resume 0 {}, .call (.assign ⟨7, 2, 3, 4⟩) {}] ++
      [.resume 0 {}, .resume 0 {}, .resume 0 {}, .resume 1 {}, .resume 0 {}, .resume 0 {}] ++
      -- he is assigned again, and only then the grace period ends
      [.call (.assign ⟨7, 2, 3, 5⟩) {}, .resume 0 {}, .resume 1 {}, .resume 1 {}, .resume 1 {}] ++
      [.resume 0 {}, .resume 0 {}, .resume 1 {}])
    (p := fun s => (s.cos.all fun t => !t.inFlight) && s.shared.wd.agentOf 7 == none &&
      decide (1 ∉ s.shared.dead) &&
      (s.shared.agents 1).users.lookup 7 == some 1 && !((s.shared.agents 1).objs 1).exit)
    (by decide +kernel)
  simp only [Bool.and_eq_true, List.all_eq_true, beq_iff_eq, Bool.not_eq_true', decide_eq_true_eq]
    at hp
  obtain ⟨⟨⟨⟨hflight, hmap⟩, hlive⟩, hu⟩, hexit⟩ := hp
  refine ⟨s, hs, hflight, fun h => ?_⟩
  have hagent : s.shared.wd.agentOf 7 = some 1 := h 1 7 1 hlive hu hexit
  rw [hmap] at hagent
  cases hagent

end Halieutics.Reconnect
