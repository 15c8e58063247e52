/-
**The services agree about every user.**

What all services know about a user together is his view.  A user who is out, one for whom a gate
waits and one who has a session have views of three shapes, and the services agree when every view
is of one of these.  A step of a handler changes the view of one user and leaves the others alone,
so an event is followed by composing the changes of its steps.

Main definitions:

* `View`, `World.view` — what the services know about a user;
* `Status`, `Status.view` — what they should know;
* `Parts` — what holds in each service by itself;
* `Moves` — a step changes the view of one user;
* `Good` — **the invariant**: every view is that of a status.

Main results:

* `moves_gate`, `moves_agent`, `moves_wd`, `moves_logout`, `moves_online` — the steps;
* `Good.process` — an orderly event is processed completely and keeps the invariant;
* `agreed_of_orderly` — **the services agree after every event of an orderly run**;
* `signout_is_not_told` — **after `cli:signout` they do not**.
-/

import Halieutics.Sessions

set_option relaxedAutoImplicit false
set_option autoImplicit false

namespace Halieutics.Sessions

open LuaTable
open Watchdog (Client Record)

/-! ### Views -/

/-- What the services know about a user: the agents, the watchdog, the gates and the login
service. -/
structure View where
  agent : ℕ → Option Bool
  record : Option Record
  gate : ℕ → Option Gate.State
  online : Option ℕ

/-- What the services know about a user. -/
def World.view (app : String) (s : World) (id : ℕ) : View where
  agent a := (s.agents a).seen id
  record := s.wd.entry id
  gate g := (s.gates g).stateOf id
  online := (s.login.record app id).map Login.OnlineUser.gate

/-- **The status of a user.** -/
inductive Status where
  | out
  | waiting (g : ℕ)
  | session (g a secret : ℕ)

/-- In one place only. -/
def only {α : Type} (k : ℕ) (x : α) : ℕ → Option α := Function.update (fun _ => none) k (some x)

/-- What the services should know about a user. -/
def Status.view : Status → View
  | .out => ⟨fun _ => none, none, fun _ => none, none⟩
  | .waiting g => ⟨fun _ => none, none, only g .wait, some g⟩
  | .session g a secret => ⟨only a true, some ⟨a, g, secret, false⟩, only g .ok, some g⟩

/-- **What holds in the login service**: the slots are accounted for, the gates belong to apps, and
those that the users of the app come to belong to the app. -/
structure Ready (app : String) (l : Login.Server) : Prop where
  accounted : Login.Accounted l
  hosted : Login.Hosted l
  known : (l.apps.lookup app).isSome = true
  counters : ∀ platform c, l.gateCounter.lookup (app ++ "." ++ platform) = some c →
    ∀ g ∈ c.gates, ∀ conf, l.gates.lookup g = some conf → conf.app = app
  homes : ∀ id u, l.record app id = some u → ∃ conf, l.gates.lookup u.gate = some conf ∧
    conf.app = app

/-- **What holds in each service by itself.** -/
structure Parts (app : String) (s : World) : Prop where
  made : s.wd.Made
  own : s.wd.Own
  alive : s.wd.closed = []
  gates : ∀ g, (s.gates g).Fits
  agents : ∀ a, (s.agents a).Fits
  login : Ready app s.login

/-- **A step changes the view of one user.** -/
structure Moves (app : String) (s s' : World) (id : ℕ) (v : View) : Prop where
  parts : Parts app s'
  self : s'.view app id = v
  frame : ∀ id', id' ≠ id → s'.view app id' = s.view app id'

/-- **The invariant**: every view is that of a status. -/
structure Good (app : String) (s : World) : Prop where
  parts : Parts app s
  status : ∀ id, ∃ st : Status, s.view app id = st.view

variable {app : String} {s s' s'' : World} {id : ℕ} {v v' : View}

theorem Moves.trans (h : Moves app s s' id v) (h' : Moves app s' s'' id v') :
    Moves app s s'' id v' :=
  ⟨h'.parts, h'.self, fun id' hne => (h'.frame id' hne).trans (h.frame id' hne)⟩

/-- An event that moves a user to another status keeps the invariant. -/
theorem Good.moves (h : Good app s) {st : Status} (hm : Moves app s s' id st.view) :
    Good app s' := by
  refine ⟨hm.parts, fun id' => ?_⟩
  by_cases hne : id' = id
  · exact ⟨st, hne ▸ hm.self⟩
  · obtain ⟨st', hst'⟩ := h.status id'
    exact ⟨st', (hm.frame id' hne).trans hst'⟩

/-! ### The steps -/

/-- **A gate changes** what it knows about one user. -/
theorem moves_gate (h : Parts app s) (hv : s.view app id = v) {g : ℕ} {d : Gate.Data} (hd : d.Fits)
    {x : Option Gate.State}
    (hst : ∀ id', d.stateOf id' = if id' = id then x else (s.gates g).stateOf id') :
    Moves app s (s.setGate g d) id { v with gate := Function.update v.gate g x } := by
  have hview : ∀ id' g', ((s.setGate g d).gates g').stateOf id' =
      if g' = g ∧ id' = id then x else (s.gates g').stateOf id' := by
    intro id' g'
    unfold World.setGate
    by_cases hg : g' = g
    · subst hg
      simp [hst]
    · simp [hg]
  refine ⟨⟨h.made, h.own, h.alive, fun g' => ?_, h.agents, h.login⟩, ?_, fun id' hne => ?_⟩
  · unfold World.setGate
    by_cases hg : g' = g
    · subst hg
      simpa using hd
    · simpa [Function.update_of_ne hg] using h.gates g'
  · subst hv
    unfold World.view
    congr 1
    funext g'
    rw [hview]
    by_cases hg : g' = g
    · subst hg
      simp
    · simp [hg]
  · unfold World.view
    congr 1
    funext g'
    rw [hview, if_neg (fun hc => hne hc.2)]

/-- **An agent changes** what it knows about one user. -/
theorem moves_agent (h : Parts app s) (hv : s.view app id = v) {a : ℕ} {d : Agent.Data}
    (hd : d.Fits)
    {x : Option Bool} (hseen : ∀ id', d.seen id' = if id' = id then x else (s.agents a).seen id') :
    Moves app s (s.setAgent a d) id { v with agent := Function.update v.agent a x } := by
  have hview : ∀ id' a', ((s.setAgent a d).agents a').seen id' =
      if a' = a ∧ id' = id then x else (s.agents a').seen id' := by
    intro id' a'
    unfold World.setAgent
    by_cases ha : a' = a
    · subst ha
      simp [hseen]
    · simp [ha]
  refine ⟨⟨h.made, h.own, h.alive, h.gates, fun a' => ?_, h.login⟩, ?_, fun id' hne => ?_⟩
  · unfold World.setAgent
    by_cases ha : a' = a
    · subst ha
      simpa using hd
    · simpa [Function.update_of_ne ha] using h.agents a'
  · subst hv
    unfold World.view
    congr 1
    funext a'
    rw [hview]
    by_cases ha : a' = a
    · subst ha
      simp
    · simp [ha]
  · unfold World.view
    congr 1
    funext a'
    rw [hview, if_neg (fun hc => hne hc.2)]

/-- **The watchdog changes** what it knows about one user. -/
theorem moves_wd (h : Parts app s) (hv : s.view app id = v) {w : Watchdog.Data} (hm : w.Made)
    (ho : w.Own) (hc : w.closed = []) {x : Option Record}
    (hentry : ∀ id', w.entry id' = if id' = id then x else s.wd.entry id') :
    Moves app s { s with wd := w } id { v with record := x } := by
  refine ⟨⟨hm, ho, hc, h.gates, h.agents, h.login⟩, ?_, fun id' hne => ?_⟩
  · subst hv
    unfold World.view
    congr 1
    rw [hentry, if_pos rfl]
  · unfold World.view
    congr 1
    rw [hentry, if_neg hne]

/-- **The login service changes** what it knows about one user. -/
theorem moves_login (h : Parts app s) (hv : s.view app id = v) {l : Login.Server} (hl : Ready app l)
    {x : Option Login.OnlineUser}
    (hrec : ∀ id', l.record app id' = if id' = id then x else s.login.record app id') :
    Moves app s { s with login := l } id { v with online := x.map Login.OnlineUser.gate } := by
  refine ⟨⟨h.made, h.own, h.alive, h.gates, h.agents, hl⟩, ?_, fun id' hne => ?_⟩
  · subst hv
    unfold World.view
    congr 1
    rw [hrec, if_pos rfl]
  · unfold World.view
    congr 1
    rw [hrec, if_neg hne]

/-! ### The login service -/

section Login

variable {l : Login.Server}

theorem record_onOnline {app : String} (h : (l.apps.lookup app).isSome = true)
    (f : Table ℕ Login.OnlineUser → Table ℕ Login.OnlineUser) :
    ∃ t, (∀ id, l.record app id = t.lookup id) ∧
      ∀ id, (l.onOnline app f).record app id = (f t).lookup id := by
  obtain ⟨a, ha⟩ := Option.isSome_iff_exists.1 h
  refine ⟨a.online, fun id => ?_, fun id => ?_⟩
  · unfold Login.Server.record
    rw [ha]
    rfl
  · unfold Login.Server.record Login.Server.onOnline
    rw [ha]
    dsimp only
    rw [lookup_insert_eq, if_pos rfl]
    rfl

theorem record_addClient (l : Login.Server) (g : ℕ) (n : ℤ) (id : ℕ) :
    (l.addClient g n).record app id = l.record app id := by
  unfold Login.Server.record
  rw [Login.apps_addClient]

theorem gateCounter_change (l : Login.Server) (g : ℕ) (n : ℤ)
    (f : Table ℕ Login.OnlineUser → Table ℕ Login.OnlineUser) :
    ((l.addClient g n).onOnline app f).gateCounter = l.gateCounter := by
  unfold Login.Server.onOnline Login.Server.addClient
  split <;> split <;> rfl

/-- The gates keep their apps. -/
theorem app_change (l : Login.Server) (app : String) (g g' : ℕ) (n : ℤ)
    (f : Table ℕ Login.OnlineUser → Table ℕ Login.OnlineUser) :
    (((l.addClient g n).onOnline app f).gates.lookup g').map Login.GateConf.app =
      (l.gates.lookup g').map Login.GateConf.app := by
  rw [Login.gates_onOnline, Login.lookup_addClient, Option.map_map]
  congr 1
  funext conf
  simp only [Function.comp_apply]
  split <;> rfl

theorem exists_app {o : Option Login.GateConf} :
    (∃ conf, o = some conf ∧ conf.app = app) ↔ o.map Login.GateConf.app = some app := by
  rw [Option.map_eq_some_iff]

/-- A user comes or goes, and a counter changes with him. -/
theorem Ready.change (h : Ready app l) {g : ℕ} {n : ℤ}
    {f : Table ℕ Login.OnlineUser → Table ℕ Login.OnlineUser}
    (hc : Login.Change l ((l.addClient g n).onOnline app f))
    (hhome : ∀ id u, ((l.addClient g n).onOnline app f).record app id = some u →
      ∃ conf, l.gates.lookup u.gate = some conf ∧ conf.app = app) :
    Ready app ((l.addClient g n).onOnline app f) where
  accounted := hc.accounted h.accounted
  hosted := hc.hosted h.hosted
  known := hc.apps h.known
  counters := by
    intro platform c hlook g' hg' conf hconf
    rw [gateCounter_change] at hlook
    have happ := app_change l app g g' n f
    rw [hconf, Option.map_some] at happ
    obtain ⟨conf', hconf', heq⟩ := Option.map_eq_some_iff.1 happ.symm
    rw [← heq]
    exact h.counters platform c hlook g' hg' conf' hconf'
  homes := by
    intro id u hu
    rw [exists_app, app_change, ← exists_app]
    exact hhome id u hu

/-- **`login.logout`** of a user who is online. -/
theorem Ready.logout (h : Ready app l) {g : ℕ} {u : Login.OnlineUser}
    (hrec : l.record app id = some u) {conf : Login.GateConf} (hconf : l.gates.lookup g = some conf)
    (happ : conf.app = app) :
    ∃ l', Login.logout l g id = .ret l' .nil ∧ Ready app l' ∧
      ∀ id', l'.record app id' = if id' = id then none else l.record app id' := by
  have heq : Login.logout l g id =
      .ret ((l.addClient u.gate (-1)).onOnline app fun t => t.erase id) .nil := by
    unfold Login.logout
    rw [hconf]
    dsimp only
    rw [happ, hrec]
  have hknown : ((l.addClient u.gate (-1)).apps.lookup app).isSome = true := by
    rw [Login.apps_addClient]
    exact h.known
  obtain ⟨t, hold, hnew⟩ := record_onOnline hknown fun t => t.erase id
  have hrecord : ∀ id',
    ((l.addClient u.gate (-1)).onOnline app fun t => t.erase id).record app id' =
      if id' = id then none else l.record app id' := by
    intro id'
    rw [hnew, lookup_erase_eq, ← hold, record_addClient]
  refine ⟨_, heq, h.change (.offline hrec) fun id' u' hu' => ?_, hrecord⟩
  rw [hrecord] at hu'
  split at hu'
  · cases hu'
  · exact h.homes id' u' hu'

/-- The gate that the round ends at is one of the counter's. -/
theorem mem_of_loop (c : Login.Counter) (free : ℕ → Bool) (src rounds idx : ℕ) {g : ℕ}
    (h : (c.loop free src rounds idx).2 = some g) : g ∈ c.gates := by
  induction rounds generalizing idx with
  | zero => simp [Login.Counter.loop] at h
  | succ rounds ih =>
      unfold Login.Counter.loop at h
      split at h
      · simp at h
      · rename_i g' hg'
        split at h
        · obtain rfl : g' = g := by simpa using h
          exact List.mem_of_getElem? hg'
        · split at h
          · simp at h
          · exact ih _ h

/-- The counters move on. -/
theorem Ready.setCounter (h : Ready app l) {name : String} {c c' : Login.Counter}
    (hc : l.gateCounter.lookup name = some c) (hgates : c'.gates = c.gates) :
    Ready app { l with gateCounter := l.gateCounter.insert name c' } where
  accounted := h.accounted
  hosted := h.hosted
  known := h.known
  counters := by
    intro platform c'' hlook g hg
    have hlook : (l.gateCounter.insert name c').lookup (app ++ "." ++ platform) = some c'' := hlook
    rw [lookup_insert_eq] at hlook
    split at hlook
    · rename_i hname
      obtain rfl := Option.some_inj.1 hlook
      rw [hgates] at hg
      rw [← hname] at hc
      exact h.counters platform c hc g hg
    · exact h.counters platform c'' hlook g hg
  homes := h.homes

/-- **What `assign_gate` does**: nothing is free, or a free gate of the app gets a client. -/
theorem Ready.assignGate (h : Ready app l) (platform : String) :
    ∃ l₁, Ready app l₁ ∧ (∀ id, l₁.record app id = l.record app id) ∧
      (Login.assignGate l app platform = (l₁, none) ∨
        ∃ g, (∃ conf, l₁.gates.lookup g = some conf ∧ conf.app = app) ∧
          Login.assignGate l app platform = (l₁.addClient g 1, some g)) := by
  unfold Login.assignGate
  dsimp only
  cases hc : l.gateCounter.lookup (app ++ "." ++ platform) with
  | none => exact ⟨l, h, fun _ => rfl, Or.inl rfl⟩
  | some c =>
      have hgates : (c.next l.free).1.gates = c.gates := rfl
      refine ⟨_, h.setCounter hc hgates, fun _ => rfl, ?_⟩
      dsimp only
      cases hg : (c.next l.free).2 with
      | none => exact Or.inl rfl
      | some g =>
          refine Or.inr ⟨g, ?_, rfl⟩
          have hfree : l.free g = true := Login.loop_free c l.free _ _ _ hg
          have hmem : g ∈ c.gates := mem_of_loop c l.free _ _ _ hg
          unfold Login.Server.free at hfree
          cases hconf : l.gates.lookup g with
          | none =>
              rw [hconf] at hfree
              cases hfree
          | some conf => exact ⟨conf, rfl, h.counters platform c hc g hmem conf hconf⟩

/-- **A user comes online.** -/
theorem Ready.online (h : Ready app l) (hrec : l.record app id = none) {g : ℕ}
    (hg : ∃ conf, l.gates.lookup g = some conf ∧ conf.app = app) :
    Ready app ((l.addClient g 1).onOnline app fun t => t.insert id ⟨id, g⟩) ∧
      ∀ id', ((l.addClient g 1).onOnline app fun t => t.insert id ⟨id, g⟩).record app id' =
        if id' = id then some ⟨id, g⟩ else l.record app id' := by
  have hknown : ((l.addClient g 1).apps.lookup app).isSome = true := by
    rw [Login.apps_addClient]
    exact h.known
  obtain ⟨t, hold, hnew⟩ := record_onOnline hknown fun t => t.insert id ⟨id, g⟩
  have hrecord : ∀ id',
    ((l.addClient g 1).onOnline app fun t => t.insert id ⟨id, g⟩).record app id' =
      if id' = id then some ⟨id, g⟩ else l.record app id' := by
    intro id'
    rw [hnew, lookup_insert_eq, ← hold, record_addClient]
  have hchange : Login.Change l ((Login.Server.addClient { l with gateCounter := l.gateCounter }
      g 1).onOnline app fun t => t.insert id ⟨id, g⟩) := .online h.known hrec
  refine ⟨h.change hchange fun id' u hu => ?_, hrecord⟩
  rw [hrecord] at hu
  split at hu
  · obtain rfl := Option.some_inj.1 hu
    exact hg
  · exact h.homes id' u hu

end Login

/-! ### The calls -/

/-- The user is online, and his gate belongs to the app. -/
theorem Parts.home (h : Parts app s) {g : ℕ} (hv : (s.view app id).online = some g) :
    ∃ u conf, s.login.record app id = some u ∧ s.login.gates.lookup g = some conf ∧
    conf.app = app := by
  obtain ⟨u, hu, rfl⟩ := Option.map_eq_some_iff.1 hv
  obtain ⟨conf, hconf, happ⟩ := h.login.homes id u hu
  exact ⟨u, conf, hu, hconf, happ⟩

/-- **`login.logout`**. -/
theorem moves_logout (h : Parts app s) (hv : s.view app id = v) {g : ℕ} (hg : v.online = some g) :
    ∃ s', logout s g id = (s', false) ∧ s'.wd = s.wd ∧ s'.agents = s.agents ∧
      Moves app s s' id { v with online := none } := by
  obtain ⟨u, conf, hu, hconf, happ⟩ := h.home (hv ▸ hg)
  obtain ⟨l, hl, hready, hrec⟩ := h.login.logout hu hconf happ
  refine ⟨{ s with login := l }, ?_, rfl, rfl, moves_login h hv hready hrec⟩
  unfold logout
  rw [hl]
  rfl

/-- **`gate.kick`** of a user who does not wait. -/
theorem moves_gateKick (h : Parts app s) (hv : s.view app id = v) {g : ℕ} {st : Gate.State}
    (hst : v.gate g = some st) (hne : st ≠ .wait) (hg : v.online = some g) :
    ∃ s', gateKick s g id = (s', false) ∧ s'.wd = s.wd ∧ s'.agents = s.agents ∧
      Moves app s s' id { v with gate := Function.update v.gate g none, online := none } := by
  have hstate : (s.gates g).stateOf id = some st := by
    rw [← hst, ← hv]
    rfl
  obtain ⟨d, hd, hfits, hview⟩ := Gate.kick_spec (h.gates g) hstate hne
  have hmoves := moves_gate h hv hfits hview
  obtain ⟨s', hs', hwd, hagents, hlogout⟩ := moves_logout hmoves.parts hmoves.self hg
  refine ⟨s', ?_, hwd, hagents, hmoves.trans hlogout⟩
  unfold gateKick
  rw [hd]
  exact hs'

theorem Parts.not_dead (h : Parts app s) (a : ℕ) : ¬ s.dead a = true := by
  unfold World.dead
  rw [h.alive]
  simp

/-- **`agent.kick`** of a user who has a session. -/
theorem moves_agentKick (h : Parts app s) (hv : s.view app id = v) {a : ℕ} {b : Bool}
    (ha : v.agent a = some b) :
    ∃ s', agentKick s a id = (s', false) ∧ s'.wd = s.wd ∧ s'.gates = s.gates ∧
      Moves app s s' id { v with agent := Function.update v.agent a none } := by
  have hseen : (s.agents a).seen id = some b := by
    rw [← ha, ← hv]
    rfl
  obtain ⟨u, hu, -⟩ := Agent.seen_eq_some hseen
  obtain ⟨hfits, hview⟩ := Agent.kick_spec (h.agents a) hu
  refine ⟨s.setAgent a (((s.agents a).kick id true).gone u).1, ?_, rfl, rfl,
    moves_agent h hv hfits hview⟩
  unfold agentKick
  rw [if_neg (h.not_dead a), hu]

/-- **`agent.assign`** of a user whom the agent does not know. -/
theorem moves_agentAssign (h : Parts app s) {c : Client} (hv : s.view app c.id = v) {a : ℕ}
    (ha : v.agent a = none) :
    ∃ s', agentAssign s a c = (s', {}) ∧ s'.wd = s.wd ∧
      Moves app s s' c.id { v with agent := Function.update v.agent a (some true) } := by
  have hseen : (s.agents a).seen c.id = none := by
    rw [← ha, ← hv]
    rfl
  have hnone : (s.agents a).users.lookup c.id = none := Option.map_eq_none_iff.1 hseen
  obtain ⟨hfits, hview⟩ := Agent.store_spec (h.agents a) c
  refine ⟨s.setAgent a ((s.agents a).store c), ?_, rfl, moves_agent h hv hfits hview⟩
  unfold agentAssign
  rw [if_neg (h.not_dead a)]
  have hassign : (s.agents a).assign c = (s.agents a, .avatar) := by
    unfold Agent.Data.assign
    rw [hnone]
  rw [hassign]

/-! ### The watchdog -/

theorem exists_record (hv : s.view app id = v) {x : Record} (hx : v.record = some x) :
    ∃ r, s.wd.users.lookup id = some r ∧ s.wd.recs r = x := by
  subst hv
  exact Watchdog.entry_eq_some hx

/-- Freeing the slot of the user closes no agent. -/
theorem freeAgent_of_open (hv : s.view app id = v) {x : Record} (hx : v.record = some x)
    (hopen : closes s id = false) : (s.wd.freeAgent x.agent).2 = none := by
  obtain ⟨r, hr, rfl⟩ := exists_record hv hx
  unfold closes at hopen
  rw [hr] at hopen
  simpa using hopen

/-- **The watchdog forgets a user** and frees his slot. -/
theorem moves_forget (h : Parts app s) (hv : s.view app id = v) {a : ℕ}
    (hfree : (s.wd.freeAgent a).2 = none) :
    Moves app s { s with wd := { (s.wd.freeAgent a).1 with
      users := (s.wd.freeAgent a).1.users.erase id } } id { v with record := none } := by
  have hclosed : (s.wd.freeAgent a).1.closed = [] := by
    have heq : (s.wd.freeAgent a).1.closed =
        s.wd.closed ++ ((s.wd.freeAgent a).2.map fun a => (a, s.wd.mapped a)).toList := rfl
    rw [heq, hfree, h.alive]
    rfl
  refine moves_wd h hv ((h.made.freeAgent a).erase id) ?_ hclosed fun id' => ?_
  · exact Watchdog.Data.Own.erase (w := (s.wd.freeAgent a).1) h.own id
  · exact Watchdog.entry_erase (s.wd.freeAgent a).1 id id'

theorem drive_succ (n : ℕ) (s : World) (w : Watchdog.Data) (pc : Watchdog.Pc) :
    drive (n + 1) s (.wait w pc) = drive n (serve { s with wd := w } pc).1
      (Watchdog.resume (serve { s with wd := w } pc).1.wd (serve { s with wd := w } pc).2 pc) := rfl

theorem drive_nil (n : ℕ) (s : World) (w : Watchdog.Data) :
    drive n s (.ret w .nil) = some ({ s with wd := w }, false) := by
  cases n <;> rfl

theorem kicked_eq {w : Watchdog.Data} {r : Watchdog.Ref} (try_ : Bool)
    (hfree : (w.freeAgent (w.recs r).agent).2 = none) :
    Watchdog.kicked w id r try_ =
      Watchdog.kickDrop (w.freeAgent (w.recs r).agent).1 id r try_ := by
  unfold Watchdog.kicked
  split
  · rename_i heq
    rw [heq] at hfree
    cases hfree
  · rename_i heq
    rw [heq]

/-- **`watchdog.kick`** and **`watchdog.try_kick`** up to the point where the user is forgotten. -/
theorem moves_kicked (h : Parts app s) (hv : s.view app id = v) {x : Record} {b : Bool}
    (hx : v.record = some x) (ha : v.agent x.agent = some b) (hopen : closes s id = false)
    (try_ : Bool) (n : ℕ) :
    ∃ s', drive (n + 1) s (Watchdog.kick s.wd id try_) =
        drive n s' (if try_ then .wait s'.wd (.gateKick id x.gate true) else .ret s'.wd .nil) ∧
      s'.gates = s.gates ∧ Moves app s s' id
        { v with agent := Function.update v.agent x.agent none, record := none } := by
  have hfree := freeAgent_of_open hv hx hopen
  obtain ⟨r, hr, hrec⟩ := exists_record hv hx
  obtain ⟨s₁, hkick, hwd, hgates, hmoves⟩ := moves_agentKick h hv ha
  have hforget := moves_forget hmoves.parts hmoves.self (hwd ▸ hfree)
  refine ⟨_, ?_, ?_, hmoves.trans hforget⟩
  · have hserve : serve { s with wd := s.wd } (.kickAgent id r try_) =
      (s₁, { raised := false }) := by
      change ((agentKick s (s.wd.recs r).agent id).1,
        ({ raised := (agentKick s (s.wd.recs r).agent id).2 } : Watchdog.Inp)) = _
      rw [hrec, hkick]
    have hwait : Watchdog.kick s.wd id try_ = .wait s.wd (.kickAgent id r try_) := by
      unfold Watchdog.kick
      rw [hr]
    have hresume : Watchdog.resume s₁.wd { raised := false } (.kickAgent id r try_) =
        Watchdog.kickDrop (s₁.wd.freeAgent x.agent).1 id r try_ := by
      have hfree' : (s₁.wd.freeAgent (s₁.wd.recs r).agent).2 = none := by
        rw [hwd, hrec]
        exact hfree
      have hrec' : (s₁.wd.recs r).agent = x.agent := by rw [hwd, hrec]
      change Watchdog.kicked s₁.wd id r try_ = _
      rw [kicked_eq try_ hfree', hrec']
    have hgate : ((s₁.wd.freeAgent x.agent).1.recs r).gate = x.gate := by
      change (s₁.wd.recs r).gate = x.gate
      rw [hwd, hrec]
    rw [hwait, drive_succ, hserve]
    dsimp only
    rw [hresume]
    unfold Watchdog.kickDrop
    dsimp only
    rw [hgate]
    cases try_ <;> cases n <;> rfl
  · exact hgates

/-- **`watchdog.kick`** of a user who has a session. -/
theorem moves_kick (h : Parts app s) (hv : s.view app id = v) {x : Record} {b : Bool}
    (hx : v.record = some x) (ha : v.agent x.agent = some b) (hopen : closes s id = false) :
    ∃ s', drive 3 s (Watchdog.kick s.wd id false) = some (s', false) ∧ s'.gates = s.gates ∧
      Moves app s s' id
      { v with agent := Function.update v.agent x.agent none, record := none } := by
  obtain ⟨s', hdrive, hgates, hmoves⟩ := moves_kicked h hv hx ha hopen false 2
  refine ⟨s', ?_, hgates, hmoves⟩
  rw [hdrive]
  exact drive_nil 2 s' s'.wd

/-- **`watchdog.try_kick`** of a user who has a session. -/
theorem moves_tryKick (h : Parts app s) (hv : s.view app id = v) {x : Record} {b : Bool}
    {st : Gate.State} (hx : v.record = some x) (ha : v.agent x.agent = some b)
    (hopen : closes s id = false) (hst : v.gate x.gate = some st) (hne : st ≠ .wait)
    (hg : v.online = some x.gate) :
    ∃ s', drive 3 s (Watchdog.kick s.wd id true) = some (s', false) ∧
      Moves app s s' id ⟨Function.update v.agent x.agent none, none,
        Function.update v.gate x.gate none, none⟩ := by
  obtain ⟨s₁, hdrive, -, hmoves⟩ := moves_kicked h hv hx ha hopen true 2
  obtain ⟨s₂, hkick, -, -, hmoves'⟩ := moves_gateKick hmoves.parts hmoves.self hst hne hg
  refine ⟨s₂, ?_, hmoves.trans hmoves'⟩
  have hserve : serve { s₁ with wd := s₁.wd } (.gateKick id x.gate true) =
      (s₂, { raised := false }) := by
    change ((gateKick s₁ x.gate id).1, ({ raised := (gateKick s₁ x.gate id).2 } : Watchdog.Inp)) = _
    rw [hkick]
  rw [hdrive, if_pos rfl, drive_succ, hserve]
  exact drive_nil 1 s₂ s₂.wd

/-- A user whom the watchdog does not know is not kicked. -/
theorem drive_kick_none (hnone : s.wd.entry id = none) (try_ : Bool) :
    drive 3 s (Watchdog.kick s.wd id try_) = some (s, false) := by
  have heq : Watchdog.kick s.wd id try_ = .ret s.wd .nil := by
    unfold Watchdog.kick
    rw [Watchdog.lookup_of_entry hnone]
  rw [heq]
  exact drive_nil 3 s s.wd

/-- **`watchdog.assign`** from the point where the user is entered. -/
theorem moves_entered (h : Parts app s) {c : Client} (hv : s.view app c.id = v) {a n : ℕ}
    (ha : v.agent a = none) {w : Watchdog.Data} (hm : w.Made) (ho : w.Own) (hc : w.closed = [])
    (hentry : ∀ id, w.entry id = s.wd.entry id) :
    ∃ s', drive (n + 1) s (.wait (w.enter c a) (.agentAssign c w.nrec)) = some (s', false) ∧
      Moves app s s' c.id { v with
        agent := Function.update v.agent a (some true)
        record := some ⟨a, c.gate, c.secret, false⟩ } := by
  have hmoves : Moves app s { s with wd := w.enter c a } c.id
      { v with record := some ⟨a, c.gate, c.secret, false⟩ } := by
    refine moves_wd h hv (hm.enter c a) (ho.enter hm c a) hc fun id' => ?_
    rw [Watchdog.entry_enter hm, hentry]
  obtain ⟨s', hassign, hwd, hmoves'⟩ := moves_agentAssign hmoves.parts hmoves.self ha
  refine ⟨s', ?_, hmoves.trans hmoves'⟩
  have hagent : ((w.enter c a).recs w.nrec).agent = a := by simp [Watchdog.Data.enter]
  have hserve : serve { s with wd := w.enter c a } (.agentAssign c w.nrec) = (s', {}) := by
    change agentAssign { s with wd := w.enter c a } ((w.enter c a).recs w.nrec).agent c = _
    rw [hagent, hassign]
  have hresume : Watchdog.resume s'.wd {} (.agentAssign c w.nrec) = .ret s'.wd .nil := by
    have hlook : s'.wd.users.lookup c.id = some w.nrec := by
      rw [hwd]
      exact AList.lookup_insert _
    unfold Watchdog.resume
    simp only [hlook]
    rfl
  rw [drive_succ, hserve]
  dsimp only
  rw [hresume, drive_nil]

/-- **`watchdog.assign`** of a user whom it does not know. -/
theorem moves_assign (h : Parts app s) {c : Client} (hv : s.view app c.id = v)
    (hx : v.record = none) (ha : ∀ a, v.agent a = none) :
    ∃ s' a, drive 3 s (Watchdog.assign s.wd c) = some (s', false) ∧
      Moves app s s' c.id { v with
        agent := Function.update v.agent a (some true)
        record := some ⟨a, c.gate, c.secret, false⟩ } := by
  have hnone : s.wd.users.lookup c.id = none := by
    refine Watchdog.lookup_of_entry ?_
    rw [← hx, ← hv]
    rfl
  unfold Watchdog.assign
  rw [hnone]
  dsimp only
  split
  · rename_i a agents hslot
    obtain ⟨s', hdrive, hmoves⟩ := moves_entered (w := { s.wd with agents := agents }) (n := 2) h hv
      (ha a) h.made h.own h.alive fun _ => rfl
    exact ⟨s', a, hdrive, hmoves⟩
  · -- a new agent is started
    obtain ⟨s', hdrive, hmoves⟩ := moves_entered (w := s.wd.startAgent.1) (n := 1) h hv
      (ha s.wd.startAgent.2) h.made h.own h.alive fun _ => rfl
    refine ⟨s', s.wd.startAgent.2, ?_, hmoves⟩
    rw [← hdrive, drive_succ]
    have hresume : Watchdog.resume s.wd {} (.newAgent c) =
        .wait (s.wd.startAgent.1.enter c s.wd.startAgent.2)
          (.agentAssign c s.wd.startAgent.1.nrec) := by
      have hnone' : s.wd.startAgent.1.users.lookup c.id = none := hnone
      change Watchdog.assignStarted s.wd c = _
      unfold Watchdog.assignStarted
      dsimp only
      rw [hnone']
    exact congrArg (drive 2 s) hresume

/-- **`watchdog.afk`** of a user who has a session. -/
theorem moves_afk (h : Parts app s) (hv : s.view app id = v) {x : Record} {st : Gate.State}
    (hx : v.record = some x) (hafk : x.afk = false) (hst : v.gate x.gate = some st)
    (hne : st ≠ .wait) (hg : v.online = some x.gate) :
    ∃ s', drive 3 s (Watchdog.afk s.wd id) = some (s', false) ∧ s'.agents = s.agents ∧
      s'.wd.agents = s.wd.agents ∧
      Moves app s s' id { v with
        record := some { x with afk := true }
        gate := Function.update v.gate x.gate none
        online := none } := by
  obtain ⟨r, hr, hrec⟩ := exists_record hv hx
  have hmoves : Moves app s { s with wd := s.wd.setRecord r fun y => { y with afk := true } } id
      { v with record := some { x with afk := true } } := by
    refine moves_wd (w := s.wd.setRecord r fun y => { y with afk := true }) h hv h.made h.own
      h.alive fun id' => ?_
    rw [Watchdog.entry_setRecord h.own hr, hrec]
  obtain ⟨s', hkick, hwd, hagents, hmoves'⟩ := moves_gateKick hmoves.parts hmoves.self hst hne hg
  refine ⟨s', ?_, hagents, by rw [hwd]; rfl, hmoves.trans hmoves'⟩
  have hwait : Watchdog.afk s.wd id =
      .wait (s.wd.setRecord r fun y => { y with afk := true }) (.gateKick id x.gate false) := by
    unfold Watchdog.afk
    rw [hr]
    dsimp only
    rw [hrec, hafk]
    rfl
  have hserve : serve { s with wd := s.wd.setRecord r fun y => { y with afk := true } }
      (.gateKick id x.gate false) = (s', { raised := false }) := by
    change
      ((gateKick { s with wd := s.wd.setRecord r fun y => { y with afk := true } } x.gate id).1,
      ({ raised := (gateKick { s with wd := s.wd.setRecord r fun y => { y with afk := true } }
        x.gate id).2 } : Watchdog.Inp)) = _
    rw [hkick]
  rw [hwait, drive_succ, hserve]
  exact drive_nil 2 s' s'.wd

/-- **`watchdog.exit`** of a user who is away. -/
theorem moves_exit (h : Parts app s) (hv : s.view app id = v) {x : Record} (hx : v.record = some x)
    (hafk : x.afk = true) (hfree : (s.wd.freeAgent x.agent).2 = none) :
    ∃ s', drive 3 s (Watchdog.exit s.wd id) = some (s', false) ∧
      Moves app s s' id { v with record := none } := by
  obtain ⟨r, hr, hrec⟩ := exists_record hv hx
  refine ⟨_, ?_, moves_forget h hv hfree⟩
  have hret : Watchdog.exit s.wd id = .ret { (s.wd.freeAgent x.agent).1 with
      users := (s.wd.freeAgent x.agent).1.users.erase id } .nil := by
    have hdrop : Watchdog.exit s.wd id = Watchdog.exitDrop (s.wd.freeAgent x.agent).1 id r := by
      unfold Watchdog.exit
      rw [hr]
      dsimp only
      rw [hrec]
      split
      · rename_i heq
        rw [heq] at hfree
        cases hfree
      · rename_i heq
        rw [heq]
    have haway : ((s.wd.freeAgent x.agent).1.recs r).afk = true := by
      change (s.wd.recs r).afk = true
      rw [hrec]
      exact hafk
    rw [hdrop]
    unfold Watchdog.exitDrop
    dsimp only
    rw [if_pos haway]
  rw [hret]
  exact drive_nil 3 s _

/-! ### The events -/

theorem update_only {α : Type} (k : ℕ) (x : α) (y : Option α) :
    Function.update (only k x) k y = Function.update (fun _ => none) k y :=
  Function.update_idem _ _ _

theorem update_none {α : Type} (k : ℕ) :
    Function.update (fun _ => none : ℕ → Option α) k none = fun _ => none :=
  Function.update_eq_self k _

theorem only_self {α : Type} (k : ℕ) (x : α) : only k x k = some x := Function.update_self _ _ _

theorem eq_of_only {α : Type} {k k' : ℕ} {x y : α} (h : only k x k' = some y) : k = k' ∧ x = y := by
  by_cases hk : k' = k
  · subst hk
    exact ⟨rfl, Option.some_inj.1 ((only_self _ x).symm.trans h)⟩
  · rw [only, Function.update_of_ne hk] at h
    cases h

/-- **The socket of a user is gone** and he does not come back. -/
theorem moves_disconnect (h : Parts app s) {g a secret : ℕ}
    (hv : s.view app id = (Status.session g a secret).view) (hopen : closes s id = false) :
    ∃ s', disconnect s a id = some s' ∧ Moves app s s' id Status.out.view := by
  have hseen : (s.agents a).seen id = some true := by
    have := congrArg (fun v => v.agent a) hv
    exact this.trans (only_self a true)
  obtain ⟨u, hu, hfd⟩ := Agent.seen_eq_some hseen
  have hfree := freeAgent_of_open hv rfl hopen
  -- the agent notices
  obtain ⟨hgone, hstays, hfits, hview⟩ := Agent.gone_spec (h.agents a) hu
  have hm₁ := moves_agent h hv hfits hview
  -- the watchdog and the gate are told
  obtain ⟨s₂, hafk, hagents, hwd, hm₂⟩ := moves_afk hm₁.parts hm₁.self rfl rfl (only_self g _)
    (by decide) rfl
  -- the time is up
  have hagent : s₂.agents a = ((s.agents a).gone u).1 := by
    rw [hagents]
    exact Function.update_self _ _ _
  have hlook : (s₂.agents a).users.lookup id = some u := by
    rw [hagent]
    exact hstays
  obtain ⟨hexp, hfits', hview'⟩ := Agent.expire_spec (hm₂.parts.agents a) hlook
  have hm₃ := moves_agent hm₂.parts hm₂.self hfits' hview'
  have hfree' : (s₂.wd.freeAgent a).2 = none := by
    change (Watchdog.freeIn s₂.wd.agents.length a s₂.wd.agents).2 = none
    rw [hwd]
    exact hfree
  obtain ⟨s₄, hexit, hm₄⟩ := moves_exit hm₃.parts hm₃.self rfl rfl hfree'
  have hm := ((hm₁.trans hm₂).trans hm₃).trans hm₄
  have hview : View.mk (Function.update (Function.update (only a true) a (some false)) a none) none
      (Function.update (only g .ok) g none) none = Status.out.view := by
    rw [update_only, Function.update_idem, update_none, update_only, update_none]
    rfl
  refine ⟨s₄, ?_, hview ▸ hm⟩
  have hid : (((s.agents a).gone u).1.objs u).id = id := (hfits id u hstays).2.1
  have hexpires : (s₂.agents a).expires u = true := by
    have haway : (s₂.agents a).seen id = some false := by
      have := congrArg (fun v => v.agent a) hm₂.self
      exact this.trans (Function.update_self _ _ _)
    obtain ⟨u', hu', hfd'⟩ := Agent.seen_eq_some haway
    obtain rfl : u = u' := Option.some_inj.1 (hlook.symm.trans hu')
    rw [hexp, hfd']
    rfl
  unfold disconnect
  rw [hu]
  dsimp only
  rw [hgone]
  dsimp only
  rw [hid, hafk]
  dsimp only [Option.bind_some]
  rw [if_neg (by decide), if_pos hexpires]
  exact congrArg (Option.map Prod.fst) hexit

/-- **`watchdog.try_kick`** ends a session. -/
theorem moves_endSession (h : Parts app s) {g a secret : ℕ}
    (hv : s.view app id = (Status.session g a secret).view) (hopen : closes s id = false) :
    ∃ s', drive 3 s (Watchdog.kick s.wd id true) = some (s', false) ∧
      Moves app s s' id Status.out.view := by
  obtain ⟨s', hkick, hm⟩ := moves_tryKick h hv rfl (only_self a true) hopen
    (only_self g Gate.State.ok) (by decide) rfl
  have hview : View.mk (Function.update (only a true) a none) none
      (Function.update (only g Gate.State.ok) g none) none = Status.out.view := by
    rw [update_only, update_none, update_only, update_none]
    rfl
  exact ⟨s', hkick, hview ▸ hm⟩

/-- A login for which there is no gate. -/
theorem moves_busy (h : Parts app s) (hv : s.view app id = v) {platform : String}
    (hbusy : (Login.assignGate s.login app platform).2 = none) (secret : ℕ) :
    Moves app s (loginEnd s secret (Login.loginAssign s.login app platform id)) id v := by
  obtain ⟨l₁, hready, hsame, hnone | ⟨g, -, hsome⟩⟩ := h.login.assignGate platform
  · unfold Login.loginAssign
    rw [hnone]
    have hm := moves_login (x := s.login.record app id) h hv hready fun id' => by
      rw [hsame]
      split
      · rename_i hid
        rw [hid]
      · rfl
    have hsame' : { v with online := (s.login.record app id).map Login.OnlineUser.gate } = v := by
      subst hv
      rfl
    exact hsame' ▸ hm
  · rw [hsome] at hbusy
    cases hbusy

/-- **A gate is assigned**, if there is one, and the user is announced to it. -/
theorem moves_loginAssign (h : Parts app s) (hv : s.view app id = Status.out.view)
    (platform : String)
    (secret : ℕ) :
    ∃ st : Status, Moves app s (loginEnd s secret (Login.loginAssign s.login app platform id)) id
      st.view := by
  have hrec : s.login.record app id = none := by
    have honline := congrArg View.online hv
    exact Option.map_eq_none_iff.1 honline
  obtain ⟨l₁, hready, hsame, hnone | ⟨g, hg, hsome⟩⟩ := h.login.assignGate platform
  · exact ⟨.out, moves_busy h hv (by rw [hnone]) secret⟩
  · refine ⟨.waiting g, ?_⟩
    unfold Login.loginAssign
    rw [hsome]
    obtain ⟨hready', hrec'⟩ := hready.online ((hsame id).trans hrec) hg
    have hm₁ := moves_login h hv hready' fun id' => by rw [hrec', hsame]
    have hfree : (s.gates g).users.lookup id = none := by
      have hgate := congrArg (fun v => v.gate g) hv
      exact Option.map_eq_none_iff.1 hgate
    have hm₂ := moves_gate hm₁.parts hm₁.self ((h.gates g).login hfree secret)
      (Gate.stateOf_login (h.gates g) id secret)
    exact hm₁.trans hm₂

theorem login_cases (l : Login.Server) (app platform : String) (version : Option ℕ) :
    (∃ r, Login.login l app platform version = .ret l r) ∨
      Login.login l app platform version = .wait l (.handshake app platform) := by
  unfold Login.login
  split
  · exact Or.inl ⟨_, rfl⟩
  · split
    · exact Or.inl ⟨_, rfl⟩
    · split
      · exact Or.inl ⟨_, rfl⟩
      · split
        · exact Or.inr rfl
        · split
          · exact Or.inl ⟨_, rfl⟩
          · exact Or.inr rfl

theorem loginAssign_ne_tryKick (l l' : Login.Server) (app app' platform platform' : String)
    (id id' : ℕ) : Login.loginAssign l app platform id ≠
    .wait l' (.tryKick app' platform' id') := by
  unfold Login.loginAssign
  split <;> simp

/-- **`cli:login`**. -/
theorem Good.login (h : Good app s) {platform : String} {version : Option ℕ} {auth : Login.Auth}
    {secret : ℕ} (ho : orderly app s (.login platform version auth secret) = true) :
    ∃ s', login app s platform version auth secret = some s' ∧ Good app s' := by
  unfold Sessions.login
  rcases login_cases s.login app platform version with ⟨r, hret⟩ | hwait
  · rw [hret]
    exact ⟨s, rfl, h⟩
  · rw [hwait]
    dsimp only
    cases auth with
    | raised => exact ⟨s, rfl, h⟩
    | refused => exact ⟨s, rfl, h⟩
    | user id forbidden =>
        cases forbidden with
        | true => exact ⟨s, rfl, h⟩
        | false =>
            obtain ⟨st, hst⟩ := h.status id
            cases hrec : s.login.record app id with
            | none =>
                -- he is not online
                have hout : s.view app id = Status.out.view := by
                  have honline := congrArg View.online hst
                  cases st with
                  | out => exact hst
                  | waiting g =>
                      rw [World.view, hrec] at honline
                      cases honline
                  | session g a sec =>
                      rw [World.view, hrec] at honline
                      cases honline
                obtain ⟨st', hm⟩ := moves_loginAssign h.parts hout platform secret
                refine ⟨_, ?_, h.moves hm⟩
                have hresume : Login.resume s.login { auth := .user id false }
                    (.handshake app platform) = Login.loginAssign s.login app platform id := by
                  simp only [Login.resume, hrec]
                  rfl
                rw [hresume]
                split
                · rename_i hkick
                  exact absurd hkick (loginAssign_ne_tryKick _ _ _ _ _ _ _ _)
                · rfl
            | some u =>
                -- he is kicked first, if he has a session
                have hresume : Login.resume s.login { auth := .user id false }
                    (.handshake app platform) = .wait s.login (.tryKick app platform id) := by
                  simp only [Login.resume, hrec]
                  rfl
                have honline : (s.view app id).online = some u.gate := by
                  rw [World.view, hrec]
                  rfl
                simp only [orderly, hwait, hrec, Option.isNone_some, Bool.false_or] at ho
                rw [hresume]
                dsimp only
                cases st with
                | out =>
                    rw [hst] at honline
                    cases honline
                | waiting g =>
                    have hentry : s.wd.entry id = none := congrArg View.record hst
                    rw [Watchdog.lookup_of_entry hentry] at ho
                    have hbusy : (Login.assignGate s.login app platform).2 = none := by
                      simpa using ho
                    have hm := moves_busy h.parts hst hbusy secret
                    refine ⟨_, ?_, h.moves hm⟩
                    have hkick := drive_kick_none hentry true
                    exact congrArg (Option.map _) hkick
                | session g a sec =>
                    obtain ⟨r, hr, -⟩ := exists_record hst rfl
                    rw [hr] at ho
                    have hopen : closes s id = false := by simpa using ho
                    obtain ⟨s₁, hkick, hm₁⟩ := moves_endSession h.parts hst hopen
                    obtain ⟨st', hm₂⟩ := moves_loginAssign hm₁.parts hm₁.self platform secret
                    refine ⟨_, ?_, h.moves (hm₁.trans hm₂)⟩
                    exact congrArg (Option.map _) hkick

/-- **The gate lets a user in** whom neither the watchdog nor an agent knows. -/
theorem moves_welcome (h : Parts app s) {c : Client} {st : Gate.State} {u : Gate.Ref}
    (hv : s.view app c.id = ⟨fun _ => none, none, only c.gate st, some c.gate⟩)
    (hu : (s.gates c.gate).users.lookup c.id = some u) (ht : u ∉ (s.gates c.gate).timers)
    (dropped : Bool) :
    ∃ s' st', welcome s c.gate u c dropped = some s' ∧ Moves app s s' c.id (Status.view st') := by
  have hm₁ : Moves app s (s.setGate c.gate ((s.gates c.gate).setState u .ok)) c.id
      ⟨fun _ => none, none, only c.gate .ok, some c.gate⟩ := by
    have hm := moves_gate h hv ((h.gates c.gate).setState ht .ok)
      (Gate.stateOf_setState (h.gates c.gate) hu .ok)
    dsimp only at hm
    rw [update_only] at hm
    exact hm
  unfold welcome
  cases dropped with
  | true =>
      obtain ⟨s', hkick, -, -, hm₂⟩ := moves_gateKick hm₁.parts hm₁.self
        (only_self c.gate Gate.State.ok) (by decide) rfl
      have hview : View.mk (fun _ => none) none
        (Function.update (only c.gate Gate.State.ok) c.gate none)
          none = Status.out.view := by
        rw [update_only, update_none]
        rfl
      refine ⟨s', .out, ?_, hm₁.trans (hview ▸ hm₂)⟩
      dsimp only
      rw [if_pos rfl, hkick]
  | false =>
      obtain ⟨s', a, hassign, hm₂⟩ := moves_assign hm₁.parts hm₁.self rfl fun _ => rfl
      refine ⟨s', .session c.gate a c.secret, ?_, hm₁.trans hm₂⟩
      dsimp only
      rw [if_neg (by decide), hassign]
      rfl

/-- A timer of a gate is removed, which nobody sees. -/
theorem moves_removeTimer (h : Parts app s) (hv : s.view app id = v) (g : ℕ) (u : Gate.Ref) :
    Moves app s (s.setGate g ((s.gates g).removeTimer u)) id v := by
  have hm := moves_gate h hv ((h.gates g).removeTimer u) (x := v.gate g) fun id' => by
    change (s.gates g).stateOf id' = _
    split
    · rename_i hid
      subst hv
      rw [hid]
      rfl
    · rfl
  rw [Function.update_eq_self] at hm
  exact hm

/-- **`cli:signin`**. -/
theorem Good.signin (h : Good app s) {c : Client} {dropped : Bool}
    (ho : orderly app s (.signin c dropped) = true) :
    ∃ s', signin s c dropped = some s' ∧ Good app s' := by
  unfold Sessions.signin
  split
  · exact ⟨s, rfl, h⟩
  · have hfits := h.parts.gates c.gate
    obtain ⟨st, hst⟩ := h.status c.id
    dsimp only
    rcases Gate.signin_cases hfits.cache c.id c.secret with ⟨-, hsign⟩ | ⟨u, hu, hcases⟩
    · rw [hsign]
      refine ⟨s, ?_, h⟩
      unfold World.setGate
      dsimp only
      rw [Function.update_eq_self]
    · have hm₁ := moves_removeTimer h.parts hst c.gate u
      have hstate : ((s.gates c.gate).stateOf c.id) = some ((s.gates c.gate).objs u).state := by
        unfold Gate.Data.stateOf
        rw [hu]
        rfl
      have hview : st.view.gate c.gate = some ((s.gates c.gate).objs u).state := by
        rw [← hst, ← hstate]
        rfl
      rcases hcases with ⟨-, hsign⟩ | ⟨hsec, hsign⟩
      · rw [hsign]
        exact ⟨_, rfl, h.moves hm₁⟩
      · rw [hsign]
        dsimp only
        have hgate : (s.setGate c.gate ((s.gates c.gate).removeTimer u)).gates c.gate =
            (s.gates c.gate).removeTimer u := Function.update_self _ _ _
        have hlook : ((s.setGate c.gate ((s.gates c.gate).removeTimer u)).gates c.gate).users.lookup
            c.id = some u := by
          rw [hgate]
          exact hu
        have ht :
          u ∉ ((s.setGate c.gate ((s.gates c.gate).removeTimer u)).gates c.gate).timers := by
          rw [hgate]
          simp [Gate.Data.removeTimer]
        have hobj : ((s.gates c.gate).removeTimer u).objs u = (s.gates c.gate).objs u := rfl
        rw [hobj]
        cases st with
        | out => cases hview
        | waiting g =>
            obtain ⟨rfl, hs⟩ := eq_of_only hview
            rw [← hs]
            obtain ⟨s', st', hwel, hm₂⟩ := moves_welcome hm₁.parts hm₁.self hlook ht dropped
            exact ⟨s', hwel, h.moves (hm₁.trans hm₂)⟩
        | session g a sec =>
            obtain ⟨rfl, hs⟩ := eq_of_only hview
            have hopen : closes s c.id = false := by
              have hright : ((s.gates c.gate).objs u).state = .ok ∧
                  ((s.gates c.gate).objs u).secret = c.secret := ⟨hs.symm, hsec⟩
              simp only [orderly, hu, hright, and_self, decide_true, Bool.true_and] at ho
              simpa using ho
            rw [← hs]
            dsimp only
            -- the old session ends
            obtain ⟨s₂, hkick, hgates, hm₂⟩ :=
              moves_kick hm₁.parts hm₁.self rfl (only_self a true) hopen
            have hv₂ : s₂.view app c.id = ⟨fun _ => none, none, only c.gate .ok, some c.gate⟩ := by
              rw [hm₂.self]
              change View.mk (Function.update (only a true) a none) none (only c.gate .ok)
                (some c.gate) = _
              rw [update_only, update_none]
            rw [← hgates] at hlook ht
            obtain ⟨s', st', hwel, hm₃⟩ := moves_welcome hm₂.parts hv₂ hlook ht dropped
            refine ⟨s', ?_, h.moves ((hm₁.trans hm₂).trans hm₃)⟩
            rw [hkick]
            dsimp only [Option.bind_some]
            rw [if_neg (by decide)]
            exact hwel

/-- A timer of a gate runs. -/
theorem Good.timeout (h : Good app s) (g : ℕ) (u : Gate.Ref) : Good app (timeout s g u) := by
  unfold Sessions.timeout
  split
  swap
  · exact h
  rename_i hmem
  obtain ⟨d, id, heq, hwait, hfits, hview⟩ := Gate.timeout_spec (h.parts.gates g) hmem
  obtain ⟨st, hst⟩ := h.status id
  have hgate : st.view.gate g = some .wait := by
    rw [← hst]
    exact hwait
  rw [heq]
  cases st with
  | out => cases hgate
  | session g' a sec =>
      obtain ⟨-, hs⟩ := eq_of_only hgate
      cases hs
  | waiting g' =>
      obtain ⟨rfl, -⟩ := eq_of_only hgate
      have hm₁ := moves_gate h.parts hst hfits hview
      obtain ⟨s', hlogout, -, -, hm₂⟩ := moves_logout hm₁.parts hm₁.self rfl
      have hout : View.mk (fun _ => none) none
        (Function.update (only g' Gate.State.wait) g' none) none =
          Status.out.view := by
        rw [update_only, update_none]
        rfl
      dsimp only
      rw [hlogout]
      have hm : Moves app s s' id Status.out.view := hm₁.trans (hout ▸ hm₂)
      exact h.moves hm

/-- A user whom an agent knows has a session on it. -/
theorem Good.session (h : Good app s) {a : ℕ} (ha : ((s.agents a).users.lookup id).isSome = true) :
    ∃ g secret, s.view app id = (Status.session g a secret).view := by
  obtain ⟨u, hu⟩ := Option.isSome_iff_exists.1 ha
  obtain ⟨st, hst⟩ := h.status id
  have hagent : st.view.agent a = some ((s.agents a).objs u).fd.isSome := by
    rw [← hst]
    change (s.agents a).seen id = _
    unfold Agent.Data.seen
    rw [hu]
    rfl
  cases st with
  | out => cases hagent
  | waiting g => cases hagent
  | session g a' secret =>
      obtain ⟨rfl, -⟩ := eq_of_only hagent
      exact ⟨g, secret, hst⟩

/-- **An orderly event is processed completely** and keeps the invariant. -/
theorem Good.process (h : Good app s) {e : Ev} (ho : orderly app s e = true) :
    ∃ s', process app s e = some s' ∧ Good app s' := by
  cases e with
  | login platform version auth secret => exact h.login ho
  | signin c dropped => exact h.signin ho
  | disconnect a id =>
      cases hu : (s.agents a).users.lookup id with
      | none =>
          refine ⟨s, ?_, h⟩
          unfold Sessions.process disconnect
          dsimp only
          rw [hu]
      | some u =>
          obtain ⟨g, secret, hv⟩ := h.session (by rw [hu]; rfl)
          simp only [orderly, hu, Option.isNone_some, Bool.false_or] at ho
          obtain ⟨s', hs', hm⟩ := moves_disconnect h.parts hv (by simpa using ho)
          exact ⟨s', hs', h.moves hm⟩
  | signout a id =>
      refine ⟨s, ?_, h⟩
      have hnone : (s.agents a).users.lookup id = none := Option.isNone_iff_eq_none.1 ho
      unfold Sessions.process agentKick
      dsimp only
      rw [if_neg (h.parts.not_dead a), hnone]
  | kick id =>
      have hnone : s.wd.users.lookup id = none := Option.isNone_iff_eq_none.1 ho
      have hentry : s.wd.entry id = none := by
        unfold Watchdog.Data.entry
        rw [hnone]
        rfl
      exact ⟨s, congrArg (Option.map Prod.fst) (drive_kick_none hentry false), h⟩
  | tryKick id =>
      obtain ⟨st, hst⟩ := h.status id
      have hopen : closes s id = false := by simpa [orderly] using ho
      cases st with
      | out =>
          have hentry : s.wd.entry id = none := congrArg View.record hst
          exact ⟨s, congrArg (Option.map Prod.fst) (drive_kick_none hentry true), h⟩
      | waiting g =>
          have hentry : s.wd.entry id = none := congrArg View.record hst
          exact ⟨s, congrArg (Option.map Prod.fst) (drive_kick_none hentry true), h⟩
      | session g a secret =>
          obtain ⟨s', hkick, hm⟩ := moves_endSession h.parts hst hopen
          exact ⟨s', congrArg (Option.map Prod.fst) hkick, h.moves hm⟩
  | timeout g u => exact ⟨_, rfl, h.timeout g u⟩

/-! ### Runs -/

/-- A user without a session for whom no gate waits is out. -/
theorem Good.out (h : Good app s) (hs : ¬ s.session id) (hp : ¬ s.pending id) :
    s.view app id = Status.out.view := by
  obtain ⟨st, hst⟩ := h.status id
  cases st with
  | out => exact hst
  | waiting g =>
      refine absurd ⟨g, ?_⟩ hp
      have hgate := congrArg (fun v => v.gate g) hst
      exact hgate.trans (only_self g _)
  | session g a secret =>
      refine absurd ⟨a, ?_⟩ hs
      have hagent := congrArg (fun v => v.agent a) hst
      obtain ⟨u, hu, -⟩ := Agent.seen_eq_some (hagent.trans (only_self a true))
      rw [hu]
      rfl

/-- **The invariant is what is to be shown.** -/
theorem Good.agreed (h : Good app s) : Agreed app s where
  agent := by
    intro a id
    rw [Watchdog.agentOf_eq_entry]
    constructor
    · intro ha
      obtain ⟨g, secret, hv⟩ := h.session ha
      have hentry : s.wd.entry id = some ⟨a, g, secret, false⟩ := congrArg View.record hv
      rw [hentry]
      rfl
    · intro ha
      obtain ⟨x, hx, rfl⟩ := Option.map_eq_some_iff.1 ha
      obtain ⟨st, hst⟩ := h.status id
      have hrec : st.view.record = some x := by
        rw [← hst]
        exact hx
      cases st with
      | out => cases hrec
      | waiting g => cases hrec
      | session g a secret =>
          obtain rfl := Option.some_inj.1 hrec
          have hagent := congrArg (fun v => v.agent a) hst
          obtain ⟨u, hu, -⟩ := Agent.seen_eq_some (hagent.trans (only_self a true))
          dsimp only
          rw [hu]
          rfl
  gate := by
    intro id hs hp g
    have hgate := congrArg (fun v => v.gate g) (h.out hs hp)
    exact Option.map_eq_none_iff.1 hgate
  online := by
    intro id hs hp
    have honline := congrArg View.online (h.out hs hp)
    exact Option.map_eq_none_iff.1 honline
  slots := h.parts.login.accounted

/-- The gates that a counter of the app goes round belong to the app, as `server.register` makes
it. -/
def Placed (app : String) (l : Login.Server) : Prop :=
  ∀ platform c, l.gateCounter.lookup (app ++ "." ++ platform) = some c →
    ∀ g ∈ c.gates, ∀ conf, l.gates.lookup g = some conf → conf.app = app

theorem good_opened {l : Login.Server} (hl : Login.Registered l)
    (happ : (l.apps.lookup app).isSome = true) (hplaced : Placed app l) (load : ℤ) :
    Good app (opened l load) := by
  have hrec : ∀ id, l.record app id = none := by
    intro id
    obtain ⟨a, ha⟩ := Option.isSome_iff_exists.1 happ
    have hempty := hl.online a (mem_vals.2 ⟨app, ha⟩)
    unfold Login.Server.record
    rw [ha, Option.bind_some, hempty]
    rfl
  refine ⟨⟨?_, ?_, rfl, fun _ => Gate.fits_empty, fun _ => Agent.fits_empty, ?_⟩,
    fun id => ⟨.out, ?_⟩⟩
  · intro id r hr
    cases hr
  · intro id id' r hr
    cases hr
  · refine ⟨(Login.loginInv_registered hl).accounted, hl.hosted, happ, hplaced, fun id u hu => ?_⟩
    have hu : l.record app id = some u := hu
    rw [hrec] at hu
    cases hu
  · have honline : (l.record app id).map Login.OnlineUser.gate = none := by
      rw [hrec]
      rfl
    change View.mk (fun _ => none) none (fun _ => none) ((l.record app id).map _) = _
    rw [honline]
    rfl

/-- **The services agree after every event of an orderly run**, and every event of it is
completed. -/
theorem agreed_of_orderly {l : Login.Server} (hl : Login.Registered l)
    (happ : (l.apps.lookup app).isSome = true) (hplaced : Placed app l) {load : ℤ} {es : List Ev}
    (ho : orderlyRun app (opened l load) es = true) :
    ∃ s, run app (opened l load) es = some s ∧ Agreed app s := by
  have hrun : ∀ (es : List Ev) (s : World), Good app s → orderlyRun app s es = true →
      ∃ s', run app s es = some s' ∧ Good app s' := by
    intro es
    induction es with
    | nil => exact fun s h _ => ⟨s, rfl, h⟩
    | cons e es ih =>
        intro s h ho
        obtain ⟨hhead, htail⟩ := Bool.and_eq_true_iff.1 ho
        obtain ⟨s₁, hs₁, h₁⟩ := h.process hhead
        rw [hs₁, Option.all_some] at htail
        obtain ⟨s', hs', h'⟩ := ih s₁ h₁ htail
        refine ⟨s', ?_, h'⟩
        rw [run, hs₁]
        exact hs'
  obtain ⟨s, hs, h⟩ := hrun es _ (good_opened hl happ hplaced load) ho
  exact ⟨s, hs, h.agreed⟩

theorem placed_oneGate : Placed "fish" Login.oneGate := by
  intro platform c _ g _ conf hconf
  rw [Login.lookup_oneGate hconf]

/-- Two users sign in; one signs in again, logs in again and is forgotten, the other loses his
socket. -/
theorem agreed_twoUsers :
    ∃ s, run "fish" (opened Login.oneGate 64)
        [.login "ios" none (.user 1 false) 11, .signin ⟨1, 7, 11, 3⟩ false,
          .login "ios" none (.user 2 false) 12, .signin ⟨2, 7, 12, 4⟩ false,
          .signin ⟨1, 7, 11, 5⟩ false, .login "ios" none (.user 1 false) 13, .disconnect 1 2,
          .timeout 7 2] = some s ∧ Agreed "fish" s :=
  agreed_of_orderly Login.registered_oneGate (by decide +kernel) placed_oneGate (by decide +kernel)

/-- **After `cli:signout` the services do not agree**: the watchdog maps the user to an agent that
does not know him any more, and he stays on the gate, online and in its counter. -/
theorem signout_is_not_told :
    ∃ s, run "fish" (opened Login.oneGate 64)
        [.login "ios" none (.user 1 false) 11, .signin ⟨1, 7, 11, 3⟩ false, .signout 1 1] = some s ∧
      (s.agents 1).users.lookup 1 = none ∧ s.wd.agentOf 1 = some 1 ∧
      ((s.gates 7).users.lookup 1).isSome = true ∧ (s.login.record "fish" 1).isSome = true ∧
      ¬ Agreed "fish" s := by
  obtain ⟨s, hs, hp⟩ := (Option.any_eq_true (p := fun s : World =>
    decide ((s.agents 1).users.lookup 1 = none ∧ s.wd.agentOf 1 = some 1 ∧
      ((s.gates 7).users.lookup 1).isSome = true ∧ (s.login.record "fish" 1).isSome = true))
    (run "fish" (opened Login.oneGate 64)
        [.login "ios" none (.user 1 false) 11, .signin ⟨1, 7, 11, 3⟩ false, .signout 1 1])).1
    (by decide +kernel)
  obtain ⟨hagent, hwd, hgate, honline⟩ := of_decide_eq_true hp
  refine ⟨s, hs, hagent, hwd, hgate, honline, fun hagreed => ?_⟩
  have hsome := (hagreed.agent 1 1).2 hwd
  rw [hagent] at hsome
  cases hsome

end Halieutics.Sessions
