/-
**Sessions across the services.**

Four services keep their own copy of who is online: the login service in `app.online` and in the
counters of the gates, the gates in `data.users`, the watchdog in `data.users` with the agent and
the gate of a user, and the agents in `data.users`.  Each way in which a session ends tells a
different part of them about it.

This module runs the handlers of all four against each other, one event at a time: an event is
processed completely, with all the calls it makes, before the next one.  A user then has one of
three statuses: he is out, a gate waits for him, or he has a session, on a gate and on an agent.
The services agree if each of them knows about a user what his status says.

They do not always agree.  `cli:signout` tells nobody but the agent itself; `watchdog.kick` does not
tell the gate; a login over a login that waits loses a slot; and an agent that is closed does not
answer the call, so that `free_agent` raises and the rest of the handler is lost.

Main definitions:

* `World`, `Ev`, `process` — the services of an app, the events, and what an event does;
* `Agreed` — **sessions agree everywhere**;
* `orderly` — **the condition** on the next event.
-/

import Halieutics.Agent
import Halieutics.Gate
import Halieutics.Login

set_option relaxedAutoImplicit false
set_option autoImplicit false

namespace Halieutics.Sessions

open LuaTable
open Watchdog (Client)

/-- The login service, the watchdog of an app, its gates and its agents. -/
structure World where
  login : Login.Server
  wd : Watchdog.Data
  gates : ℕ → Gate.Data := fun _ => {}
  agents : ℕ → Agent.Data := fun _ => {}

/-- A gate changes its tables. -/
def World.setGate (s : World) (g : ℕ) (d : Gate.Data) : World :=
  { s with gates := Function.update s.gates g d }

/-- An agent changes its tables. -/
def World.setAgent (s : World) (a : ℕ) (d : Agent.Data) : World :=
  { s with agents := Function.update s.agents a d }

/-! ### The calls -/

/-- `login.logout`, and whether it raised. -/
def logout (s : World) (g id : ℕ) : World × Bool :=
  match Login.logout s.login g id with
  | .ret l (.raise _) => ({ s with login := l }, true)
  | o => ({ s with login := o.server }, false)

/-- **`gate.kick`**. -/
def gateKick (s : World) (g id : ℕ) : World × Bool :=
  match (s.gates g).kick id with
  | none => (s, false)
  | some d => logout (s.setGate g d) g id

/-- An agent that has been closed does not answer. -/
def World.dead (s : World) (a : ℕ) : Bool := decide (a ∈ s.wd.closed.map Prod.fst)

/-- **`agent.kick`**, called with `clear`; the loop of the user ends. -/
def agentKick (s : World) (a id : ℕ) : World × Bool :=
  if s.dead a then (s, true)
  else
    match (s.agents a).users.lookup id with
    | none => (s, false)
    | some u => (s.setAgent a (((s.agents a).kick id true).gone u).1, false)

/-- **`agent.assign`**, and what the watchdog gets. -/
def agentAssign (s : World) (a : ℕ) (c : Client) : World × Watchdog.Inp :=
  if s.dead a then (s, { raised := true })
  else
    match (s.agents a).assign c with
    | (d, .refused) => (s.setAgent a d, { reply := false })
    | (d, .joined _) => (s.setAgent a d, {})
    | (d, .avatar) => (s.setAgent a (d.store c), {})

/-- `agent.close` ends the service with `skynet.exit`, and the call raises. -/
def close (s : World) (a : ℕ) : World × Watchdog.Inp := (s.setAgent a {}, { raised := true })

/-- The calls of the watchdog. -/
def serve (s : World) : Watchdog.Pc → World × Watchdog.Inp
  | .newAgent _ => (s, {})
  | .surplus _ => close s (s.wd.nservice - 1)
  | .agentAssign c user => agentAssign s (s.wd.recs user).agent c
  | .exitClose _ user => close s (s.wd.recs user).agent
  | .kickAgent id user _ =>
      ((agentKick s (s.wd.recs user).agent id).1,
        { raised := (agentKick s (s.wd.recs user).agent id).2 })
  | .kickClose _ user _ => close s (s.wd.recs user).agent
  | .gateKick id gate _ => ((gateKick s gate id).1, { raised := (gateKick s gate id).2 })
  | .initAgent => (s, {})
  | .initClose => close s (s.wd.nservice - 1)

/-- A handler of the watchdog from a point where it ends or waits, and whether it raised.  It calls
three times at most, unless `agent.assign` refuses the user; then `watchdog.assign` calls it for
ever and the event is never completed. -/
def drive : ℕ → World → Watchdog.Out → Option (World × Bool)
  | _, s, .ret w (.raise _) => some ({ s with wd := w }, true)
  | _, s, .ret w .nil => some ({ s with wd := w }, false)
  | 0, _, .wait _ _ => none
  | n + 1, s, .wait w pc =>
      let p := serve { s with wd := w } pc
      drive n p.1 (Watchdog.resume p.1.wd p.2 pc)

/-! ### The events -/

/-- The end of `cli:login`: `gate.login`, if it comes to that. -/
def loginEnd (s : World) (secret : ℕ) : Login.Out → World
  | .wait l (.gateLogin id g) => { s with login := l }.setGate g ((s.gates g).login id secret)
  | o => { s with login := o.server }

/-- **`cli:login`**. -/
def login (app : String) (s : World) (platform : String) (version : Option ℕ) (auth : Login.Auth)
    (secret : ℕ) : Option World :=
  match Login.login s.login app platform version with
  | .ret l _ => some { s with login := l }
  | .wait l pc =>
      match Login.resume l { auth := auth } pc with
      | .wait l (.tryKick app platform id) =>
          (drive 3 { s with login := l } (Watchdog.kick s.wd id true)).map fun p =>
            loginEnd p.1 secret
              (Login.resume p.1.login { raised := p.2 } (.tryKick app platform id))
      | o => some (loginEnd s secret o)

/-- The gate has let the user in: `watchdog.assign`, or `gate.kick` if the socket is gone. -/
def welcome (s : World) (gate : ℕ) (u : Gate.Ref) (c : Client) (dropped : Bool) : Option World :=
  let s := s.setGate gate ((s.gates gate).setState u .ok)
  if dropped then some (gateKick s gate c.id).1
  else (drive 3 s (Watchdog.assign s.wd c)).map Prod.fst

/-- `watchdog.secret` returns another secret. -/
def otherLogin (w : Watchdog.Data) (id secret : ℕ) : Bool :=
  match w.users.lookup id with
  | none => false
  | some r => !(w.recs r).afk && decide ((w.recs r).secret ≠ secret)

/-- **`cli:signin`**, and what `new_socket` does after it. -/
def signin (s : World) (c : Client) (dropped : Bool) : Option World :=
  if otherLogin s.wd c.id c.secret then some s
  else
    let p := (s.gates c.gate).signin c.id c.secret
    let s := s.setGate c.gate p.1
    match p.2 with
    | none => some s
    | some u =>
        match (p.1.objs u).state with
        | .wait => welcome s c.gate u c dropped
        | .ok =>
            (drive 3 s (Watchdog.kick s.wd c.id false)).bind fun q =>
              if q.2 then some q.1 else welcome q.1 c.gate u c dropped
        | .afk =>
            match Login.restore s.login c.gate c.id with
            | .ret l .restored => welcome { s with login := l } c.gate u c dropped
            | o => some { s with login := o.server }

/-- **A socket is gone**, and the user does not come back in time: `new_user_msgloop`. -/
def disconnect (s : World) (a id : ℕ) : Option World :=
  match (s.agents a).users.lookup id with
  | none => some s
  | some u =>
      let p := (s.agents a).gone u
      let s := s.setAgent a p.1
      match p.2 with
      | none => some s
      | some v =>
          (drive 3 s (Watchdog.afk s.wd (p.1.objs v).id)).bind fun q =>
            if q.2 then some q.1
            else if (q.1.agents a).expires v then
              (drive 3 (q.1.setAgent a ((q.1.agents a).expire v))
                (Watchdog.exit q.1.wd (p.1.objs v).id)).map Prod.fst
            else some q.1

/-- A timer of a gate runs. -/
def timeout (s : World) (g : ℕ) (u : Gate.Ref) : World :=
  if u ∈ (s.gates g).timers then
    match (s.gates g).timeout u with
    | (d, none) => s.setGate g d
    | (d, some id) => (logout (s.setGate g d) g id).1
  else s

/-- The events. -/
inductive Ev where
  | login (platform : String) (version : Option ℕ) (auth : Login.Auth) (secret : ℕ)
  | signin (c : Client) (dropped : Bool)
  | disconnect (agent id : ℕ)
  | signout (agent id : ℕ)
  | kick (id : ℕ)
  | tryKick (id : ℕ)
  | timeout (gate : ℕ) (u : Gate.Ref)

/-- **An event is processed**; `none` if it is never completed. -/
def process (app : String) (s : World) : Ev → Option World
  | .login platform version auth secret => login app s platform version auth secret
  | .signin c dropped => signin s c dropped
  | .disconnect a id => disconnect s a id
  -- `cli:signout` is `agent.kick`
  | .signout a id => some (agentKick s a id).1
  | .kick id => (drive 3 s (Watchdog.kick s.wd id false)).map Prod.fst
  | .tryKick id => (drive 3 s (Watchdog.kick s.wd id true)).map Prod.fst
  | .timeout g u => some (timeout s g u)

/-- A sequence of events. -/
def run (app : String) (s : World) : List Ev → Option World
  | [] => some s
  | e :: es => (process app s e).bind fun s => run app s es

/-! ### The statement -/

/-- A gate waits for the user. -/
def World.pending (s : World) (id : ℕ) : Prop := ∃ g, (s.gates g).stateOf id = some .wait

/-- A user has a session on an agent. -/
def World.session (s : World) (id : ℕ) : Prop := ∃ a, ((s.agents a).users.lookup id).isSome = true

/-- **Sessions agree everywhere**: a user is on an agent exactly if the watchdog maps him to it; a
user without a session for whom no gate waits is on no gate and not online; and every slot of a gate
is that of a user who is online. -/
structure Agreed (app : String) (s : World) : Prop where
  agent : ∀ a id, ((s.agents a).users.lookup id).isSome = true ↔ s.wd.agentOf id = some a
  gate : ∀ id, ¬ s.session id → ¬ s.pending id → ∀ g, (s.gates g).users.lookup id = none
  online : ∀ id, ¬ s.session id → ¬ s.pending id → s.login.record app id = none
  slots : ∀ g conf, s.login.gates.lookup g = some conf → conf.client = Login.onlineOn s.login g

/-- The user is the last one of his agent, and it is not the only one: it would be closed. -/
def closes (s : World) (id : ℕ) : Bool :=
  match s.wd.users.lookup id with
  | none => false
  | some r => (s.wd.freeAgent (s.wd.recs r).agent).2.isSome

/-- **The condition**: no `cli:signout` of a user who has a session; no `watchdog.kick` of such a
user but for the one in `cli:signin`; no login for which there is a gate while another one waits for
the user; and no session ends that is the last one of an agent that is not the only one. -/
def orderly (app : String) (s : World) : Ev → Bool
  | .login platform version (.user id false) _ =>
      match Login.login s.login app platform version with
      | .ret _ _ => true
      | .wait _ _ =>
          (s.login.record app id).isNone ||
            (if (s.wd.users.lookup id).isSome then !closes s id
              else (Login.assignGate s.login app platform).2.isNone)
  | .login _ _ _ _ => true
  | .signin c _ =>
      match (s.gates c.gate).users.lookup c.id with
      | none => true
      | some u =>
          !(decide (((s.gates c.gate).objs u).state = .ok ∧
            ((s.gates c.gate).objs u).secret = c.secret) && closes s c.id)
  | .disconnect a id => ((s.agents a).users.lookup id).isNone || !closes s id
  | .signout a id => ((s.agents a).users.lookup id).isNone
  | .kick id => (s.wd.users.lookup id).isNone
  | .tryKick id => !closes s id
  | .timeout _ _ => true

/-- Every event of a sequence meets the condition in the state it happens in. -/
def orderlyRun (app : String) : World → List Ev → Bool
  | _, [] => true
  | s, e :: es => orderly app s e && (process app s e).all fun s => orderlyRun app s es

/-- The start: the gates have registered, and the watchdog has started its first agent. -/
def opened (l : Login.Server) (load : ℤ) : World where
  login := l
  wd := (Watchdog.resume { load := load } {} .initAgent).w

end Halieutics.Sessions
