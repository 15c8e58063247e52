/-
**The ban: `service/gm/misc.lua`, and everything that lets a user in.**

`misc.blacklist` sets a flag in the base of the account and then has the watchdog kick the user.
The flag is read once, at the handshake of a login; the kick reaches whom the watchdog knows.  On
his way in a user passes the services one after the other: the login service, which sends him to a
gate; the gate, where he signs in; the watchdog, which finds him an agent; and the agent.

This module runs the handlers of all of them, each with its yields, and with the messages between
them on their way for any time.  The handlers of the single services are those of their own modules.

Main definitions:

* `Halieutics.Misc.World` — the services; `barred` and `signins` are what an observer keeps track
  of;
* `Halieutics.Misc.Req`, `Halieutics.Misc.Frame` — the requests, and where handlers wait;
* `Halieutics.Misc.serve`, `Halieutics.Misc.resume` — the handlers;
* `Halieutics.Misc.services` — the services as a machine;
* `Halieutics.Misc.Effective` — **whoever is banned does not sign in and has no session**;
* `Halieutics.Misc.Apart` — the condition: the ban does not meet a login or a sign-in of the user.
-/

import Halieutics.Auth
import Halieutics.Calls
import Halieutics.GateEvents
import Halieutics.Sessions

set_option relaxedAutoImplicit false
set_option autoImplicit false

namespace Halieutics.Misc

open Coroutine LuaTable
open Watchdog (Client)

/-- What the records look like; secrets, which are compared only, are numbers here. -/
structure Env extends Accdb.Env where
  secret : String → ℕ

/-! ### The services -/

/-- A socket that a gate reads: of `user` the number and the secret are kept, which nobody
changes. -/
structure Sock where
  exit : Bool := false
  user : Option (ℕ × ℕ) := none
  login : Bool := false

/-- **The services.**  `barred` are the users whom `misc.blacklist` has banned and `misc.whitelist`
has not let in again; `signins` has an entry for every `cli:signin` that succeeded, with the user
and whether he was banned. -/
structure World where
  accounts : Redis.Store := {}
  login : Login.Server
  wd : Watchdog.Data
  gates : Table ℕ Gate.Data := ∅
  socks : ℕ → ℕ → Sock := fun _ _ => {}
  nsock : ℕ → ℕ := fun _ => 0
  agents : Table ℕ Agent.Data := ∅
  closed : List ℕ := []
  barred : ℕ → Bool := fun _ => false
  signins : List (ℕ × Bool) := []

def World.gate (w : World) (g : ℕ) : Gate.Data := (w.gates.lookup g).getD {}

def World.agent (w : World) (a : ℕ) : Agent.Data := (w.agents.lookup a).getD {}

def World.setGate (w : World) (g : ℕ) (d : Gate.Data) :
    World := { w with gates := w.gates.insert g d }

def World.setAgent (w : World) (a : ℕ) (d : Agent.Data) : World :=
  { w with agents := w.agents.insert a d }

def World.setSock (w : World) (g fd : ℕ) (f : Sock → Sock) : World :=
  { w with socks := Function.update w.socks g (Function.update (w.socks g) fd (f (w.socks g fd))) }

/-! ### Messages -/

/-- The requests that the services send to each other. -/
inductive Req where
  | login (app platform : String) (version : Option ℕ) (r : Auth.Req)
  | handshake (r : Auth.Req)
  /-- a database, a third party, a socket, a timer, `skynet.newservice` -/
  | external
  | gateLogin (g id secret : ℕ) (new : Bool)
  | connect (g : ℕ)
  | signin (g fd id secret : ℕ)
  | timeout (g : ℕ) (u : Gate.Ref)
  | gateKick (g id : ℕ)
  | logout (g id : ℕ)
  | restore (g id : ℕ)
  | secret (id : ℕ)
  | wd (r : Watchdog.Req)
  | agentAssign (a : ℕ) (c : Client)
  | agentKick (a id : ℕ) (clear : Bool)
  | agentClose (a : ℕ)
  | msgloop (a : ℕ) (u : Agent.Ref)
  | accFlag (id : ℕ) (forbidden : Bool)
  | blacklist (id : ℕ)
  | whitelist (id : ℕ)

/-- What the world asks for. -/
inductive Ask where
  | login (app platform : String) (version : Option ℕ) (r : Auth.Req)
  | connect (g : ℕ)
  | timeout (g : ℕ) (u : Gate.Ref)
  | signout (a id : ℕ)
  | blacklist (id : ℕ)
  | whitelist (id : ℕ)
  /-- The watchdog starts up. -/
  | init

def Ask.req : Ask → Req
  | .login app platform version r => .login app platform version r
  | .connect g => .connect g
  | .timeout g u => .timeout g u
  -- `cli:signout` is `agent.kick`
  | .signout a id => .agentKick a id true
  | .blacklist id => .blacklist id
  | .whitelist id => .whitelist id
  | .init => .wd .init

/-- What the world supplies: what a handshake is told, what a socket brings, whether a call
raised. -/
structure Inp where
  auth : Auth.Inp := {}
  read : Gate.Read := .lost
  raised : Bool := false

/-- The answers. -/
inductive Ans where
  | nil
  | raised
  | bool (b : Bool)
  | secret (s : Option ℕ)
  | user (u : Auth.User)
  /-- the handshake has failed -/
  | refused
  | ext (x : Inp)

/-- A call has raised. -/
def Ans.failed : Ans → Bool
  | .raised => true
  | .ext x => x.raised
  | _ => false

/-- Where a handler waits. -/
inductive Frame where
  /-- `cli:login` at `auth.handshake`, and at its later calls -/
  | handshake (app platform : String)
  | login (pc : Login.Pc) (user : Auth.User)
  | auth (pc : Auth.Pc)
  /-- `gate.login` at `userdb.add_prop` -/
  | gateLogin (g id secret : ℕ)
  /-- `new_socket` in `client.dispatch`, and at `watchdog.assign` -/
  | reading (g fd : ℕ)
  | assigning (g fd : ℕ)
  /-- `cli:signin` at `watchdog.secret`, `login.restore`, `watchdog.kick` -/
  | secret (g fd id secret : ℕ)
  | restore (g fd : ℕ) (u : Gate.Ref) (user : ℕ × ℕ)
  | kickAgent (g fd : ℕ) (u : Gate.Ref) (user : ℕ × ℕ)
  /-- `gate.kick` and `timeout_handler` at `login.logout` -/
  | logout (g : ℕ)
  | wd (pc : Watchdog.Pc)
  /-- `agent.assign` at `get_avatar`, and in `restore_mydesk_from_db` -/
  | avatar (a : ℕ) (c : Client)
  | mydesk (a : ℕ) (u : Agent.Ref)
  /-- `new_user_msgloop` in `client.dispatch`, at `watchdog.afk`, in its sleep, at
  `watchdog.exit` -/
  | msgloop (a : ℕ) (u : Agent.Ref)
  | afk (a : ℕ) (u : Agent.Ref)
  | sleeping (a : ℕ) (u : Agent.Ref)
  | exiting
  /-- `accdb.blacklist` and `accdb.whitelist` in `querybyuid`, and in `refreshbase` -/
  | accRead (id : ℕ) (forbidden : Bool)
  | accWrite (id : ℕ) (base : Accdb.Base)
  /-- `misc.blacklist` at `accdb.blacklist`, and at `watchdog.try_kick` -/
  | flagging (id : ℕ)
  | kicking (id : ℕ)
  /-- `misc.whitelist` at `accdb.whitelist` -/
  | lifting (id : ℕ)

abbrev Out := Served World Frame Req Ans

/-- A segment returns. -/
def done (w : World) (a : Ans) : Out := ⟨w, .ret a, []⟩

/-- A segment calls. -/
def call (w : World) (f : Frame) (q : Req) : Out := ⟨w, .call f q, []⟩

/-! ### The login service -/

/-- `cli:login` after a segment. -/
def loginOut (E : Env) (w : World) (user : Auth.User) : Login.Out → Out
  | .wait l (.tryKick app platform id) =>
      call { w with login := l } (.login (.tryKick app platform id) user) (.wd (.tryKick id))
  | .wait l (.gateLogin id g) =>
      call { w with login := l } (.login (.gateLogin id g) user)
        (.gateLogin g id (E.secret user.secret) user.new)
  | o => done { w with login := o.server } .nil

/-- `auth.handshake` after a segment; its own calls are made to the world. -/
def authOut (w : World) : Auth.Db × List Auth.Pc → Out
  | (d, pc :: _) => call { w with accounts := d.store } (.auth pc) .external
  | (d, []) =>
      done { w with accounts := d.store } <|
        match d.hist with
        | .succeeded _ user :: _ => .user user
        | _ => .refused

/-! ### The gates -/

/-- **`gate.login`** from `reset_cache` on. -/
def enter (w : World) (g id secret : ℕ) :
    Out := done (w.setGate g ((w.gate g).login id secret)) .nil

/-- **`gate.kick`**. -/
def gateKick (w : World) (g id : ℕ) : Out :=
  match (w.gate g).kick id with
  | none => done w .nil
  | some d => call (w.setGate g d) (.logout g) (.logout g id)

/-- The end of `cli:signin`. -/
def signed (w : World) (g fd : ℕ) (u : Gate.Ref) (user : ℕ × ℕ) : Out :=
  let w := w.setGate g ((w.gate g).setState u .ok)
  let w := w.setSock g fd fun c => { c with user := some user, login := true }
  done { w with signins := (user.1, w.barred user.1) :: w.signins } .nil

/-- **`cli:signin`** after the check of `watchdog.secret`. -/
def signin (w : World) (g fd id secret : ℕ) : Out :=
  match (w.gate g).signin id secret with
  | (d, none) => done (w.setGate g d) .nil
  | (d, some u) =>
      let user := ((d.objs u).id, (d.objs u).secret)
      match (d.objs u).state with
      | .afk => call (w.setGate g d) (.restore g fd u user) (.restore g user.1)
      | .ok => call (w.setGate g d) (.kickAgent g fd u user) (.wd (.kick user.1))
      | .wait => signed (w.setGate g d) g fd u user

/-- `client.dispatch` raises: the end of `new_socket`. -/
def lost (w : World) (g fd : ℕ) : Out :=
  match (w.socks g fd).login, (w.socks g fd).user with
  | true, some user => gateKick w g user.1
  | _, _ => done w .nil

/-- `client.dispatch` returns: the socket is handed over to the watchdog, if its user has signed
in. -/
def handover (w : World) (g fd : ℕ) : Out :=
  match (w.socks g fd).login, (w.socks g fd).user with
  | true, some user => call w (.assigning g fd) (.wd (.assign ⟨user.1, g, user.2, fd⟩))
  | _, _ => done w .nil

/-- `new_socket` when the socket brings something. -/
def reading (w : World) (g fd : ℕ) : Gate.Read → Out
  | .lost => lost w g fd
  | .other => if (w.socks g fd).exit then handover w g fd else lost w g fd
  | .signin id secret =>
      if (w.socks g fd).exit then handover w g fd
      else
        { state := w.setSock g fd fun c => { c with exit := true }
          ends := .call (.reading g fd) .external
          forks := [.signin g fd id secret] }

/-- A timer of a gate. -/
def timeout (w : World) (g : ℕ) (u : Gate.Ref) : Out :=
  if u ∈ (w.gate g).timers then
    match (w.gate g).timeout u with
    | (d, none) => done (w.setGate g d) .nil
    | (d, some id) => call (w.setGate g d) (.logout g) (.logout g id)
  else done w .nil

/-! ### The watchdog -/

/-- The call at which the watchdog waits. -/
def callOf (w : Watchdog.Data) : Watchdog.Pc → Req
  | .newAgent _ | .initAgent => .external
  | .surplus _ | .initClose => .agentClose (w.nservice - 1)
  | .agentAssign c user => .agentAssign (w.recs user).agent c
  | .exitClose _ user | .kickClose _ user _ => .agentClose (w.recs user).agent
  | .kickAgent id user _ => .agentKick (w.recs user).agent id true
  | .gateKick id gate _ => .gateKick gate id

/-- The watchdog after a segment. -/
def wdOut (w : World) : Watchdog.Out → Out
  | .ret d .nil => done { w with wd := d } .nil
  | .ret d (.raise _) => done { w with wd := d } .raised
  | .wait d pc => call { w with wd := d } (.wd pc) (callOf d pc)

/-- **`watchdog.secret`**. -/
def secretOf (w : Watchdog.Data) (id : ℕ) : Option ℕ :=
  (w.entry id).bind fun r => if r.afk then none else some r.secret

/-! ### The agents -/

/-- **`agent.assign`** up to its first yield. -/
def agentAssign (w : World) (a : ℕ) (c : Client) : Out :=
  if a ∈ w.closed then done w .raised
  else
    match (w.agent a).assign c with
    | (d, .refused) => done (w.setAgent a d) (.bool false)
    | (d, .joined u) =>
        { state := w.setAgent a d, ends := .ret (.bool true), forks := [.msgloop a u] }
    | (d, .avatar) => call (w.setAgent a d) (.avatar a c) .external

/-- The socket of a user is gone. -/
def gone (w : World) (a : ℕ) (u : Agent.Ref) : Out :=
  match (w.agent a).gone u with
  | (d, none) => done (w.setAgent a d) .nil
  | (d, some v) => call (w.setAgent a d) (.afk a v) (.wd (.afk (d.objs v).id))

/-- The user has not come back, or he has. -/
def expire (w : World) (a : ℕ) (u : Agent.Ref) : Out :=
  if (w.agent a).expires u then
    call (w.setAgent a ((w.agent a).expire u)) .exiting (.wd (.exit ((w.agent a).objs u).id))
  else done w .nil

/-! ### The account store -/

/-- `accdb.blacklist` and `accdb.whitelist` after `querybyuid`. -/
def accRead (E : Env) (w : World) (id : ℕ) (forbidden : Bool) : Out :=
  match Accdb.querybyuid E.toEnv w.accounts id with
  | none => done w .raised
  | some none => done w (.bool false)
  | some (some base) => call w (.accWrite id { base with forbidden := forbidden }) .external

/-- `accdb.blacklist` and `accdb.whitelist` in `refreshbase`. -/
def accWrite (E : Env) (w : World) (id : ℕ) (base : Accdb.Base) : Auth.Answer → Out
  | .failed => done w .raised
  | .lost => done { w with accounts := Accdb.refreshbase E.toEnv w.accounts base id } .raised
  | .ok => done { w with accounts := Accdb.refreshbase E.toEnv w.accounts base id } (.bool true)

/-! ### The handlers -/

/-- `misc.blacklist` has returned. -/
def World.bar (w : World) (id : ℕ) (b : Bool) : World :=
  { w with barred := Function.update w.barred id b }

/-- **The first segments of the handlers.** -/
def serve (w : World) (q : Req) (i : Inp) : Out :=
  match q with
  | .login app platform version r =>
      match Login.login w.login app platform version with
      | .wait l (.handshake app platform) =>
          call { w with login := l } (.handshake app platform) (.handshake r)
      | o => done { w with login := o.server } .nil
  | .handshake r => authOut w (Auth.handshake ⟨w.accounts, []⟩ r)
  | .external => done w (.ext i)
  | .gateLogin g id secret new =>
      if new then call w (.gateLogin g id secret) .external else enter w g id secret
  | .connect g =>
      { state := ({ w with nsock := Function.update w.nsock g (w.nsock g + 1) } : World).setSock g
          (w.nsock g) fun _ => {}
        ends := .call (.reading g (w.nsock g)) .external }
  | .signin g fd id secret => call w (.secret g fd id secret) (.secret id)
  | .timeout g u => timeout w g u
  | .gateKick g id => gateKick w g id
  | .logout g id =>
      match Login.logout w.login g id with
      | .ret l (.raise _) => done { w with login := l } .raised
      | o => done { w with login := o.server } .nil
  | .restore g id =>
      match Login.restore w.login g id with
      | .ret l (.raise _) => done { w with login := l } .raised
      | .ret l .restored => done { w with login := l } (.bool true)
      | o => done { w with login := o.server } (.bool false)
  | .secret id => done w (.secret (secretOf w.wd id))
  | .wd r => wdOut w (Watchdog.direct w.wd r)
  | .agentAssign a c => agentAssign w a c
  | .agentKick a id clear =>
      if a ∈ w.closed then done w .raised else done (w.setAgent a ((w.agent a).kick id clear)) .nil
  -- `agent.close` ends the service with `skynet.exit`, and the call raises
  | .agentClose a => done { w.setAgent a {} with closed := a :: w.closed } .raised
  | .msgloop a u => call w (.msgloop a u) .external
  | .accFlag id forbidden => call w (.accRead id forbidden) .external
  | .blacklist id => call w (.flagging id) (.accFlag id true)
  | .whitelist id => call (w.bar id false) (.lifting id) (.accFlag id false)

/-- **The segments after the answers.** -/
def resume (E : Env) (w : World) (f : Frame) (ans : Ans) : Out :=
  match f with
  | .handshake app platform =>
      match ans with
      | .user u => loginOut E w u
          (Login.resume w.login { auth := .user u.id u.forbidden } (.handshake app platform))
      | _ => done w .nil
  | .login pc user => loginOut E w user (Login.resume w.login { raised := ans.failed } pc)
  | .auth pc =>
      match ans with
      | .ext x =>
          match Auth.segment E.toEnv ⟨w.accounts, []⟩ x.auth pc with
          -- the script is still running
          | none => call w (.auth pc) .external
          | some out => authOut w out
      | _ => done w .refused
  | .gateLogin g id secret => if ans.failed then done w .raised else enter w g id secret
  | .reading g fd =>
      match ans with
      | .ext x => reading w g fd x.read
      | _ => done w .nil
  | .assigning _ _ => done w .nil
  | .secret g fd id secret =>
      match ans with
      | .secret none => signin w g fd id secret
      | .secret (some s) => if s = secret then signin w g fd id secret else done w .nil
      | _ => done w .raised
  | .restore g fd u user =>
      match ans with
      | .bool true => signed w g fd u user
      | _ => done w .nil
  | .kickAgent g fd u user => if ans.failed then done w .raised else signed w g fd u user
  | .logout _ => done w (if ans.failed then .raised else .nil)
  | .wd pc =>
      let reply := match ans with
        | .bool b => b
        | _ => true
      wdOut w (Watchdog.resume w.wd { raised := ans.failed, reply := reply } pc)
  | .avatar a c =>
      if a ∈ w.closed ∨ ans.failed = true then done w .raised
      else call (w.setAgent a ((w.agent a).store c)) (.mydesk a (w.agent a).nobj) .external
  | .mydesk a u =>
      if a ∈ w.closed ∨ ans.failed = true then done w .raised
      else { state := w, ends := .ret (.bool true), forks := [.msgloop a u] }
  | .msgloop a u => if a ∈ w.closed then done w .nil else gone w a u
  | .afk a u => if ans.failed then done w .nil else call w (.sleeping a u) .external
  | .sleeping a u => if a ∈ w.closed then done w .nil else expire w a u
  | .exiting => done w .nil
  | .accRead id forbidden =>
      match ans with
      | .ext x => if x.auth.answer = .ok then accRead E w id forbidden else done w .raised
      | _ => done w .raised
  | .accWrite id base =>
      match ans with
      | .ext x => accWrite E w id base x.auth.answer
      | _ => done w .raised
  | .flagging id =>
      match ans with
      | .bool true => call w (.kicking id) (.wd (.tryKick id))
      -- "user not find"
      | .bool false => done (w.bar id true) .nil
      | _ => done w .raised
  | .kicking id => if ans.failed then done w .raised else done (w.bar id true) .nil
  | .lifting _ => done w .nil

/-- **The services.** -/
def services (E : Env) : Services World Frame Req Ans Ask Inp where
  ask := Ask.req
  serve := serve
  resume w f ans _ := resume E w f ans

abbrev Coro := Thread Frame Req Ans

abbrev Sys := Pool World Coro

abbrev Ev := Coroutine.Event Ask Inp

/-- The start: the gates have registered. -/
def start (l : Login.Server) (load : ℤ) : Sys := ⟨{ login := l, wd := { load := load } }, []⟩

/-! ### The statement -/

/-- **Whoever is banned has not signed in since, and has no session.** -/
structure Effective (id : ℕ) (w : World) : Prop where
  signins : ∀ e ∈ w.signins, e.1 = id → e.2 = false
  sessions : w.barred id = true → ∀ a, (w.agent a).users.lookup id = none

/-! ### The condition -/

/-- A login of the user that has read no ban, and is not on a gate yet. -/
def Frame.enters (id : ℕ) : Frame → Bool
  | .login (.tryKick _ _ id') _ => id' == id
  | .auth pc => pc.base?.any fun e => e.1 == id && !e.2.forbidden
  | .gateLogin _ id' _ => id' == id
  | _ => false

def Req.enters (id : ℕ) : Req → Bool
  | .gateLogin _ id' _ _ => id' == id
  | _ => false

def Ans.enters (id : ℕ) : Ans → Bool
  | .user u => u.id == id && !u.forbidden
  | _ => false

/-- The user whom the watchdog is about to assign to an agent. -/
def assigned : Watchdog.Pc → Option ℕ
  | .newAgent c | .surplus c | .agentAssign c _ => some c.id
  | _ => none

/-- A sign-in of the user that the gate has let in, and that is not on an agent yet. -/
def Frame.signs (id : ℕ) (w : World) : Frame → Bool
  | .reading g fd => (w.socks g fd).login && (w.socks g fd).user.any fun user => user.1 == id
  | .restore _ _ _ user | .kickAgent _ _ _ user => user.1 == id
  | .wd pc => assigned pc == some id
  | .avatar _ c => c.id == id
  | _ => false

def Req.signs (id : ℕ) : Req → Bool
  | .wd (.assign c) | .agentAssign _ c => c.id == id
  | _ => false

/-- The ban of the user is about to be lifted. -/
def Frame.lifts (id : ℕ) : Frame → Bool
  | .accRead id' forbidden => id' == id && !forbidden
  | .accWrite id' base => id' == id && !base.forbidden
  | _ => false

def Req.lifts (id : ℕ) : Req → Bool
  | .accFlag id' forbidden => id' == id && !forbidden
  | _ => false

/-- A thread logs the user in. -/
def Enters (id : ℕ) : Coro → Prop :=
  Thread.Has (fun f => f.enters id = true) (fun q => q.enters id = true) fun a => a.enters id = true

/-- A thread signs the user in. -/
def Signs (id : ℕ) (w : World) : Coro → Prop :=
  Thread.Has (fun f => f.signs id w = true) (fun q => q.signs id = true) fun _ => False

/-- A thread lifts the ban of the user. -/
def Lifts (id : ℕ) : Coro → Prop :=
  Thread.Has (fun f => f.lifts id = true) (fun q => q.lifts id = true) fun _ => False

/-- `misc.blacklist` is in `watchdog.try_kick`. -/
def Frame.kicks (id : ℕ) : Frame → Bool
  | .kicking id' => id' == id
  | _ => false

/-- `misc.blacklist` has set the flag. -/
def Banning (id : ℕ) (t : Coro) : Prop :=
  (∃ f ∈ t.stack, f.kicks id = true) ∨
    match t.msg, t.stack with
    | .answer (.bool true), .flagging id' :: _ => id' = id
    | _, _ => False

/-- `watchdog.try_kick` has looked the user up. -/
def Kicking (id : ℕ) (t : Coro) : Prop :=
  (∃ f ∈ t.stack, f.kicks id = true) ∧
    match t.msg with
    | .request (.wd (.tryKick _)) => False
    | _ => True

/-- **The watchdog knows the user** wherever he is. -/
structure Known (id : ℕ) (w : World) : Prop where
  gates : ∀ g, (w.gate g).users.lookup id ≠ none → (w.wd.entry id).map Watchdog.Record.gate = some g
  agents : ∀ a, (w.agent a).users.lookup id ≠ none →
    (w.wd.entry id).map Watchdog.Record.agent = some a

/-- The condition on a step: when `misc.blacklist` sets the flag, the account exists, and no login
of the user is past its handshake and not yet on a gate; when it looks the user up, the watchdog
knows him wherever he is, and nobody signs him in. -/
def StepApart (E : Env) (id : ℕ) (s : Sys) : Ev → Prop
  | .call _ _ => True
  | .resume i _ =>
      match s.cos[i]? with
      | some ⟨.answer (.ext _), .accRead id' true :: _⟩ =>
          id' = id → Accdb.querybyuid E.toEnv s.shared.accounts id ≠ some none
      | some ⟨.answer (.ext _), .accWrite id' base :: _⟩ =>
          id' = id → base.forbidden = true → ∀ t ∈ s.cos, ¬ Enters id t
      | some ⟨.request (.wd (.tryKick id')), .kicking _ :: _⟩ =>
          id' = id → Known id s.shared ∧ ∀ t ∈ s.cos, ¬ Signs id s.shared t
      | _ => True

/-- **The condition.**  From the time when `misc.blacklist` has set the flag until it returns nobody
lifts the ban; and from the time when it has looked the user up nobody signs him in. -/
structure Apart (E : Env) (id : ℕ) (s : Sys) (e : Ev) : Prop where
  step : StepApart E id s e
  lifts : (∃ t ∈ s.cos, Banning id t) → ∀ t ∈ s.cos, ¬ Lifts id t
  signs : (∃ t ∈ s.cos, Kicking id t) → ∀ t ∈ s.cos, ¬ Signs id s.shared t

instance (id : ℕ) : DecidablePred (Enters id) :=
  fun t => inferInstanceAs (Decidable (Thread.Has _ _ _ t))

instance (id : ℕ) (w : World) : DecidablePred (Signs id w) := fun t =>
  inferInstanceAs (Decidable (Thread.Has _ _ _ t))

instance (id : ℕ) : DecidablePred (Lifts id) :=
  fun t => inferInstanceAs (Decidable (Thread.Has _ _ _ t))

instance (id : ℕ) : DecidablePred (Banning id) := fun t =>
  @instDecidableOr _ _ inferInstance (by split <;> infer_instance)

instance (id : ℕ) : DecidablePred (Kicking id) := fun t =>
  @instDecidableAnd _ _ inferInstance (by split <;> infer_instance)

/-- Where there is no table, there is nobody. -/
theorem known_iff {id : ℕ} {w : World} : Known id w ↔
    (∀ g ∈ w.gates.keys, (w.gate g).users.lookup id ≠ none →
      (w.wd.entry id).map Watchdog.Record.gate = some g) ∧
    ∀ a ∈ w.agents.keys, (w.agent a).users.lookup id ≠ none →
      (w.wd.entry id).map Watchdog.Record.agent = some a := by
  constructor
  · exact fun h => ⟨fun g _ => h.gates g, fun a _ => h.agents a⟩
  · rintro ⟨hg, ha⟩
    refine ⟨fun g hne => hg g ?_ hne, fun a hne => ha a ?_ hne⟩
    · by_contra hk
      exact hne (by rw [World.gate, AList.lookup_eq_none.2 hk]; rfl)
    · by_contra hk
      exact hne (by rw [World.agent, AList.lookup_eq_none.2 hk]; rfl)

instance (id : ℕ) (w : World) : Decidable (Known id w) := decidable_of_iff' _ known_iff

instance (E : Env) (id : ℕ) (s : Sys) (e : Ev) : Decidable (StepApart E id s e) := by
  unfold StepApart
  split
  · infer_instance
  · split <;> infer_instance

instance (E : Env) (id : ℕ) (s : Sys) (e : Ev) : Decidable (Apart E id s e) :=
  decidable_of_iff' (((∃ t ∈ s.cos, Banning id t) → ∀ t ∈ s.cos, ¬ Lifts id t) ∧
      ((∃ t ∈ s.cos, Kicking id t) → ∀ t ∈ s.cos, ¬ Signs id s.shared t) ∧ StepApart E id s e)
    ⟨fun h => ⟨h.lifts, h.signs, h.step⟩, fun h => ⟨h.2.2, h.1, h.2.1⟩⟩

end Halieutics.Misc
