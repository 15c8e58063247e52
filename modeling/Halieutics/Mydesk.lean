/-
**A user's desks, in the session and in the databases.**

The session of a user knows the desk he is at and the desks he has created: `user.mydesk`.  The user
store knows the same, and the lobby knows the desks.  `cli:create`, `cli:join` and `cli:leave` of
`service/agent.lua` change the session themselves; the user store is changed by the agent and by the
desk service, which also tells the agent, by `agent.standup` and through the lobby by
`agent.remove_mydesk`, when a user is put out or a desk is gone.  A session that is built anew, by
`restore_mydesk_from_db`, asks the user store and the lobby.

This module runs these handlers one after the other, each to its end.  The desks, the lobby and the
user store are those of the other modules: what a desk does between two yields is
`Halieutics.Job.out`, and each of its remote calls reaches the other services at once.

Main definitions:

* `Halieutics.Mydesk.MyDesk`, `Halieutics.Mydesk.World` — a session, and all services together;
* `Halieutics.Mydesk.serve`, `Halieutics.Mydesk.finish` — the calls of a desk, and a handler of a
  desk that is carried on to its end;
* `Halieutics.Mydesk.cliCreate`, `Halieutics.Mydesk.cliJoin`, `Halieutics.Mydesk.cliLeave` — the
  handlers of the agent;
* `Halieutics.Mydesk.restoreMydesk` — **the session that is built anew**;
* `Halieutics.Mydesk.Next` — **the operations**, in a session that is not interrupted.
-/

import Halieutics.DeskUnpaid
import Halieutics.DeskMembers
import Halieutics.LobbyAlloc

set_option relaxedAutoImplicit false
set_option autoImplicit false

namespace Halieutics.Mydesk

open LuaTable

/-! ### The records -/

/-- What the lobby tells about a desk: `getdesk`. -/
structure Room where
  id : ℕ
  desk : Lobby.Desk

/-- `user.mydesk`. -/
structure MyDesk where
  active : Option Room := none
  create : List Room := []

/-- The active desk has this number. -/
def MyDesk.isAt (m : MyDesk) (deskid : ℕ) : Bool := m.active.any fun r => r.id == deskid

/-- The numbers of the desks the user has created. -/
def MyDesk.ids (m : MyDesk) : List ℕ := m.create.map Room.id

/-- A number under which no desk is registered. -/
def noDesk : Desk := { Desk.create 0 0 ⟨false, 0⟩ 0 with live := false }

/-- **All services together**: `mydesk` of the users in `data.users` of the agents, the lobby,
`data.desks` of the desk services, the user store, and `data.config.limit.create`. -/
structure World where
  users : ℕ → Option MyDesk := fun _ => none
  lobby : Lobby.Data
  desks : ℕ → Desk := fun _ => noDesk
  dbs : Userdb.Dbs := {}
  limit : ℕ := 0

/-- A session changes, if the user has one. -/
def World.setMydesk (w : World) (userid : ℕ) (f : MyDesk → MyDesk) : World :=
  { w with users := Function.update w.users userid ((w.users userid).map f) }

/-- A desk changes. -/
def World.setDesk (w : World) (deskid : ℕ) (d : Desk) : World :=
  { w with desks := Function.update w.desks deskid d }

/-- **`lobby.query`**. -/
def World.query (w : World) (deskid : ℕ) : Option Room :=
  (w.lobby.deskmap.lookup deskid).map fun e => ⟨deskid, e⟩

/-- `user.mydesk`, empty for a user without a session. -/
def World.mydesk (w : World) (userid : ℕ) : MyDesk := (w.users userid).getD {}

/-! ### The notifications of the agent -/

/-- **`agent.standup`**. -/
def agentStandup (w : World) (userid : ℕ) : World :=
  w.setMydesk userid fun m => { m with active := none }

/-- **`agent.remove_mydesk`**. -/
def agentRemoveMydesk (w : World) (userid deskid : ℕ) : World :=
  w.setMydesk userid fun m =>
    { active := if m.isAt deskid then none else m.active
      create := m.create.eraseP fun r => r.id == deskid }

/-- **`desk.remove_mydesk`**. -/
def removeMydesk (w : World) (deskid : ℕ) : World :=
  if (w.desks deskid).live then agentRemoveMydesk w (w.desks deskid).creater deskid else w

/-- **`lobby.free`**, with its call of `remove_mydesk`. -/
def lobbyFree (w : World) (deskid : ℕ) : World :=
  match Lobby.free w.lobby deskid with
  | .ret l _ => { w with lobby := l }
  | .wait l pc =>
      let w := removeMydesk { w with lobby := l } deskid
      { w with lobby := (Lobby.resume w.lobby {} pc).d }

/-! ### The desks -/

/-- **A call of the desk `deskid`** reaches the agent, the lobby or the user store. -/
def served (w : World) (deskid : ℕ) : Rpc → World
  | .agentStandup userid => agentStandup w userid
  | .lobbyFree => lobbyFree w deskid
  | r => { w with dbs := r.userdb deskid w.dbs }

/-- The call in which the desk `d` is suspended at `pc`. -/
def serve (w : World) (deskid : ℕ) (d : Desk) (inp : Inp) (pc : Pc) : World :=
  match pc.rpc d inp with
  | none => w
  | some r => served w deskid r

/-- **A handler of the desk `deskid`, carried on to its end**: one input for each segment that
follows.  There is no result when the inputs run out before. -/
def finish (w : World) (deskid : ℕ) (o : Out) : List Inp → Option (World × Ret)
  | [] =>
      match o.res with
      | .ret r => some (w.setDesk deskid o.d, r)
      | .wait _ => none
  | inp :: inps =>
      match o.res with
      | .ret r => some (w.setDesk deskid o.d, r)
      | .wait pc =>
          finish (serve (w.setDesk deskid o.d) deskid o.d inp pc) deskid
            (Job.out o.d inp (.seg pc)) inps

/-- A request to the desk `deskid`. -/
def request (w : World) (deskid : ℕ) (r : Req) (inp : Inp) (inps : List Inp) :
    Option (World × Ret) :=
  finish w deskid (direct (w.desks deskid) inp r) inps

/-- The requests that take nobody to a desk or away from it. -/
def staying : Req → Bool
  | .sitdown _ _ | .standup _ | .afk _ | .sceneinfo _ => true
  | _ => false

/-- **`cli:dismiss_apply`**, which `desk.client` passes on for a user of the desk.  A vote that it
begins is not part of the request. -/
def clientDismissApply (w : World) (deskid userid : ℕ) (inps : List Inp) : Option (World × Ret) :=
  match admits (w.desks deskid) userid with
  | none => some (w, .raise "attempt to index a nil value")
  | some u => finish w deskid (dismissApply (w.desks deskid) u) inps

/-- **`desk_monitor_work`** for a desk that the lobby knows. -/
def deskMonitorWork (w : World) (deskid : ℕ) (inp : Inp) (inps : List Inp) : Option World :=
  (request w deskid .forceDismiss inp inps).map fun (w, r) =>
    if r = .code 3 then lobbyFree w deskid else w

/-! ### The agents -/

/-- A handler of the lobby that has returned: the call it waited for has been answered. -/
def answered (inp : Lobby.Inp) : Lobby.Out → Lobby.Out
  | .ret d r => .ret d r
  | .wait d pc => Lobby.resume d inp pc

/-- `desk.create`, which registers the desk and announces it to the lobby. -/
def deskCreate (w : World) (room : Room) : World :=
  let pay : Pay := ⟨room.desk.pay.AA, room.desk.pay.total⟩
  let w := w.setDesk room.id (Desk.create room.id room.desk.creater pay room.desk.info.timelimit)
  { w with lobby := (Lobby.monitorDesk w.lobby room.id).d }

/-- **`cli:create`**; `left` is what `prop.use` answers. -/
def cliCreate (w : World) (userid : ℕ) (info : Lobby.Info) (inp : Lobby.Inp) (left : ℤ) : World :=
  match w.users userid with
  | none => w
  | some m =>
      if m.active.isSome then w
      else if w.limit ≤ Userdb.getCreateDeskNum w.dbs userid then w
      else
        match answered {} (Lobby.assign w.lobby userid info inp) with
        | .ret l (.desk deskid desk) =>
            let w := { w with lobby := l }
            if 0 ≤ (if 0 < desk.pay.total then left else desk.pay.total) then
              -- `desk.create` asserts that the number is not in use
              if (w.desks deskid).live then w
              else
                let w := deskCreate w ⟨deskid, desk⟩
                let w := { w with dbs := Userdb.createDesk w.dbs userid deskid }
                w.setMydesk userid fun m => { m with create := m.create ++ [⟨deskid, desk⟩] }
            else lobbyFree w deskid
        | o => { w with lobby := o.d }

/-- **`cli:join`**. -/
def cliJoin (w : World) (userid deskid : ℕ) (inp : Inp) (inps : List Inp) : Option World :=
  match w.users userid with
  | none => some w
  | some m =>
      if m.active.isSome then some w
      else
        match w.query deskid with
        | none => some w
        | some room =>
            (request w deskid (.join userid false) inp inps).map fun (w, r) =>
              if r = .nil then w.setMydesk userid fun m => { m with active := some room } else w

/-- **`cli:leave`**. -/
def cliLeave (w : World) (userid : ℕ) (inp : Inp) (inps : List Inp) : Option World :=
  match w.users userid with
  | none => some w
  | some m =>
      match m.active with
      | none => some w
      | some room =>
          (request w room.id (.leave userid) inp inps).map fun (w, r) =>
            if r = .nil then w.setMydesk userid fun m => { m with active := none } else w

/-! ### Sessions -/

/-- The second loop of `restore_mydesk_from_db`, over the desks the user has created. -/
def restoreCreate (userid : ℕ) (acd : Option ℕ) : World → List ℕ → World
  | w, [] => w
  | w, id :: ids =>
      if some id = acd then restoreCreate userid acd w ids
      else
        match w.query id with
        | some room =>
            restoreCreate userid acd
              (w.setMydesk userid fun m => { m with create := m.create ++ [room] }) ids
        | none => restoreCreate userid acd { w with dbs := Userdb.dismiss w.dbs userid id } ids

/-- **`restore_mydesk_from_db`**. -/
def restoreMydesk (w : World) (userid : ℕ) : World :=
  let mydesk := Userdb.getMydesk w.dbs userid
  let m : MyDesk :=
    match mydesk.1.bind w.query with
    | some room => { active := some room, create := [room] }
    | none => {}
  restoreCreate userid mydesk.1 { w with users := Function.update w.users userid (some m) } mydesk.2

/-- **`agent.assign`**: a user comes, or comes back. -/
def agentAssign (w : World) (userid : ℕ) : World :=
  match w.users userid with
  | some _ => w
  | none => restoreMydesk w userid

/-- The agent forgets a user: `agent.kick`, or nobody has come back. -/
def forget (w : World) (userid : ℕ) : World :=
  { w with users := Function.update w.users userid none }

/-- **The session that would be built anew.** -/
def rebuilt (w : World) (userid : ℕ) : MyDesk := (restoreMydesk w userid).mydesk userid

/-! ### Runs -/

/-- What the game does with a desk between the operations: the seats, and who is at the desk,
stay. -/
structure Plays (d d' : Desk) : Prop where
  creater : d'.creater = d.creater
  live : d'.live = d.live
  seats : SameSeats d d'
  source : ∀ u, (d'.objs u).source = (d.objs u).source

/-- **The operations**, each carried on to its end, while the session of the user `me` is not
interrupted: the requests of all users, the dismissal of a desk by its creater, by its users or by
the lobby's timer, the end of a game, and what the game does meanwhile. -/
inductive Next (me : ℕ) (w : World) : World → Prop
  | openGame (name : String) : Next me w { w with lobby := (Lobby.openGame w.lobby name).d }
  | create (userid : ℕ) (info : Lobby.Info) (inp : Lobby.Inp) (left : ℤ) :
      Next me w (cliCreate w userid info inp left)
  | join {w' : World} (userid deskid : ℕ) (inp : Inp) (inps : List Inp) :
      cliJoin w userid deskid inp inps = some w' → Next me w w'
  | leave {w' : World} (userid : ℕ) (inp : Inp) (inps : List Inp) :
      cliLeave w userid inp inps = some w' → Next me w w'
  | staying {w' : World} {ret : Ret} (deskid : ℕ) (r : Req) (inp : Inp) (inps : List Inp) :
      staying r = true → request w deskid r inp inps = some (w', ret) → Next me w w'
  | dismissApply {w' : World} {ret : Ret} (deskid userid : ℕ) (inps : List Inp) :
      clientDismissApply w deskid userid inps = some (w', ret) → Next me w w'
  | monitorWork {w' : World} (deskid : ℕ) (inp : Inp) (inps : List Inp) :
    (w.query deskid).isSome = true →
      deskMonitorWork w deskid inp inps = some w' → Next me w w'
  | freeDesk {w' : World} {ret : Ret} (deskid : ℕ) (r : Ret) (inps : List Inp) :
      (w.desks deskid).live = true → finish w deskid (freeDesk (w.desks deskid) r) inps =
      some (w', ret) →
        Next me w w'
  | plays (deskid : ℕ) (d : Desk) : Plays (w.desks deskid) d → Next me w (w.setDesk deskid d)
  | assign (userid : ℕ) : Next me w (agentAssign w userid)
  | forget (userid : ℕ) : userid ≠ me → Next me w (forget w userid)

/-- **The services as they start**: no sessions, no desks, and nothing in the user store. -/
def start (lo n load limit : ℕ) (roompara : Bool → ℕ → Option ℤ) (select : ℕ → ℕ) : World where
  lobby := (Lobby.started lo n load roompara fun _ => false).shared
  dbs := { select := select }
  limit := limit

/-- **A run**: operations one after the other. -/
abbrev Run (me : ℕ) (w w' : World) : Prop := Relation.ReflTransGen (Next me) w w'

end Halieutics.Mydesk
