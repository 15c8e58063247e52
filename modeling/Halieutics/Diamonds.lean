/-
**Diamonds: the bags, the costs of the desks, and a restart.**

A desk costs diamonds.  The agent takes them from the creater before the desk is made, and on an AA
desk the desk service takes them from everybody else who sits down.  What was taken is an entry of
`d.costs` until it is paid back or the game begins, and every entry is also in `gamedb`, written by
`add_cost` and by `save_costs`; that is where a lobby that starts anew finds it.

This module adds the bags and `gamedb` to the services of `Halieutics.Mydesk`: every call of a desk
that is executed there takes diamonds out of a bag, puts them back, or writes to `gamedb`.

Main definitions:

* `Halieutics.Diamonds.World` — all services, the bags, and what has been written to `gamedb`;
* `Halieutics.Diamonds.serve`, `Halieutics.Diamonds.finish` — the calls of a desk, and a handler
  that is carried on to its end;
* `Halieutics.Diamonds.cliCreate`, `Halieutics.Diamonds.Next` — **the operations**;
* `Halieutics.Diamonds.freeDesk`, `Halieutics.Diamonds.restart` — **the lobby starts anew**;
* `Halieutics.Diamonds.outstanding` — what the live desks owe a user.
-/

import Halieutics.Mydesk

set_option relaxedAutoImplicit false
set_option autoImplicit false

namespace Halieutics.Diamonds

open LuaTable Redis

/-! ### The records -/

/-- The stored object of a desk, as far as the lobby reads it. -/
structure Dinfo where
  id : ℕ
  creater : ℕ
  guid : ℕ := 0

/-- A stored cost entry. -/
structure Charge where
  userid : ℕ
  count : ℤ
  deriving DecidableEq

/-- A cost entry as it is stored. -/
def charge (c : Cost) : Charge := ⟨c.userid, c.count⟩

/-- An operation on `gamedb`. -/
abbrev Op := Gamedb.Op Dinfo ℕ Charge

/-- The encodings of the records of `gamedb`. -/
structure Codecs where
  info : Codec Dinfo
  user : Codec ℕ
  cost : Codec Charge

/-- The records of `gamedb`; of a user object only the number is read. -/
def Codecs.records (c : Codecs) : Gamedb.Records Dinfo ℕ Charge :=
  ⟨c.info, c.user, c.cost, Dinfo.id, fun info guid => { info with guid := guid }, fun uid => uid⟩

/-- **All services**, with the number of diamonds in the bag of every user and what has been written
to `gamedb`, in order. -/
structure World where
  hall : Mydesk.World
  bags : ℕ → ℤ
  ops : List Op := []

/-- `gamedb`. -/
def World.store (c : Codecs) (w : World) : Store := Gamedb.run c.records w.ops

/-- A desk changes. -/
def World.setDesk (w : World) (deskid : ℕ) (d : Desk) :
    World := { w with hall := w.hall.setDesk deskid d }

/-! ### The calls of a desk -/

/-- The calls of a desk to `gamedb`. -/
def gamedb (deskid : ℕ) : Rpc → List Op
  | .addUser uid => [.addUser deskid uid]
  | .removeUser uid => [.removeUser deskid uid]
  | .addCost c => [.addCost deskid (charge c)]
  | .saveCosts cs => [.saveCosts deskid (cs.map charge)]
  | .start => [.start deskid]
  | .freeDesk => [.freeDesk deskid]
  | _ => []

/-- The calls of a desk that change a bag. -/
def bagged (bags : ℕ → ℤ) : Rpc → ℕ → ℤ
  | .useProp uid num _ => Function.update bags uid (useProp (bags uid) num).1
  | .addProp c => Function.update bags c.userid (bags c.userid + c.count)
  | _ => bags

/-- What a call is answered: `prop.use` tells what is left. -/
def told (bags : ℕ → ℤ) (d : Desk) (inp : Inp) : Pc → Inp
  | .sitUse u => { inp with ret := (useProp (bags (d.objs u).id) d.pay.total).2 }
  | _ => inp

/-- **The call in which the desk `d` is suspended at `pc`.** -/
def serve (w : World) (deskid : ℕ) (d : Desk) (inp : Inp) (pc : Pc) : World where
  hall := Mydesk.serve w.hall deskid d inp pc
  bags := (pc.rpc d inp).elim w.bags (bagged w.bags)
  ops := w.ops ++ (pc.rpc d inp).elim [] (gamedb deskid)

/-- **A handler of the desk `deskid`, carried on to its end.** -/
def finish (w : World) (deskid : ℕ) (o : Out) : List Inp → Option (World × Ret)
  | [] =>
      match o.res with
      | .ret r => some (w.setDesk deskid o.d, r)
      | .wait _ => none
  | inp :: inps =>
      match o.res with
      | .ret r => some (w.setDesk deskid o.d, r)
      | .wait pc =>
          let inp := told w.bags o.d inp pc
          finish (serve (w.setDesk deskid o.d) deskid o.d inp pc) deskid
            (Job.out o.d inp (.seg pc)) inps

/-- A request to the desk `deskid`. -/
def request (w : World) (deskid : ℕ) (r : Req) (inp : Inp) (inps : List Inp) :
    Option (World × Ret) :=
  finish w deskid (direct (w.hall.desks deskid) inp r) inps

/-! ### What the desks owe -/

/-- The counts of the entries of a user. -/
def owedBy (costs : List Cost) (userid : ℕ) : ℤ :=
  ((costs.filter fun c => c.userid == userid).map Cost.count).sum

/-- What a desk owes a user. -/
def deskOwes (d : Desk) (userid : ℕ) : ℤ := if d.live then owedBy d.costList userid else 0

/-! ### The operations -/

/-- What `cli:create` takes for a desk that costs `total`: what the number `bag` becomes, and what
is left. -/
def paid (bag total : ℤ) : ℤ × ℤ := if 0 < total then useProp bag total else (bag, total)

/-- **`cli:create`**: the diamonds are taken before the desk is made. -/
def cliCreate (w : World) (userid : ℕ) (info : Lobby.Info) (inp : Lobby.Inp) : World :=
  match w.hall.users userid with
  | none => w
  | some m =>
      if m.active.isSome then w
      else if w.hall.limit ≤ Userdb.getCreateDeskNum w.hall.dbs userid then w
      else
        match Mydesk.answered {} (Lobby.assign w.hall.lobby userid info inp) with
        | .ret l (.desk deskid desk) =>
            let w := { w with hall := { w.hall with lobby := l } }
            let used := paid (w.bags userid) desk.pay.total
            let w := { w with bags := Function.update w.bags userid used.1 }
            if 0 ≤ used.2 then
              if (w.hall.desks deskid).live then w
              else
                let hall := Mydesk.deskCreate w.hall ⟨deskid, desk⟩
                let hall := { hall with dbs := Userdb.createDesk hall.dbs userid deskid }
                { w with
                  hall := hall.setMydesk userid fun m =>
                    { m with create := m.create ++ [⟨deskid, desk⟩] }
                  ops := w.ops ++ [.addCost deskid ⟨desk.creater, desk.pay.total⟩,
                    .createDesk ⟨deskid, desk.creater, 0⟩] }
            else { w with hall := Mydesk.lobbyFree w.hall deskid }
        | o => { w with hall := { w.hall with lobby := o.d } }

/-- **`cli:join`**. -/
def cliJoin (w : World) (userid deskid : ℕ) (inp : Inp) (inps : List Inp) : Option World :=
  match w.hall.users userid with
  | none => some w
  | some m =>
      if m.active.isSome then some w
      else
        match w.hall.query deskid with
        | none => some w
        | some room =>
            (request w deskid (.join userid false) inp inps).map fun (w, r) =>
              if r = .nil then
                { w with hall := w.hall.setMydesk userid fun m => { m with active := some room } }
              else w

/-- **`cli:leave`**. -/
def cliLeave (w : World) (userid : ℕ) (inp : Inp) (inps : List Inp) : Option World :=
  match w.hall.users userid with
  | none => some w
  | some m =>
      match m.active with
      | none => some w
      | some room =>
          (request w room.id (.leave userid) inp inps).map fun (w, r) =>
            if r = .nil then
              { w with hall := w.hall.setMydesk userid fun m => { m with active := none } }
            else w

/-- **`cli:dismiss_apply`**, for a user of the desk. -/
def clientDismissApply (w : World) (deskid userid : ℕ) (inps : List Inp) : Option (World × Ret) :=
  match admits (w.hall.desks deskid) userid with
  | none => some (w, .raise "attempt to index a nil value")
  | some u => finish w deskid (dismissApply (w.hall.desks deskid) u) inps

/-- **`desk_monitor_work`** for a desk that the lobby knows. -/
def deskMonitorWork (w : World) (deskid : ℕ) (inp : Inp) (inps : List Inp) : Option World :=
  (request w deskid .forceDismiss inp inps).map fun (w, r) =>
    if r = .code 3 then { w with hall := Mydesk.lobbyFree w.hall deskid } else w

/-- **No diamonds are moved** from `d` to `d'`, and nobody comes. -/
structure Even (d d' : Desk) : Prop where
  live : d'.live = d.live
  costs : d'.costs = d.costs
  tabs : d'.tabs = d.tabs
  pay : d'.pay = d.pay
  id : ∀ u, (d'.objs u).id = (d.objs u).id
  push : ∀ u, (d.objs u).push = true → (d'.objs u).push = true
  usermap : ∀ uid u, d'.usermap.lookup uid = some u → d.usermap.lookup uid = some u

/-- **No push of a walk raises.** -/
def Returning (inps : List Inp) : Prop := ∀ inp ∈ inps, inp.raises = false

/-- **The operations**, each carried on to its end while no push raises, with the diamonds that it
spends: a lobby opens a game; users come, create, join, sit down, stand up, leave and dismiss; the
lobby's timer dismisses; a game goes on, and the first one of a desk is announced to `gamedb`; and a
game ends, after which `new_desk` frees the desk and pays nothing back. -/
inductive Next (w : World) : (ℕ → ℤ) → World → Prop
  | openGame (name : String) :
      Next w 0 { w with hall := { w.hall with lobby := (Lobby.openGame w.hall.lobby name).d } }
  | assign (userid : ℕ) : Next w 0 { w with hall := Mydesk.agentAssign w.hall userid }
  | create (userid : ℕ) (info : Lobby.Info) (inp : Lobby.Inp) :
    Next w 0 (cliCreate w userid info inp)
  | join {w' : World} (userid deskid : ℕ) (inp : Inp) (inps : List Inp) :
      Returning inps → cliJoin w userid deskid inp inps = some w' → Next w 0 w'
  | leave {w' : World} (userid : ℕ) (inp : Inp) (inps : List Inp) :
      Returning inps → cliLeave w userid inp inps = some w' → Next w 0 w'
  | staying {w' : World} {ret : Ret} (deskid : ℕ) (r : Req) (inp : Inp) (inps : List Inp) :
      Returning inps → Mydesk.staying r = true →
      request w deskid r inp inps = some (w', ret) → Next w 0 w'
  | dismissApply {w' : World} {ret : Ret} (deskid userid : ℕ) (inps : List Inp) :
      Returning inps → clientDismissApply w deskid userid inps = some (w', ret) → Next w 0 w'
  | monitorWork {w' : World} (deskid : ℕ) (inp : Inp) (inps : List Inp) :
      Returning inps → (w.hall.query deskid).isSome = true →
      deskMonitorWork w deskid inp inps = some w' → Next w 0 w'
  | plays (deskid : ℕ) (d : Desk) (first : Bool) : Mydesk.Plays (w.hall.desks deskid) d →
      Even (w.hall.desks deskid) d →
      Next w 0 { w.setDesk deskid d with ops := w.ops ++ if first then [.start deskid] else [] }
  | gameEnds {w' : World} {ret : Ret} (deskid : ℕ) (r : Ret) (inps : List Inp) :
      (w.hall.desks deskid).live = true →
      finish w deskid (Halieutics.freeDesk (w.hall.desks deskid) r) inps = some (w', ret) →
      Next w (deskOwes (w.hall.desks deskid)) w'

/-- **A run**: operations one after the other, with the diamonds that they spend. -/
inductive Run (w : World) : (ℕ → ℤ) → World → Prop
  | refl : Run w 0 w
  | tail {spent s : ℕ → ℤ} {w' w'' : World} : Run w spent w' → Next w' s w'' → Run w (spent + s) w''

/-- **The services as they start**: no sessions and no desks, and any number of diamonds in the
bags. -/
def start (lo n load limit : ℕ) (roompara : Bool → ℕ → Option ℤ) (select : ℕ → ℕ)
    (bags : ℕ → ℤ) : World where
  hall := Mydesk.start lo n load limit roompara select
  bags := bags

/-! ### The lobby starts anew -/

/-- The loop of the lobby's `free_desk` over the stored costs: `prop.add("room.back", …)`. -/
def recoverCosts (bags : ℕ → ℤ) (costs : List Charge) : ℕ → ℤ :=
  costs.foldl (fun bags c => Function.update bags c.userid (bags c.userid + c.count)) bags

/-- **The lobby's `free_desk`**, for a desk that no service has. -/
def freeDesk (c : Codecs) (w : World) (dinfo : Dinfo) : Option World :=
  (Gamedb.restoreDesk c.records (w.store c) dinfo.id).map fun r =>
    { hall := { w.hall with
        dbs := Userdb.dismiss (recoverUsers w.hall.dbs r.users) dinfo.creater dinfo.id
        lobby := { w.hall.lobby with buffer := w.hall.lobby.buffer ++ [dinfo.id] } }
      bags := recoverCosts w.bags r.costs
      ops := w.ops ++ [.freeDesk dinfo.id] }

/-- **`init_deskid_buffer`**: a desk that was active is freed; `none` when its object is missing. -/
def initDeskidBuffer (c : Codecs) (active : List ℕ) : ℕ → ℕ → World → Option World
  | _, 0, w => some w
  | id, n + 1, w =>
      if id ∈ active then
        (Gamedb.getDeskInfo c.records (w.store c) id).bind fun dinfo =>
          (freeDesk c w dinfo).bind (initDeskidBuffer c active (id + 1) n)
      else
        initDeskidBuffer c active (id + 1) n
          { w with hall := { w.hall with
              lobby := { w.hall.lobby with buffer := w.hall.lobby.buffer ++ [id] } } }

/-- The services after a crash: of all they knew only the databases are left. -/
def crashed (w : World) : World :=
  { w with hall :=
    { lobby := { load := w.hall.lobby.load, roompara := w.hall.lobby.roompara }
      dbs := w.hall.dbs
      limit := w.hall.limit } }

/-- **A restart**; the numbers of the desks are the `n` numbers from `lo` on. -/
def restart (c : Codecs) (lo n : ℕ) (w : World) : Option World :=
  initDeskidBuffer c (Gamedb.getActiveDesks (w.store c)) lo n (crashed w)

/-! ### What the live desks owe -/

/-- **What the live desks owe a user**: the counts of his outstanding entries. -/
def outstanding (lo n : ℕ) (w : World) (userid : ℕ) : ℤ :=
  ∑ id ∈ Finset.Ico lo (lo + n), deskOwes (w.hall.desks id) userid

end Halieutics.Diamonds
