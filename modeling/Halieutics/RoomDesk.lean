/-
**The desk service: `service/game/roomdesk.lua`.**

Every handler is translated up to its next yield.  A point at which a coroutine of the service can
be suspended is a value of `Halieutics.Pc`: it names the remote call (or the wait) the coroutine is
in and holds its local variables.  Functions that yield are called from several places, so a point
inside one of them also holds what its caller does next (`Halieutics.AfterBack` and its kin).

A remote call takes effect in the segment that resumes the coroutine: between the call and the
reply the desk cannot observe whether it has been executed.

Main definitions:

* `Halieutics.Pc`, `Halieutics.Pc.rpc` — the points of suspension, and the call made there;
* `Halieutics.join`, `Halieutics.sitdown`, `Halieutics.standup`, `Halieutics.leave`,
  `Halieutics.forceDismiss`, `Halieutics.cliReady`, `Halieutics.dismissApply`, … — the first
  segments of the handlers;
* `Halieutics.backRoomcard`, `Halieutics.freeDesk`, `Halieutics.kickUser`, … — the functions they
  share;
* `Halieutics.segment` — **the segment of a suspended coroutine**.
-/

import Halieutics.FishDesk

set_option relaxedAutoImplicit false
set_option autoImplicit false

namespace Halieutics

open LuaTable

/-! ### Points of suspension -/

/-- What follows `desk.leave`: its answer, or the rest of `cli:dismiss_apply`. -/
inductive AfterLeave where
  | ret
  | dismissApply (u : Ref)

/-- What follows `desk.standup`: its answer, or the rest of `cli:dismiss_apply`. -/
inductive AfterStandup where
  | ret
  | dismissApply (u : Ref)

/-- What follows `back_roomcard`: the rest of `desk.standup`, or `free_desk`. -/
inductive AfterBack where
  | standup (u : Ref) (k : AfterStandup)
  | free (r : Ret)

/-- What follows `kick_user`: the end of `desk.leave`, or the loop of `free_desk`. -/
inductive AfterKick where
  | leave (k : AfterLeave)
  | free (r : Ret)

/-- The local variables of `back_roomcard`: the table it walks, the user it pays back (`none` for
all), the index of the walk, the new list `costs`, and what follows. -/
structure Walk where
  tab : ℕ
  userid : Option ℕ
  i : ℕ
  costs : List Cost
  k : AfterBack

/-- **The points of suspension.** -/
inductive Pc where
  | monitor
  | joinAdd (u : Ref)
  | joinDb (u : Ref)
  | sitAdd (u : Ref) (seat : ℤ)
  | sitUse (u : Ref)
  | sitRecord (u : Ref)
  | sitCost (u : Ref) (c : Cost)
  | backRecord (w : Walk) (c : Cost)
  | backAdd (w : Walk) (c : Cost)
  | backQuery (w : Walk) (c : Cost)
  | backPush (w : Walk) (c : Cost)
  | backSave (w : Walk)
  | standRemove (uid : ℕ) (k : AfterStandup)
  | kickRemove (uid : ℕ) (k : AfterKick)
  | kickLeave (uid : ℕ) (k : AfterKick)
  | dismissAgent (uid : ℕ)
  | freeAgent (u : Ref) (r : Ret)
  | freeDismiss (r : Ret)
  | freeGamedb (r : Ret)
  | freeLobby (r : Ret)
  | ready
  | start
  | config
  | banker
  | gamerun
  | gameend
  | result (scores : List ℤ)
  | resultErr (scores : List ℤ)
  | voteStart
  | vote (usern : ℕ)
  | begin (u : Ref) (cmd : Cmd)
  | fish (pc : FishPc)

/-- The remote call a coroutine is suspended in; `none` where it sleeps. -/
def Pc.rpc (d : Desk) (inp : Inp) : Pc → Option Rpc
  | .monitor => some .monitorDesk
  | .joinAdd u => some (.addUser (d.objs u).id)
  | .joinDb u => some (.join (d.objs u).id)
  | .sitAdd u _ => some (.addUser (d.objs u).id)
  | .sitUse u => some (.useProp (d.objs u).id d.pay.total inp.ret)
  | .sitRecord u => some (.addRecord (d.objs u).id d.pay.total)
  | .sitCost _ c => some (.addCost c)
  | .backRecord _ c => some (.addRecord c.userid c.count)
  | .backAdd _ c => some (.addProp c)
  | .backQuery _ c => some (.queryAgent c.userid)
  | .backPush _ c => some (.pushAccount c.userid)
  | .backSave w => some (.saveCosts w.costs)
  | .standRemove uid _ => some (.removeUser uid)
  | .kickRemove uid _ => some (.removeUser uid)
  | .kickLeave uid _ => some (.leave uid)
  | .dismissAgent uid => some (.agentStandup uid)
  | .freeAgent u _ => some (.agentStandup (d.objs u).id)
  | .freeDismiss _ => some (.dismiss d.creater)
  | .freeGamedb _ => some .freeDesk
  | .freeLobby _ => some .lobbyFree
  | .start => some .start
  | .config => some .config
  | .result scores => some (.saveGameResult scores)
  | .resultErr scores => some (.saveGameResult scores)
  | .fish (.stock _) => some .getStock
  | .fish (.miss c) => some (.updateStock c.multiple)
  | .fish (.pay c) => some (.updateStock (c.multiple - c.score))
  | .fish (.sweep _ score) => some (.updateStock score)
  | .ready | .banker | .gamerun | .gameend | .voteStart | .vote _ | .begin _ _ => none

/-- How a segment ends. -/
inductive Res where
  | ret (r : Ret)
  | wait (pc : Pc)

/-- What a segment leaves behind: the desk, how it ended, and the coroutines it forked. -/
structure Out where
  d : Desk
  res : Res
  forks : List Pc := []

namespace Out

/-- The coroutine has finished. -/
def ret (d : Desk) (r : Ret) : Out := ⟨d, .ret r, []⟩

/-- The coroutine is suspended at `pc`. -/
def wait (d : Desk) (pc : Pc) : Out := ⟨d, .wait pc, []⟩

/-- A segment of a game handler. -/
def fish : FishOut → Out
  | .ret d r => ret d r
  | .wait d pc => wait d (.fish pc)

end Out

/-! ### Leaving and freeing -/

/-- The user `u` is dropped from the tables of the desk. -/
def drop (d : Desk) (u : Ref) : Desk :=
  { d with
    usermap := d.usermap.erase (d.objs u).id
    audiences := d.audiences.erase (d.objs u).id }.setUser u fun x => { x with audience := none }

/-- `kick_user`. -/
def kickUser (d : Desk) (u : Ref) (k : AfterKick) : Out :=
  .wait (drop d u) (.kickRemove (d.objs u).id k)

/-- The loop of `free_desk` over `d.usermap`, then the calls that follow it.  Somebody who joins
meanwhile is kicked, too; `pairs` may also miss him, or raise. -/
def freeLoop (d : Desk) (r : Ret) : Out :=
  match vals d.usermap with
  | [] => .wait d (.freeDismiss r)
  | u :: _ => if (d.objs u).source then .wait d (.freeAgent u r) else kickUser d u (.free r)

/-- **`free_desk`**. -/
def freeDesk (d : Desk) (r : Ret) : Out := freeLoop (d.mark .freeDesk) r

/-- What follows `desk.leave`, which answered `r`. -/
def afterLeave (d : Desk) (r : Ret) : AfterLeave → Out
  | .ret => .ret d r
  | .dismissApply u =>
      if (d.objs u).source then .wait d (.dismissAgent (d.objs u).id) else .ret d .dismissStandup

/-- **`desk.leave`**. -/
def leave (d : Desk) (userid : ℕ) (k : AfterLeave) : Out :=
  if !d.live then .ret d (.raise "[desk.leave] no desk.")
  else
    match d.usermap.lookup userid with
    | none => .ret d (.raise "attempt to index a nil value (local 'user')")
    | some u =>
        match (d.objs u).audience with
        | some false => afterLeave d (.err .standupBeforeLeave) k
        | some true => kickUser d u (.leave k)
        | none => kickUser { d with sync := d.sync.add (d.objs u).seat false } u (.leave k)

/-! ### Standing up -/

/-- What follows `desk.standup`, which answered `r`. -/
def afterStandup (d : Desk) (r : Ret) : AfterStandup → Out
  | .ret => .ret d r
  | .dismissApply u => leave d (d.objs u).id (.dismissApply u)

/-- The user `v` gives the seat back and becomes an audience. -/
def unseat (d : Desk) (seat : ℤ) (v : Ref) : Desk :=
  { d with
    audiences := d.audiences.insert (d.objs v).id ()
    users := d.users.erase seat
    freeseats := d.freeseats ++ [seat] }.setUser v
      fun x => { x with audience := some true, seat := -1 }

/-- `actstandup`. -/
def actstandup (d : Desk) (seat : ℤ) (k : AfterStandup) : Out :=
  match d.users.lookup seat with
  | none => afterStandup d .ok k
  | some v =>
      if seat = -1 then afterStandup d .ok k
      else .wait (unseat d seat v) (.standRemove (d.objs v).id k)

/-- What follows `back_roomcard`. -/
def afterBack (d : Desk) : AfterBack → Out
  | .standup u k => actstandup d (d.objs u).seat k
  | .free r => freeDesk d r

/-! ### Paying back -/

/-- The entry is paid back when the walk is for its user, or for all. -/
def selects (userid : Option ℕ) (c : Cost) : Bool :=
  match userid with
  | none => true
  | some id => id == c.userid

/-- The walk of `back_roomcard` over the rest `cs` of its table, up to the next entry to pay back
or to the end of the table. -/
def walk (d : Desk) (w : Walk) : List Cost → Out
  | [] => .wait d (.backSave w)
  | c :: cs =>
      if selects w.userid c then .wait d (.backRecord w c)
      else walk d { w with i := w.i + 1, costs := w.costs ++ [c] } cs

/-- The walk goes on from its index.  The table may have grown meanwhile. -/
def walkOn (d : Desk) (w : Walk) : Out := walk d w ((d.tabs w.tab).drop w.i)

/-- The walk begins with the first entry of `d.costs`. -/
def startWalk (d : Desk) (userid : Option ℕ) (k : AfterBack) : Out :=
  walkOn d { tab := d.costs, userid := userid, i := 0, costs := [], k := k }

/-- **`back_roomcard`**. -/
def backRoomcard (d : Desk) (userid : Option ℕ) (k : AfterBack) : Out :=
  if d.costList = [] then afterBack d k else startWalk d userid k

/-- `d.costs = costs`: the list built by the walk becomes the list of the desk. -/
def replaceCosts (d : Desk) (costs : List Cost) : Desk :=
  { d with tabs := Function.update d.tabs d.ntab costs, costs := d.ntab, ntab := d.ntab + 1 }

/-- **`desk.standup`**. -/
def standup (d : Desk) (userid : ℕ) (k : AfterStandup) : Out :=
  if !d.live then .ret d (.raise "[desk.standup] no desk.")
  else if d.started then
    afterStandup d (.err .alreadyInGame) k
  else
    match d.usermap.lookup userid with
    | none => .ret d (.raise "can't find user? ")
    | some u =>
        if d.pay.AA && (d.creater != (d.objs u).id) then
          backRoomcard d (some (d.objs u).id) (.standup u k)
        else actstandup d (d.objs u).seat k

/-- **`desk.force_dismiss`**. -/
def forceDismiss (d : Desk) : Out :=
  if !d.live then .ret d (.code 3)
  else if d.isstart then .ret d (.code 2)
  else
    let d := { d with dimiss := true }
    if (vals d.usermap).any fun u => !(d.objs u).android && !(d.objs u).push then
      .ret d (.raise "attempt to call a nil value (field 'push')")
    else backRoomcard d none (.free (.code 1))

/-! ### Joining and sitting down -/

/-- The end of the game is too near to join: `timeleft / timelimit < 0.1`. -/
def tooShort (d : Desk) (now : ℕ) : Bool :=
  match d.starttime with
  | none => false
  | some start => decide (10 * ((start : ℤ) + d.timelimit - now) < d.timelimit)

/-- A new user object enters the tables of the desk. -/
def joinin (d : Desk) (user : User) : Desk :=
  { d with
    objs := Function.update d.objs d.nobj user
    nobj := d.nobj + 1
    usermap := d.usermap.insert user.id d.nobj
    audiences := d.audiences.insert user.id ()
    androidid := if !user.android && d.androidid.isNone then some user.id else d.androidid }

/-- **`desk.join`** with `joinin` up to its first yield. -/
def join (d : Desk) (id : ℕ) (android : Bool) (inp : Inp) : Out :=
  if !d.live then .ret d (.raise "no desk ")
  else if d.maxplayer + d.maxaudience ≤ (vals d.users).length + (vals d.audiences).length then
    .ret d (.err .deskFull)
  else if (d.usermap.lookup id).isSome then .ret d (.err .alreadyJoined)
  else if tooShort d inp.now then .ret d (.err .gameTooShort)
  else
    let user : User :=
      { id := id, android := android, seat := -1, source := !android, audience := some true
        master := d.creater == id, game := if android then some 0 else none }
    .wait (joinin d user) (.joinAdd d.nobj)

/-- `getfreeseat`: the first seat from `start` on, and the other seats. -/
def getfreeseat (seats : List ℤ) (start : ℤ) : Option (ℤ × List ℤ) :=
  (seats.find? fun v => decide (start ≤ v)).map fun v => (v, seats.erase v)

/-- `remtableitem`. -/
def remtableitem (seats : List ℤ) (item : ℤ) : Option (ℤ × List ℤ) :=
  if item ∈ seats then some (item, seats.erase item) else none

/-- The user `u` is assigned a seat; `rest` is what is left of `d.freeseats`. -/
def assignSeat (d : Desk) (u : Ref) (seat : ℤ) (rest : List ℤ) : Desk :=
  { d with freeseats := rest, sync := d.sync.add seat true }.setUser u
    fun x => { x with game := some 0, seat := seat, audience := some false }

/-- **`init_user`** up to its yield: the seat that was chosen, or the last free one. -/
def initUser (d : Desk) (u : Ref) : Option (ℤ × List ℤ) → Out
  | some (seat, rest) => .wait (assignSeat d u seat (rest.erase seat)) (.sitAdd u seat)
  | none =>
      match d.freeseats.getLast? with
      | some seat => .wait (assignSeat d u seat d.freeseats.dropLast) (.sitAdd u seat)
      | none => .ret d (.raise "bad argument #4 to 'format'")

/-- **`desk.sitdown`** up to the yield in `init_user`. -/
def sitdown (d : Desk) (userid : ℕ) (withseat : Option ℤ) : Out :=
  if !d.live then .ret d (.raise "assertion failed!")
  else if d.hasSeat userid then .ret d (.err .repeatSeat)
  else
    match d.usermap.lookup userid with
    | none => .ret d (.err .notJoined)
    | some u =>
        if d.freeseats = [] then .ret d (.err .seatFull)
        else if (d.objs u).android then initUser d u (getfreeseat d.freeseats 4)
        else
          match withseat with
          | none => initUser d u (getfreeseat d.freeseats 1)
          | some seat =>
              match remtableitem d.freeseats seat with
              | none => .ret d (.err .seatTaken)
              | some p => initUser d u (some p)

/-- The end of `desk.sitdown`. -/
def sitEnd (d : Desk) (u : Ref) : Out :=
  let d := if d.isstart then d.setUser u fun x => { x with ready := true } else d
  .ret d (.seat (d.objs u).seat)

/-- The end of `init_user`: the user `u` sits at its seat. -/
def seatUser (d : Desk) (u : Ref) (seat : ℤ) : Desk :=
  { d with
    users := d.users.insert seat u
    audiences := d.audiences.erase (d.objs u).id }.mark (.seated (d.objs u).id)

/-- What follows `init_user` in `desk.sitdown`, up to `prop.use`. -/
def sitSeated (d : Desk) (u : Ref) (seat : ℤ) : Out :=
  let d := seatUser d u seat
  if d.pay.AA && (d.creater != (d.objs u).id) && decide (0 < d.pay.total) then .wait d (.sitUse u)
  else sitEnd d u

/-- A cost entry is put on `d.costs`. -/
def addCost (d : Desk) (c : Cost) : Desk :=
  { d with
    tabs := Function.update d.tabs d.costs (d.costList ++ [c])
    ncost := d.ncost + 1 }.mark (.cost c)

/-- `desk_cost_backup` up to its yield. -/
def deskCostBackup (d : Desk) (u : Ref) : Out :=
  let c : Cost := ⟨(d.objs u).id, d.pay.total, d.ncost⟩
  .wait (addCost d c) (.sitCost u c)

/-! ### Connection of the users -/

/-- `changeandroidid`: the delegate of the androids, when it is missing or has just gone. -/
def changeandroidid (d : Desk) (afkuid : ℕ) : Desk :=
  if d.androidid = none ∨ d.androidid = some afkuid then
    { d with androidid := ((vals d.usermap).find? fun u =>
        !(d.objs u).afk && !(d.objs u).android).map fun u => (d.objs u).id }
  else d

/-- **`desk.afk`**. -/
def afk (d : Desk) (userid : ℕ) : Out :=
  if !d.live then .ret d .nil
  else
    match d.usermap.lookup userid with
    | none => .ret d (.raise "mydesk.active wrong, desk has no user ")
    | some u => .ret (changeandroidid (d.setUser u fun x => { x with afk := true }) userid) .nil

/-- **`desk.sceneinfo`**, as far as it changes the desk.  After the game the desk has no method
`mygame` any more. -/
def sceneinfo (d : Desk) (uid : ℕ) : Out :=
  if !d.live then .ret d (.err .deskNoexists)
  else if d.gaming = some false then
    .ret d (.raise "attempt to call a nil value (method 'mygame')")
  else
    match d.usermap.lookup uid with
    | none => .ret d (.raise "attempt to index a nil value (local 'user')")
    | some u =>
        .ret { d.setUser u fun x => { x with source := true, afk := false } with
          androidid := some (d.androidid.getD uid) } .nil

/-! ### The coroutine of the desk -/

/-- The scores `gameover` collects; `none` when it raises. -/
def gameoverScores (d : Desk) : Option (List ℤ) :=
  if d.audiences.keys.all fun uid => (d.usermap.lookup uid).isSome then
    (vals d.users).mapM fun u => (d.objs u).game
  else none

/-- The end of the error handler of `new_desk`. -/
def afterError (d : Desk) : Out :=
  if d.count = 0 then backRoomcard d none (.free .nil) else freeDesk d .nil

/-- `desk:force`. -/
def force (d : Desk) : Desk :=
  match d.mygame with
  | none => d
  | some g => { d with game := some { g with sync := g.sync.abandon } }

/-- The error handler of `new_desk` for an error without a handler of its own: `gameover` for the
game as it is.  When `d.gaming` is `false` the desk has no method `force` any more, and the handler
itself raises. -/
def unhandled (d : Desk) : Out :=
  if d.gaming = some false then .ret d (.raise "attempt to call a nil value (method 'force')")
  else
    match d.mygame with
    | none => afterError d
    | some _ =>
        let d := force d
        match gameoverScores d with
        | none => .ret d (.raise "attempt to index a nil value (local 'u')")
        | some scores => .wait (d.mark .gameover) (.resultErr scores)

/-- The coroutine sleeps on `d.sync`. -/
def sleepOn (d : Desk) (st : St) (pc : Pc) : Out :=
  match d.sync.wait st with
  | none => unhandled d
  | some s => .wait { d with sync := s } pc

/-- `desk:init` up to the calls that fetch the configuration. -/
def gameInit (d : Desk) : Out := .wait { d with game := some {} } .config

/-- `do_game` up to the first yield in `gamestart`. -/
def doGame (d : Desk) : Out :=
  let d := { d with count := d.count + 1 }.mark .doGame
  if d.count = 1 then if d.isstart then gameInit d else .wait d .start
  else sleepOn d .banker .banker

/-- `determin_banker`; `none` when it raises because nobody is seated. -/
def determinBanker (d : Desk) (roll : ℕ) : Option Desk :=
  let robbed := (vals d.users).filter fun u => (d.objs u).grabbed
  let seats := (if robbed = [] then vals d.users else robbed).map fun u => (d.objs u).seat
  (seats[roll % seats.length]?).map fun seat =>
    { d with
      banker := seat
      objs := fun u => if u ∈ robbed then { d.objs u with grabbed := false } else d.objs u }

/-- `desk:start` up to the wait for the end of the game. -/
def gameRun (d : Desk) (inp : Inp) : Out :=
  let d := { d with gaming := some true, starttime := some inp.now }
  match d.mygame with
  | none => unhandled d
  | some g =>
      match g.sync.wait .gameend with
      | none => unhandled d
      | some s =>
          .wait { d with game := some { g with
            roles := g.roles.map fun r => r.buildFish inp.now inp.kinds
            timers := true
            sync := s } } .gameend

/-- `gameend`, and `gameover` up to its yield. -/
def gameStop (d : Desk) : Out :=
  match d.game with
  | none => unhandled d
  | some g =>
      let d := { d with
        game := some { g with roles := g.roles.map Roles.freeAll, timers := false, ended := true }
        gaming := some false }
      match gameoverScores d with
      | none => unhandled d
      | some scores => .wait (d.mark .gameover) (.result scores)

/-- The end of `start_desk` and of `new_desk`. -/
def deskEnd (d : Desk) : Out :=
  let d := { d with isstart := false }
  match d.err with
  | none => freeDesk d .nil
  | some _ => afterError d

/-! ### Votes -/

/-- `game_interrupt`. -/
def gameInterrupt (d : Desk) (err : DeskErr) : Desk :=
  if d.gaming = some true then { force d with err := some err } else d

/-- `wait_dismiss` up to its wait. -/
def voteStart (d : Desk) : Out :=
  match d.dismiss with
  | .vote v =>
      let voters := (vals d.users).filter fun u => (d.objs u).seat != v.applyer
      if voters.any fun u => !(d.objs u).push then
        .ret d (.raise "attempt to call a nil value (field 'push')")
      else
        let v := voters.foldl (fun v u =>
          { v with
            sync := v.sync.add (d.objs u).seat true
            wait := v.wait.insert (d.objs u).seat (d.objs u).id }) v
        match v.sync.wait .dismiss with
        | none => .ret d (.raise "already has a wait")
        | some s => .wait { d with dismiss := .vote { v with sync := s } }
            (.vote (vals d.users).length)
  | _ => .ret d (.raise "attempt to index a nil value (field 'dismiss')")

/-- The outcome of a vote: the game is interrupted when all agreed, or when the time ran out and
most had agreed. -/
def voteOutcome (d : Desk) (v : Vote) (usern : ℕ) : Desk :=
  match v.sync.driver with
  | some .message => gameInterrupt d .dismissbyuser
  | some .timeout =>
      if usern < 2 * (v.reply.length + 1) then gameInterrupt d .dismissbytimeout else d
  | _ => d

/-- `wait_dismiss` after its wait. -/
def voteEnd (d : Desk) (usern : ℕ) : Out :=
  match d.dismiss with
  | .vote v => .ret { voteOutcome d v usern with dismiss := .no } .nil
  | _ => .ret d .nil

/-! ### Client commands -/

/-- **`cli:ready`**: the master starts the game when every other seated player is ready. -/
def cliReady (d : Desk) (u : Ref) : Out :=
  let user := d.objs u
  if user.audience = some true then .ret d (.err .invalidRequest)
  else if user.master then
    let others := (vals d.users).filter fun v => (d.objs v).id != user.id
    if others.any fun v => !(d.objs v).ready then .ret d (.err .userNotReady)
    else if others = [] then .ret d (.err .deskNoUser)
    else
      let d := d.setUser u fun x => { x with ready := true }
      let p := d.sync.wakeup .ready
      .ret { d with sync := p.1 }
        (if p.2 then .nil else .raise "attempt to index a nil value (field '__users')")
  else .ret (d.setUser u fun x => { x with ready := true }) .nil

/-- **`cli:dismiss_apply`**. -/
def dismissApply (d : Desk) (u : Ref) : Out :=
  match d.dismiss with
  | .no =>
      if d.started then
        { d := { d with dismiss := .vote { applyer := (d.objs u).seat } }
          res := .ret (.wait 30), forks := [.voteStart] }
      else if (d.objs u).master then
        backRoomcard { d with dismiss := .yes } none (.free .nil)
      else standup d (d.objs u).id (.dismissApply u)
  | _ => .ret d (.err .dismissAlready)

/-- **`cli:dismiss_reply`**. -/
def dismissReply (d : Desk) (u : Ref) (agree : Bool) : Out :=
  match d.dismiss with
  | .no => .ret d (.err .dismissNoIns)
  | .yes => .ret d (.raise "attempt to index a boolean value (field 'dismiss')")
  | .vote v =>
      let seat := (d.objs u).seat
      if (v.wait.lookup seat).isSome then
        let v := { v with wait := v.wait.erase seat }
        if agree then
          let p := v.sync.arrive .dismiss seat
          .ret { d with dismiss := .vote { v with reply := v.reply ++ [seat], sync := p.1 } }
            (if p.2 then .nil else .raise "attempt to index a nil value (field '__users')")
        else .ret { d with dismiss := .vote { v with sync := v.sync.abandon } } .nil
      else .ret d (.err .dismissNoUser)

/-- Arriving at a barrier of the desk. -/
def arriveAt (d : Desk) (st : St) (seat : ℤ) : Out :=
  let p := d.sync.arrive st seat
  .ret { d with sync := p.1 }
    (if p.2 then .nil else .raise "attempt to index a nil value (field '__users')")

/-- **`cli:grab_banker`**. -/
def grabBanker (d : Desk) (u : Ref) (grabbed : Bool) : Out :=
  if d.isstart && ((d.objs u).audience != some true) then
    arriveAt (if grabbed then d.setUser u fun x => { x with grabbed := true } else d) .banker
      (d.objs u).seat
  else .ret d (.err .invalidRequest)

/-- The handler of a client command. -/
def cli (d : Desk) (u : Ref) (inp : Inp) : Cmd → Out
  | .ready => cliReady d u
  | .grabBanker grabbed => grabBanker d u grabbed
  | .gamerun => arriveAt d .gamerun (d.objs u).seat
  | .dismissApply => dismissApply d u
  | .dismissReply agree => dismissReply d u agree
  | .userfire kind => .fish (userfire d u kind inp)
  | .catchfish req => .fish (catchfish d u req inp)
  | .catchsweepfish req => .fish (catchsweepfish d u req inp)

/-! ### Segments -/

/-- The segment of a game handler. -/
def fishSegment (d : Desk) (inp : Inp) : FishPc → FishOut
  | .stock c => catchStock d c inp
  | .miss _ => .ret d .nil
  | .pay c => catchPay d c
  | .sweep seat score => sweepPay d seat score

/-- **The segment of a coroutine suspended at `pc`**, once its call has been executed. -/
def segment (d : Desk) (inp : Inp) : Pc → Out
  | .monitor => sleepOn d .ready .ready
  | .joinAdd u => .wait (d.setUser u fun x => { x with push := true }) (.joinDb u)
  | .joinDb _ => .ret d .nil
  | .sitAdd u seat => sitSeated d u seat
  | .sitUse u =>
      if 0 ≤ inp.ret then .wait d (.sitRecord u)
      else .ret d (.raise "use prop should always success?")
  | .sitRecord u =>
      if (d.objs u).push then deskCostBackup d u
      else .ret d (.raise "attempt to call a nil value (field 'push')")
  | .sitCost u _ => sitEnd d u
  | .backRecord w c => .wait d (.backAdd w c)
  | .backAdd w c => .wait d (.backQuery w c)
  | .backQuery w c =>
      if inp.agent then .wait d (.backPush w c) else walkOn d { w with i := w.i + 1 }
  -- the agent may be closed: the walk ends there, and `d.costs` stays as it is
  | .backPush w _ =>
      if inp.raises then .ret d (.raise "call failed") else walkOn d { w with i := w.i + 1 }
  | .backSave w => afterBack (replaceCosts d w.costs) w.k
  | .standRemove _ k => afterStandup d .ok k
  | .kickRemove uid k => .wait d (.kickLeave uid k)
  | .kickLeave _ (.leave k) => afterLeave d .nil k
  | .kickLeave _ (.free r) => freeLoop d r
  | .dismissAgent _ => .ret d .dismissStandup
  | .freeAgent u r => kickUser d u (.free r)
  | .freeDismiss r => .wait d (.freeGamedb r)
  | .freeGamedb r => .wait d (.freeLobby r)
  | .freeLobby r => .ret ({ d with live := false }.mark .freed) r
  -- nobody abandons `d.sync` and this wait has no time-out: only a message ends it
  | .ready => doGame { d with sync := d.sync.resumed }
  | .start => gameInit { d with isstart := true }
  | .config =>
      sleepOn { d with game := d.game.map fun g => { g with roles := some {} } } .banker .banker
  | .banker =>
      let d := { d with sync := d.sync.resumed }
      match determinBanker d inp.roll with
      | none => unhandled d
      | some d => sleepOn d .gamerun .gamerun
  | .gamerun => gameRun { d with sync := d.sync.resumed } inp
  | .gameend => gameStop { d with game := d.game.map fun g => { g with sync := g.sync.resumed } }
  | .result _ => deskEnd d
  | .resultErr _ => afterError d
  | .voteStart => voteStart d
  | .vote usern => voteEnd d usern
  | .begin u cmd => cli d u inp cmd
  | .fish pc => .fish (fishSegment d inp pc)

/-- A sleeping coroutine runs when it was woken, or when its sleep ran out. -/
def Pc.enabled (d : Desk) (inp : Inp) : Pc → Bool
  | .ready => d.sync.waiting != some .ready
  | .banker => d.sync.waiting != some .banker || inp.timeout
  | .gamerun => d.sync.waiting != some .gamerun || inp.timeout
  | .gameend =>
      inp.timeout ||
        match d.game with
        | some g => g.sync.waiting != some .gameend
        | none => true
  | .vote _ =>
      inp.timeout ||
        match d.dismiss with
        | .vote v => v.sync.waiting != some .dismiss
        | _ => true
  | _ => true

end Halieutics
