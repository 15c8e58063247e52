/-
**The fishing game: `lualib/game/fish/desk.lua`.**

The handlers of a running game.  `userfire` is one segment: it takes the price of the bullet from
the shooter and activates the bullet.  `catchfish` has three: it takes the bullet out of the
active storage and prices the fish, then asks for the shared stock, decides, and updates the stock,
and only then frees the fish and moves the score.  `catchsweepfish` has two.

The handlers are translated up to their yields; where a handler stops is a value of
`Halieutics.FishPc`, and `Halieutics.FishOut.wait` says that it stops there.

Main definitions:

* `Halieutics.calcFishscoreAll` — `calc_fishscore_all`: moving a score between a player and the
  banker;
* `Halieutics.userfire`, `Halieutics.catchfish`, `Halieutics.catchStock`, `Halieutics.catchPay`,
  `Halieutics.catchsweepfish`, `Halieutics.sweepPay` — the handlers, segment by segment.
-/

import Halieutics.DeskState

set_option relaxedAutoImplicit false
set_option autoImplicit false

namespace Halieutics

open LuaTable

/-- The errors of `def/errmsg.lua` that the desk answers with. -/
inductive Em where
  | invalidRequest | deskFull | alreadyJoined | gameTooShort | repeatSeat | notJoined | seatFull
  | seatTaken | standupBeforeLeave | alreadyInGame | userNotReady | deskNoUser | dismissAlready
  | dismissNoIns | dismissNoUser | bankerNoFire | invalidReqparam | audienceCantFire | deskNoexists
  deriving DecidableEq, Repr

/-- What a handler returns; `raise` is a Lua error. -/
inductive Ret where
  | nil | ok
  | err (e : Em)
  | seat (n : ℤ)
  | code (n : ℕ)
  | wait (n : ℕ)
  | dismissStandup
  | raise (msg : String)
  deriving DecidableEq, Repr

/-- The local variables of `catchfish` across its yields: the sender, `seat`, the fish object,
`fishscore`, `bulletmultiple`, and `stockscore` once it is known. -/
structure Catch where
  user : Ref
  seat : ℤ
  fish : Ref
  score : ℕ
  multiple : ℕ
  stock : ℤ := 0

/-- The yields of the game handlers. -/
inductive FishPc where
  /-- `catchfish` in `get_stock`. -/
  | stock (c : Catch)
  /-- `catchfish` in `update_stock` after a miss. -/
  | miss (c : Catch)
  /-- `catchfish` in `update_stock` after a hit. -/
  | pay (c : Catch)
  /-- `catchsweepfish` in `update_stock`. -/
  | sweep (seat : ℤ) (score : ℕ)

/-- How a segment of a game handler ends. -/
inductive FishOut where
  | ret (d : Desk) (r : Ret)
  | wait (d : Desk) (pc : FishPc)

/-- The desk after a segment. -/
def FishOut.d : FishOut → Desk
  | .ret d _ => d
  | .wait d _ => d

/-! ### Moving scores -/

/-- `adduserscore`; the flag is `false` when its assertion fails. -/
def adduserscore (d : Desk) (u : Ref) (score : ℤ) : Desk × Bool :=
  match (d.objs u).game with
  | none => (d, false)
  | some s => (d.setUser u fun x => { x with game := some (s + score) }, true)

/-- **`calc_fishscore_all`**: `score` moves from the banker to the player at `meseat`.  When one of
the two is not found nothing happens but a log entry; the flag is `false` when it raises. -/
def calcFishscoreAll (d : Desk) (meseat bankerseat score : ℤ) : Desk × Bool :=
  let banker := d.atSeat bankerseat
  let me := if meseat = bankerseat then none else d.atSeat meseat
  match me, banker with
  | some me, some banker =>
      let p := adduserscore d me score
      if p.2 then adduserscore p.1 banker (-score) else p
  | _, _ => (d, true)

/-- The desk with other roles in its game. -/
def Desk.withRoles (d : Desk) (g : Game) (roles : Roles) : Desk :=
  { d with game := some { g with roles := some roles } }

/-! ### Firing -/

/-- **`desk:userfire`**. -/
def userfire (d : Desk) (u : Ref) (bulletKind : Option ℤ) (inp : Inp) : FishOut :=
  let user := d.objs u
  if user.seat = d.banker then .ret d (.err .bankerNoFire)
  else
    match bulletKind with
    | none => .ret d (.err .invalidReqparam)
    | some kind =>
        if user.audience = some true then .ret d (.err .audienceCantFire)
        else
          match d.mygame, cfgAt inp.cfg.bulletcfg kind with
          | some g, some bulletcfg =>
              let multiple := bulletcfg.multiple.getD 1
              if inp.cfg.maxBulletMultiple < multiple then .ret d (.raise "assertion failed!")
              else
                match calcFishscoreAll d user.seat d.banker (-multiple) with
                | (d₁, false) => .ret d₁ (.raise "assertion failed!")
                | (d₁, true) =>
                    match g.roles with
                    | none => .ret d₁ (.raise "attempt to index a nil value (field 'roles')")
                    | some roles =>
                        let p := roles.loadBullet user.seat inp.now kind multiple
                        .ret ((d₁.withRoles g p.1).mark (.fired p.2.id user.seat multiple
                          (d₁.scoreAt user.seat - d.scoreAt user.seat)
                          (d₁.scoreAt d.banker - d.scoreAt d.banker))) .ok
          | none, _ => .ret d (.raise "attempt to index a nil value (local 'g')")
          | _, none => .ret d (.raise "bullet kind not found in config.")

/-! ### Catching a fish -/

/-- The bullet `catchfish` takes: by id or, failing that, by kind. -/
def catchBullet (roles : Roles) (req : CatchReq) : Roles × Option Ref :=
  match roles.freeBullet req.bulletId req.seatId with
  | (roles, some b) => (roles, some b)
  | (roles, none) => roles.freeBulletOfKind req.bulletKind req.seatId

/-- `math.random(multiple, multiplemax)` raises. -/
def FishCfg.empty (cfg : FishCfg) : Bool := cfg.multiplemax.any fun m => decide (m < cfg.multiple)

/-- `fishmultiple`: fixed, or drawn between `multiple` and `multiplemax`. -/
def fishMultiple (cfg : FishCfg) (roll : ℕ) : ℕ :=
  match cfg.multiplemax with
  | none => cfg.multiple
  | some m => cfg.multiple + roll % (m - cfg.multiple + 1)

/-- `desk:catchfish` up to `get_stock`: the bullet leaves the active storage and the fish is
priced. -/
def catchfish (d : Desk) (u : Ref) (req : CatchReq) (inp : Inp) : FishOut :=
  match d.mygame with
  | none => .ret d (.raise "attempt to index a nil value (local 'g')")
  | some g =>
      match g.roles with
      | none => .ret d (.raise "attempt to index a nil value (field 'roles')")
      | some roles =>
          match catchBullet roles req with
          | (_, none) => .ret d .nil
          | (roles, some b) =>
              let bullet := roles.bullets b
              let d := (d.withRoles g roles).mark
                (.resolved bullet.id req.seatId bullet.multiple)
              if bullet.kind ≠ req.bulletKind then .ret d .nil
              else
                match roles.getFish req.fishId with
                | none => .ret d .nil
                | some f =>
                    match cfgAt inp.cfg.fishcfg (roles.fish f).kind with
                    | none => .ret d (.raise "attempt to index a nil value (local 'fishcfg')")
                    | some fishcfg =>
                        if fishcfg.kind ≠ (roles.fish f).kind then
                          .ret d (.raise "fish kind not found in cfg")
                        else if fishcfg.empty then
                          .ret d (.raise "bad argument #2 to 'random' (interval is empty)")
                        else
                          .wait d (.stock
                            { user := u, seat := req.seatId, fish := f,
                              score := fishMultiple fishcfg inp.roll * bullet.multiple,
                              multiple := bullet.multiple })

/-- The end of `desk:catchfish`: the fish is freed, the score moves, and the catcher of a banker
fish becomes the banker.  After `gameend` the game has no `_sdk`, and the code raises. -/
def catchPay (d : Desk) (c : Catch) : FishOut :=
  match d.game with
  | none => .ret d (.raise "attempt to index a nil value (local 'g')")
  | some g =>
      match g.roles with
      | none => .ret d (.raise "attempt to index a nil value (field 'roles')")
      | some roles =>
          let fish := roles.fish c.fish
          let roles := (roles.freeFish fish.id).1
          if g.ended then
            .ret (d.withRoles g roles) (.raise "attempt to index a nil value (field '_sdk')")
          else
            let roles :=
              if isBombFish fish.kind then roles.specialRecord fish.id c.multiple else roles
            let d := d.withRoles g roles
            match calcFishscoreAll d c.seat d.banker c.score with
            | (d, false) => .ret d (.raise "assertion failed!")
            | (d, true) =>
                if isBankerFish fish.kind then .ret { d with banker := c.seat } .nil
                  else .ret d .nil

/-- `desk:catchfish` after `get_stock`: a human is not paid what the stock does not cover, and
`update_stock` yields for humans only. -/
def catchStock (d : Desk) (c : Catch) (inp : Inp) : FishOut :=
  let c := { c with stock := inp.ret }
  let android := (d.objs c.user).android
  let checkScore := inp.ret + c.multiple - c.score
  if checkScore < 0 ∧ !android then .wait d (.miss c)
  else if !inp.hit then if android then .ret d .nil else .wait d (.miss c)
  else if android then catchPay d c
  else .wait d (.pay c)

/-! ### Sweeping -/

/-- The loop of `desk:catchsweepfish`.  The flag is `false` when it raises because the bomb has no
recorded multiple. -/
def sweepLoop (cfg : Cfg) (multiply : Option ℕ) : Roles → ℕ → List ℕ → Roles × ℕ × Bool
  | roles, score, [] => (roles, score, true)
  | roles, score, v :: vs =>
      match roles.freeFish v with
      | (roles, none) => sweepLoop cfg multiply roles score vs
      | (roles, some f) =>
          match cfgAt cfg.fishcfg (roles.fish f).kind with
          | none => sweepLoop cfg multiply roles score vs
          | some c =>
              match multiply with
              | none => (roles, score, false)
              | some m => sweepLoop cfg multiply roles (score + c.multiple * m) vs

/-- The end of `desk:catchsweepfish`. -/
def sweepPay (d : Desk) (seat : ℤ) (score : ℕ) : FishOut :=
  match calcFishscoreAll d seat d.banker score with
  | (d, false) => .ret d (.raise "assertion failed!")
  | (d, true) => .ret d .nil

/-- `desk:catchsweepfish` up to `update_stock`. -/
def catchsweepfish (d : Desk) (u : Ref) (req : SweepReq) (inp : Inp) : FishOut :=
  match d.mygame with
  | none => .ret d (.raise "attempt to index a nil value (local 'g')")
  | some g =>
      match g.roles with
      | none => .ret d (.raise "attempt to index a nil value (field 'roles')")
      | some roles =>
          match roles.getFish req.fishId with
          | none => .ret d .nil
          | some f =>
              if !isBombFish (roles.fish f).kind then .ret d .nil
              else
                let p := roles.specialPop req.fishId
                let q := sweepLoop inp.cfg p.2 p.1 0 req.catchFishIds
                let d := d.withRoles g q.1
                if !q.2.2 then .ret d (.raise "attempt to perform arithmetic on a nil value")
                else if (d.objs u).android then sweepPay d req.seatId q.2.1
                else .wait d (.sweep req.seatId q.2.1)

end Halieutics
