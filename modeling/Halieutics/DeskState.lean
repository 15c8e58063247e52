/-
**The state of a desk of `service/game/roomdesk.lua`.**

A desk is a table shared by all coroutines of its service: the handlers of client requests, the
lobby's `force_dismiss`, the timers of the running game and the desk's own `new_desk` coroutine.
This module fixes that table.  User objects live in a heap because handlers keep references to
them across yields, while the tables `users` and `usermap` may meanwhile drop them; the lists of
cost entries live in a heap for the same reason.

The last field of a desk is a history variable: the remote calls that have been executed on
behalf of the desk, and the milestones of its life, newest first.  No code reads it.

Main definitions:

* `Halieutics.User`, `Halieutics.Cost`, `Halieutics.Game`, `Halieutics.Vote` — what a desk holds;
* `Halieutics.Rpc`, `Halieutics.Mark`, `Halieutics.Act` — what its history records, and
  `Halieutics.since` — what it records after an entry;
* `Halieutics.Desk`, `Halieutics.Desk.create` — a desk, and the desk made by `desk.create`;
* `Halieutics.Cfg`, `Halieutics.Inp` — the shared configuration, and what the outside world
  supplies to one segment of a coroutine.
-/

import Halieutics.Sync
import Halieutics.Roles

set_option relaxedAutoImplicit false
set_option autoImplicit false

namespace Halieutics

open LuaTable

/-! ### What a desk holds -/

/-- `info.pay`: set by `assign_desk` of the lobby for every desk. -/
structure Pay where
  AA : Bool
  total : ℤ

/-- A cost entry, as recorded by `desk_cost_backup`.  Lua tables have an identity; `serial` is
the number of entries the desk had recorded before this one. -/
structure Cost where
  userid : ℕ
  count : ℤ
  serial : ℕ
  deriving DecidableEq, Repr

/-- A user object.  `audience` is `nil` once the user was kicked, `game` is the score, and `push`
says that the function `user.push` has been set, which `joinin` does after its first yield. -/
structure User where
  id : ℕ := 0
  android : Bool := false
  seat : ℤ := -1
  audience : Option Bool := none
  master : Bool := false
  afk : Bool := false
  source : Bool := false
  push : Bool := false
  ready : Bool := false
  grabbed : Bool := false
  game : Option ℤ := none

/-- `d.dismiss` while a vote is on. -/
structure Vote where
  applyer : ℤ
  sync : Sync := {}
  wait : Table ℤ ℕ := ∅
  reply : List ℤ := []

/-- `d.dismiss`. -/
inductive Dismiss where
  | no
  | yes
  | vote (v : Vote)

/-- The errors `d.err` that `game_interrupt` can leave behind. -/
inductive DeskErr where
  | dismissbyuser | dismissbytimeout
  deriving DecidableEq, Repr

/-- The game object made by `desk:init`.  `roles` is set at the end of `desk:init`; `ended` says
that `gameend` has run, after which the game has no `_sdk` and the desk no `_game`. -/
structure Game where
  roles : Option Roles := none
  sync : Sync := {}
  timers : Bool := false
  ended : Bool := false

/-! ### History -/

/-- The remote calls of the desk service. -/
inductive Rpc where
  | monitorDesk
  | addUser (uid : ℕ)
  | removeUser (uid : ℕ)
  | join (uid : ℕ)
  | leave (uid : ℕ)
  | useProp (uid : ℕ) (num left : ℤ)
  | addRecord (uid : ℕ) (num : ℤ)
  | addProp (c : Cost)
  | addCost (c : Cost)
  | saveCosts (cs : List Cost)
  | queryAgent (uid : ℕ)
  | pushAccount (uid : ℕ)
  | agentStandup (uid : ℕ)
  | dismiss (uid : ℕ)
  | freeDesk
  | lobbyFree
  | start
  | config
  | saveGameResult (scores : List ℤ)
  | getStock
  | updateStock (n : ℤ)
  deriving DecidableEq, Repr

/-- The milestones of a desk. -/
inductive Mark where
  /-- `desk_cost_backup` records an entry. -/
  | cost (c : Cost)
  /-- `do_game` begins; `gamestart` increments `d.count` in the same segment. -/
  | doGame
  /-- `gameover` collects the scores. -/
  | gameover
  /-- `free_desk` begins. -/
  | freeDesk
  /-- `free_desk` has dropped the desk. -/
  | freed
  /-- A user takes a seat: `d.users[seat] = user`. -/
  | seated (uid : ℕ)
  /-- `userfire` activated the bullet `id`; the last two numbers are what it did to the scores of
  the shooter's seat and of the banker's. -/
  | fired (id : ℕ) (seat : ℤ) (multiple : ℕ) (dme dbanker : ℤ)
  /-- `catchfish` took the bullet `id` out of the active storage. -/
  | resolved (id : ℕ) (seat : ℤ) (multiple : ℕ)
  deriving DecidableEq, Repr

/-- An entry of the history. -/
inductive Act where
  | rpc (r : Rpc)
  | mark (m : Mark)
  deriving DecidableEq, Repr

/-- **What happened since `b`**: the entries of a history, newest first, that are newer than some
entry `b`. -/
def since (b : Act) : List Act → List Act
  | [] => []
  | a :: hist => if b ∈ hist then a :: since b hist else []

theorem since_eq_nil {b : Act} {hist : List Act} (h : b ∉ hist) : since b hist = [] := by
  cases hist with
  | nil => rfl
  | cons a hist =>
      rw [since, if_neg fun hm => h (List.mem_cons_of_mem a hm)]

theorem mem_since_cons {b x a : Act} {hist : List Act} :
    x ∈ since b (a :: hist) ↔ (b ∈ hist ∧ x = a) ∨ x ∈ since b hist := by
  by_cases hb : b ∈ hist
  · rw [since, if_pos hb, List.mem_cons]
    simp [hb]
  · rw [since, if_neg hb, since_eq_nil hb]
    simp [hb]

/-- New entries. -/
theorem mem_since_append {b x : Act} {new hist : List Act} (h : x ∈ since b (new ++ hist)) :
    x ∈ new ∨ x ∈ since b hist := by
  induction new with
  | nil => exact Or.inr h
  | cons a new ih =>
      rcases mem_since_cons.1 h with ⟨-, rfl⟩ | h
      · exact Or.inl List.mem_cons_self
      · exact (ih h).imp_left (List.mem_cons_of_mem a)

/-- Entries that are neither looked for nor looked at may be forgotten. -/
theorem mem_since_filter {b x : Act} {p : Act → Bool} (hb : p b = true) (hx : p x = true)
    (hist : List Act) : x ∈ since b (hist.filter p) ↔ x ∈ since b hist := by
  induction hist with
  | nil => rfl
  | cons a hist ih =>
      by_cases ha : p a = true
      · rw [List.filter_cons_of_pos ha, mem_since_cons, mem_since_cons, ih]
        simp [List.mem_filter, hb]
      · rw [List.filter_cons_of_neg ha, mem_since_cons, ih]
        refine ⟨Or.inr, fun h => h.resolve_left ?_⟩
        rintro ⟨-, rfl⟩
        exact ha hx

/-! ### The desk -/

/-- The request of `catchfish`. -/
structure CatchReq where
  seatId : ℤ
  fishId : ℕ
  bulletKind : ℤ
  bulletId : ℕ

/-- The request of `catchsweepfish`. -/
structure SweepReq where
  seatId : ℤ
  fishId : ℕ
  catchFishIds : List ℕ

/-- The commands of `cli`. -/
inductive Cmd where
  | ready
  | grabBanker (grabbed : Bool)
  | gamerun
  | dismissApply
  | dismissReply (agree : Bool)
  | userfire (bulletKind : Option ℤ)
  | catchfish (req : CatchReq)
  | catchsweepfish (req : SweepReq)

/-- A desk.  `live` says that the desk is registered in `data.desks`; `csBusy` and `csQueue` are
the state of the queue `d.cs`. -/
structure Desk where
  id : ℕ
  creater : ℕ
  pay : Pay
  maxplayer : ℕ
  maxaudience : ℕ
  timelimit : ℕ
  live : Bool
  count : ℕ
  isstart : Bool
  gaming : Option Bool
  err : Option DeskErr
  starttime : Option ℕ
  banker : ℤ
  objs : Ref → User
  nobj : ℕ
  users : Table ℤ Ref
  usermap : Table ℕ Ref
  audiences : Table ℕ Unit
  freeseats : List ℤ
  androidid : Option ℕ
  tabs : ℕ → List Cost
  ntab : ℕ
  costs : ℕ
  ncost : ℕ
  dismiss : Dismiss
  dimiss : Bool
  sync : Sync
  csBusy : Bool
  csQueue : List (Ref × Cmd)
  game : Option Game
  hist : List Act

namespace Desk

/-- `def.maxplayer`. -/
def defMaxplayer : ℕ := 6

/-- `def.maxaudience`. -/
def defMaxaudience : ℕ := 2

/-- **The desk made by `desk.create`** for the agent (`donotseat = true`): the creator's charge is
recorded, nobody has joined, and all seats are free. -/
def create (id creater : ℕ) (pay : Pay) (timelimit : ℕ) : Desk where
  id := id
  creater := creater
  pay := pay
  maxplayer := defMaxplayer
  maxaudience := defMaxaudience
  timelimit := timelimit
  live := true
  count := 0
  isstart := false
  gaming := none
  err := none
  starttime := none
  banker := -1
  objs := fun _ => {}
  nobj := 0
  users := ∅
  usermap := ∅
  audiences := ∅
  freeseats := (List.range defMaxplayer).map fun i : ℕ => (i : ℤ) + 1
  androidid := none
  tabs := Function.update (fun _ => []) 0 [⟨creater, pay.total, 0⟩]
  ntab := 1
  costs := 0
  ncost := 1
  dismiss := .no
  dimiss := false
  sync := {}
  csBusy := false
  csQueue := []
  game := none
  hist := [.mark (.cost ⟨creater, pay.total, 0⟩)]

/-- Changing a user object. -/
def setUser (d : Desk) (u : Ref) (f : User → User) : Desk :=
  { d with objs := Function.update d.objs u (f (d.objs u)) }

/-- A remote call that has been executed. -/
def called (d : Desk) (r : Rpc) : Desk := { d with hist := .rpc r :: d.hist }

/-- A milestone. -/
def mark (d : Desk) (m : Mark) : Desk := { d with hist := .mark m :: d.hist }

/-- The test for a game that has begun: `d.isstart and (d.gaming or d.count >= 1)`. -/
def started (d : Desk) : Bool := d.isstart && (d.gaming == some true || decide (1 ≤ d.count))

/-- The entries of `d.costs`. -/
def costList (d : Desk) : List Cost := d.tabs d.costs

/-- `self._game`. -/
def mygame (d : Desk) : Option Game :=
  match d.game with
  | some g => if g.ended then none else some g
  | none => none

/-- The user object in `d.users` that sits at `seat`. -/
def atSeat (d : Desk) (seat : ℤ) : Option Ref :=
  (vals d.users).find? fun u => (d.objs u).seat == seat

/-- The score of the user that sits at `seat`. -/
def scoreAt (d : Desk) (seat : ℤ) : ℤ :=
  match d.atSeat seat with
  | some u => (d.objs u).game.getD 0
  | none => 0

/-- Some user of `d.users` has this id. -/
def hasSeat (d : Desk) (uid : ℕ) : Bool := (vals d.users).any fun u => (d.objs u).id == uid

end Desk

/-! ### Inputs of a segment -/

/-- An entry of `bulletcfg`. -/
structure BulletCfg where
  kind : ℤ
  multiple : Option ℕ

/-- An entry of `fishcfg`. -/
structure FishCfg where
  kind : ℤ
  multiple : ℕ
  multiplemax : Option ℕ := none

/-- `sdk.config`, as far as the game logic reads it. -/
structure Cfg where
  maxBulletMultiple : ℕ := 0
  bulletcfg : List BulletCfg := []
  fishcfg : List FishCfg := []

/-- The entry of a configuration list for a kind: `list[kind + 1]`. -/
def cfgAt {α : Type} (l : List α) (kind : ℤ) : Option α :=
  if 0 ≤ kind then l[kind.toNat]? else none

/-- **What the outside world supplies to a segment**: the number a remote call returned, whether
`watchdog.query` found an agent, whether the call to that agent raised, whether a sleep ran out, the
clock, the random numbers (`hit` is the outcome of comparing `math.random()` with the probability of
the fish), the kinds of the fish the timers build, and the configuration shared by all desks of the
service. -/
structure Inp where
  ret : ℤ := 0
  agent : Bool := false
  raises : Bool := false
  timeout : Bool := false
  now : ℕ := 0
  roll : ℕ := 0
  hit : Bool := false
  kinds : List ℤ := []
  cfg : Cfg := {}

end Halieutics
