/-
**The lobby: `service/game/roomlobby.lua`.**

The lobby hands out desk numbers.  A free number waits in `deskid_buffer`; `lobby.assign` takes one
out at random and gives the desk a home, a `roomdesk` service with room for it or a new one, and
`lobby.free` puts it back.  Two timers work beside the requests: one dismisses a desk whose game
does not begin in time, and one ends a `roomdesk` service that has had no desk for a minute.

The module translates the handlers, segment by segment; the desk services, the agents and the
databases are part of the world.  A timer of the queue of `common/timer.lua` may run as soon as it
has been added; `timer.remove` marks it, and a marked timer does nothing when its turn comes.

Main definitions:

* `Info`, `Desk`, `Home` — what a desk is asked for, what `deskmap` knows about it, and a desk
  service;
* `Data` — the tables of the lobby;
* `getpay`, `randomId`, `initDeskidBuffer` — the functions of the same names;
* `assign`, `free`, `monitorDesk`, `tick` — the first segments of the handlers and of the timers,
  and `resume` — the others;
* `service` — the lobby as a machine.

Main results:

* `randomId_perm` — **`random_id` takes one number out of the buffer**;
* `initDeskidBuffer_eq` — **after the start every number is in the buffer, once**.
-/

import Halieutics.Coroutine
import Halieutics.LuaTable

set_option relaxedAutoImplicit false
set_option autoImplicit false

namespace Halieutics.Lobby

open Coroutine LuaTable

/-- What a user asks for. -/
structure Info where
  game : String
  roomtype : ℤ := 0
  aapay : Bool := false
  timelimit : ℕ := 0

/-- The price of a desk. -/
structure Pay where
  AA : Bool
  total : ℤ
  deriving DecidableEq

/-- A reference to a desk service. -/
abbrev Ref := ℕ

/-- A desk service: an entry of `data.games[game].desks`, which a desk of `deskmap` keeps as its
`home`. -/
structure Home where
  game : String := ""
  actives : List ℕ := []

/-- An entry of `deskmap`.  `monitored` says whether `lobby.monitor_desk` was called for it; no code
reads it. -/
structure Desk where
  home : Ref
  info : Info
  creater : ℕ
  pay : Pay
  monitored : Bool := false

/-- What a timer does when its turn comes. -/
inductive Work where
  /-- `desk_monitor_work`. -/
  | monitor (deskid : ℕ)
  /-- The function that `add_kill_queue` hands to the timer. -/
  | kill (game : String) (home : Ref)
  deriving DecidableEq

/-- A timer of `tmr_queue`. -/
structure Timer where
  id : ℕ
  work : Work
  cancel : Bool := false
  deriving DecidableEq

/-- The tables of the lobby.  The desk services are kept in a heap, of which the first `nhome` have
been made.  `exited` lists the services that `exit` was sent to; no code reads it. -/
structure Data where
  load : ℕ
  roompara : Bool → ℕ → Option ℤ := fun _ _ => none
  games : Table String (List Ref) := ∅
  homes : Ref → Home := fun _ => {}
  nhome : ℕ := 0
  deskmap : Table ℕ Desk := ∅
  buffer : List ℕ := []
  monitor : Table ℕ ℕ := ∅
  timers : List Timer := []
  ntimer : ℕ := 0
  exited : List Ref := []

/-- What a handler returns. -/
inductive Ret where
  | nil
  | desk (deskid : ℕ) (desk : Desk)
  | raise (msg : String)

/-- The yields of the lobby. -/
inductive Pc where
  /-- `assign_desk` in `skynet.newservice`. -/
  | newservice (deskid : ℕ) (info : Info) (creater : ℕ) (pay : Pay)
  /-- `lobby.free` in the call of `remove_mydesk`. -/
  | removeMydesk (deskid : ℕ) (desk : Desk)
  /-- `desk_monitor_work` in the call of `force_dismiss`. -/
  | forceDismiss (deskid : ℕ) (home : Ref)
  /-- `free_desk` in its calls of the databases. -/
  | freeDesk (deskid : ℕ)
  /-- A kill timer in the call of `exit`. -/
  | exit (home : Ref)

/-- How a segment ends. -/
inductive Out where
  | ret (d : Data) (r : Ret)
  | wait (d : Data) (pc : Pc)

/-- The tables after a segment. -/
def Out.d : Out → Data
  | .ret d _ => d
  | .wait d _ => d

/-- Where the coroutine is suspended. -/
def Out.pcs : Out → List Pc
  | .ret _ _ => []
  | .wait _ pc => [pc]

/-- What the world supplies: the random number, whether the remote call raised, and what
`force_dismiss` returned. -/
structure Inp where
  roll : ℕ := 0
  raised : Bool := false
  ret : ℤ := 0

/-! ### Assigning a desk -/

/-- `getpay`. -/
def getpay (d : Data) (info : Info) : Option Pay :=
  let cost := d.roompara info.aapay info.timelimit
  if info.roomtype = 0 ∧ (cost = none ∨ cost = some (-1)) then none
  else some ⟨info.aapay, if info.roomtype = 0 then cost.getD 0 else 0⟩

/-- `random_id`: the number leaves the buffer, and the last one takes its place. -/
def randomId (buffer : List ℕ) (roll : ℕ) : Option (ℕ × List ℕ) :=
  match buffer[roll % buffer.length]?, buffer.getLast? with
  | some id, some last => some (id, (buffer.set (roll % buffer.length) last).dropLast)
  | _, _ => none

/-- A desk service takes one more desk. -/
def Data.seat (d : Data) (home : Ref) (deskid : ℕ) : Data :=
  { d with
    homes := Function.update d.homes home
      { d.homes home with actives := (d.homes home).actives ++ [deskid] } }

/-- `deskmap[info.id] = {...}`. -/
def Data.enter (d : Data) (deskid : ℕ) (desk : Desk) : Data :=
  { d with deskmap := d.deskmap.insert deskid desk }

/-- **`lobby.assign`** up to `skynet.newservice`.  The number is out of the buffer even if the price
is not found. -/
def assign (d : Data) (userid : ℕ) (info : Info) (inp : Inp) : Out :=
  match d.games.lookup info.game with
  | none => .ret d (.raise "no game ")
  | some desks =>
      match randomId d.buffer inp.roll with
      | none => .ret d .nil
      | some (id, buffer) =>
          let d := { d with buffer := buffer }
          match getpay d info with
          | none => .ret d .nil
          | some pay =>
              match desks.find? fun h => (d.homes h).actives.length < d.load with
              | some h =>
                  let desk : Desk := ⟨h, info, userid, pay, false⟩
                  .ret ((d.seat h id).enter id desk) (.desk id desk)
              | none => .wait d (.newservice id info userid pay)

/-- `assign_desk` after `skynet.newservice`. -/
def assigned (d : Data) (deskid : ℕ) (info : Info) (creater : ℕ) (pay : Pay) : Out :=
  let desk : Desk := ⟨d.nhome, info, creater, pay, false⟩
  let d' := { d with
    homes := Function.update d.homes d.nhome ⟨info.game, [deskid]⟩
    nhome := d.nhome + 1
    games := d.games.insert info.game ((d.games.lookup info.game).getD [] ++ [d.nhome]) }
  .ret (d'.enter deskid desk) (.desk deskid desk)

/-! ### Freeing a desk -/

/-- `timer.add`. -/
def Data.addTimer (d : Data) (work : Work) : Data :=
  { d with timers := d.timers ++ [⟨d.ntimer, work, false⟩], ntimer := d.ntimer + 1 }

/-- `timer.remove`. -/
def Data.removeTimer (d : Data) (tid : ℕ) : Data :=
  { d with timers := d.timers.map fun t => if t.id = tid then { t with cancel := true } else t }

/-- `add_kill_queue`. -/
def addKillQueue (d : Data) (desk : Desk) : Data :=
  if (d.homes desk.home).actives = [] ∧ 1 < ((d.games.lookup desk.info.game).getD []).length then
    d.addTimer (.kill desk.info.game desk.home)
  else d

/-- **`lobby.free`** up to the call of `remove_mydesk`. -/
def free (d : Data) (deskid : ℕ) : Out :=
  let d := match d.monitor.lookup deskid with
    | none => d
    | some tid => d.removeTimer tid
  match d.deskmap.lookup deskid with
  | none => .ret d .nil
  | some desk =>
      .wait { d with deskmap := d.deskmap.erase deskid } (.removeMydesk deskid desk)

/-- `lobby.free` after the call of `remove_mydesk`. -/
def freed (d : Data) (deskid : ℕ) (desk : Desk) : Out :=
  let actives := (d.homes desk.home).actives
  let d := if deskid ∈ actives then
      { d with
        homes := Function.update d.homes desk.home
          { d.homes desk.home with actives := actives.erase deskid }
        buffer := d.buffer ++ [deskid] }
    else d
  .ret (addKillQueue d desk) .nil

/-! ### The timers -/

/-- **`lobby.monitor_desk`**. -/
def monitorDesk (d : Data) (deskid : ℕ) : Out :=
  match d.deskmap.lookup deskid with
  | none => .ret d (.raise "lobby has no desk ")
  | some desk =>
      .ret (({ d with monitor := d.monitor.insert deskid d.ntimer }.enter deskid
        { desk with monitored := true }).addTimer (.monitor deskid)) .nil

/-- `desk_monitor_work` up to its first call. -/
def deskMonitorWork (d : Data) (deskid : ℕ) : Out :=
  match d.deskmap.lookup deskid with
  | some desk => .wait d (.forceDismiss deskid desk.home)
  | none => .wait d (.freeDesk deskid)

/-- The time of a desk service is up. -/
def killWork (d : Data) (game : String) (home : Ref) : Out :=
  if (d.homes home).actives = [] ∧ home ∈ (d.games.lookup game).getD [] then
    .wait { d with
      games := d.games.insert game (((d.games.lookup game).getD []).erase home)
      exited := home :: d.exited } (.exit home)
  else .ret d .nil

/-- The turn of a timer has come. -/
def tick (d : Data) (k : ℕ) : Out :=
  match d.timers[k]? with
  | none => .ret d .nil
  | some t =>
      let d := { d with timers := d.timers.eraseIdx k }
      if t.cancel then .ret d .nil
      else
        match t.work with
        | .monitor deskid => deskMonitorWork d deskid
        | .kill game home => killWork d game home

/-! ### The machine -/

/-- `lobby.open`, for one game. -/
def openGame (d : Data) (name : String) : Out :=
  match d.games.lookup name with
  | some _ => .ret d (.raise "repeat game ")
  | none => .ret { d with games := d.games.insert name [] } .nil

/-- The requests of the lobby, and the timers. -/
inductive Req where
  | openGame (name : String)
  | assign (userid : ℕ) (info : Info)
  | free (deskid : ℕ)
  | monitorDesk (deskid : ℕ)
  | tick (k : ℕ)

/-- The first segment of a request. -/
def direct (d : Data) (inp : Inp) : Req → Out
  | .openGame name => openGame d name
  | .assign userid info => assign d userid info inp
  | .free deskid => free d deskid
  | .monitorDesk deskid => monitorDesk d deskid
  | .tick k => tick d k

/-- The segments after a yield; a remote call that raises ends the handler. -/
def resume (d : Data) (inp : Inp) (pc : Pc) : Out :=
  if inp.raised then .ret d (.raise "call failed")
  else
    match pc with
    | .newservice deskid info creater pay => assigned d deskid info creater pay
    | .removeMydesk deskid desk => freed d deskid desk
    | .forceDismiss deskid _ => if inp.ret = 3 then free d deskid else .ret d .nil
    | .freeDesk deskid => .ret { d with buffer := d.buffer ++ [deskid] } .nil
    | .exit _ => .ret d .nil

/-- **The lobby as a machine.** -/
def service : Machine Data Pc Req Inp where
  call d r inp := ((direct d inp r).d, (direct d inp r).pcs)
  resume d pc inp := some ((resume d inp pc).d, (resume d inp pc).pcs)

/-! ### Numbers -/

/-- **`random_id` takes one number out of the buffer.** -/
theorem randomId_perm {buffer buffer' : List ℕ} {roll id : ℕ}
    (h : randomId buffer roll = some (id, buffer')) : buffer.Perm (id :: buffer') := by
  unfold randomId at h
  split at h
  · rename_i id' last hid hlast
    obtain ⟨rfl, rfl⟩ := Prod.mk.inj (Option.some_inj.1 h)
    obtain ⟨front, rfl⟩ := List.getLast?_eq_some_iff.1 hlast
    generalize roll % (front ++ [last]).length = k at hid
    obtain ⟨hk, hkid⟩ := List.getElem?_eq_some_iff.1 hid
    rw [List.length_append, List.length_singleton] at hk
    rcases Nat.lt_or_ge k front.length with hlt | hge
    · -- the last number moves to the place of the one that was drawn
      rw [List.getElem_append_left hlt] at hkid
      rw [List.set_append_left _ _ hlt, List.dropLast_concat]
      subst hkid
      have hset := List.set_perm_cons_eraseIdx hlt last
      have herase := List.getElem_cons_eraseIdx_perm hlt
      refine (List.perm_append_singleton last front).trans ?_
      refine (List.Perm.cons last herase.symm).trans ?_
      refine (List.Perm.swap _ _ _).trans (List.Perm.cons _ hset.symm)
    · -- the last number itself was drawn
      obtain rfl : k = front.length := by omega
      rw [List.getElem_append_right (Nat.le_refl _)] at hkid
      simp only [Nat.sub_self, List.getElem_singleton] at hkid
      subst hkid
      simp only [List.set_append_right _ _ (Nat.le_refl _), Nat.sub_self, List.set_cons_zero,
        List.dropLast_concat]
      exact List.perm_append_singleton _ _
  · cases h

/-- **`init_deskid_buffer`**: a number of an active desk goes into the buffer at the end of
`free_desk`, any other at once. -/
def initDeskidBuffer (active : ℕ → Bool) : ℕ → ℕ → List ℕ → List ℕ
  | _, 0, buffer => buffer
  | id, n + 1, buffer =>
      if active id then
        -- `desk_monitor_work(waitload[id])`: there is no desk running
        initDeskidBuffer active (id + 1) n (buffer ++ [id])
      else initDeskidBuffer active (id + 1) n (buffer ++ [id])

/-- **After the start every number is in the buffer, once.** -/
theorem initDeskidBuffer_eq (active : ℕ → Bool) (id n : ℕ) (buffer : List ℕ) :
    initDeskidBuffer active id n buffer = buffer ++ List.range' id n := by
  induction n generalizing id buffer with
  | zero => simp [initDeskidBuffer]
  | succ n ih =>
      rw [initDeskidBuffer, ite_self, ih, List.range'_succ, List.append_assoc]
      rfl

end Halieutics.Lobby
