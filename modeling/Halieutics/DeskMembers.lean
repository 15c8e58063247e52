/-
**Who is stored for a desk, and who is at it.**

A desk keeps its users in `usermap`.  Two databases know them, too: `gamedb` stores a record of
every user of the desk, and `userdb` the active desk of every user.  `joinin`, `init_user`,
`actstandup` and `kick_user` write these databases, at different points.  After a crash the lobby
asks `gamedb` who was at the desk, and takes the active desk of exactly these users away.

`actstandup` makes a seated user an audience, who stays in `usermap`; but it removes his record.

Main definitions:

* `Halieutics.Rpc.gamedb`, `Halieutics.Rpc.userdb` — what the calls of a desk do to the databases;
* `Halieutics.Databases` — databases that a desk with a given history shares with other desks;
* `Halieutics.recoverUsers` — what the lobby does with the stored users of a desk;
* `Halieutics.Visits` — the operations: `join`, `sitdown`, `standup` and `leave` requests that do
  not overlap;
* `Halieutics.Mirrored` — **the users stored for a desk are those at it, and recovery reaches them
  all**;
* `Halieutics.StaysSeated` — the condition: nobody who has a seat stands up.

Main results:

* `Halieutics.members_of_visits` — what is stored, and what is about to be, along every run that
  meets the condition;
* `Halieutics.mirrored_of_staysSeated` — **the stored users mirror the users of the desk whenever no
  request is in flight**;
* `Halieutics.standup_loses_record` — a user who stands up is lost.
-/

import Halieutics.Gamedb
import Halieutics.Userdb
import Halieutics.DeskAlone

set_option relaxedAutoImplicit false
set_option autoImplicit false

namespace Halieutics

open LuaTable Coroutine Redis

/-! ### The databases -/

section Databases

variable {I : Type}

/-- The calls of a desk to `gamedb`. -/
def Rpc.gamedb (id : ℕ) : Rpc → List (Gamedb.Op I ℕ Cost)
  | .addUser uid => [.addUser id uid]
  | .removeUser uid => [.removeUser id uid]
  | .addCost c => [.addCost id c]
  | .saveCosts cs => [.saveCosts id cs]
  | .start => [.start id]
  | .freeDesk => [.freeDesk id]
  | _ => []

/-- The calls of a desk to `userdb` that concern desks. -/
def Rpc.userdb (id : ℕ) (dbs : Userdb.Dbs) : Rpc → Userdb.Dbs
  | .join uid => Userdb.join dbs uid id
  | .leave uid => Userdb.leave dbs uid
  | .dismiss uid => Userdb.dismiss dbs uid id
  | _ => dbs

/-- The records of the desks: the record of a user is, as far as the desk is concerned, his
number. -/
def deskRecords (info : Codec I) (user : Codec ℕ) (cost : Codec Cost) (deskId : I → ℕ)
    (setGuid : I → ℕ → I) :
    Gamedb.Records I ℕ Cost := ⟨info, user, cost, deskId, setGuid, fun uid => uid⟩

variable (R : Gamedb.Records I ℕ Cost)

/-- The desk an operation on `gamedb` is about. -/
def Gamedb.Op.desk? : Gamedb.Op I ℕ Cost → Option ℕ
  | .createDesk _ => none
  | .addUser id _ | .removeUser id _ | .addCost id _ | .saveCosts id _ | .start id | .freeDesk id =>
      some id

/-- **Databases that the desk `id` shares with other desks**, when `hist` is its history: a sequence
of operations on `gamedb`, and the state of `userdb`.  The other desks write what is theirs. -/
inductive Databases (id : ℕ) : List Act → List (Gamedb.Op I ℕ Cost) → Userdb.Dbs → Prop
  | init {hist : List Act} {ops : List (Gamedb.Op I ℕ Cost)} {dbs : Userdb.Dbs} :
      (∀ a ∈ hist, ∃ m, a = .mark m) → (∀ uid, Gamedb.record R id uid ops = none) →
      (∀ uid, Userdb.getActiveDesk dbs uid ≠ some id) → Databases id hist ops dbs
  | mark {hist : List Act} {ops : List (Gamedb.Op I ℕ Cost)} {dbs : Userdb.Dbs} (m : Mark) :
      Databases id hist ops dbs → Databases id (.mark m :: hist) ops dbs
  | call {hist : List Act} {ops : List (Gamedb.Op I ℕ Cost)} {dbs : Userdb.Dbs} (r : Rpc) :
      Databases id hist ops dbs →
      Databases id (.rpc r :: hist) (ops ++ r.gamedb id) (r.userdb id dbs)
  | other {hist : List Act} {ops : List (Gamedb.Op I ℕ Cost)} {dbs : Userdb.Dbs}
      {op : Gamedb.Op I ℕ Cost} : op.desk? ≠ some id → Databases id hist ops dbs →
      Databases id hist (ops ++ [op]) dbs
  | join {hist : List Act} {ops : List (Gamedb.Op I ℕ Cost)} {dbs : Userdb.Dbs}
    (uid : ℕ) {id' : ℕ} :
      id' ≠ id → Databases id hist ops dbs → Databases id hist ops (Userdb.join dbs uid id')
  | leave {hist : List Act} {ops : List (Gamedb.Op I ℕ Cost)} {dbs : Userdb.Dbs} (uid : ℕ) :
      Databases id hist ops dbs → Databases id hist ops (Userdb.leave dbs uid)

/-- The loop of the lobby's `free_desk` over the stored users: `service.userdb.leave(userid)`. -/
def recoverUsers (dbs : Userdb.Dbs) (users : Table ℕ (Option ℕ × ℕ)) : Userdb.Dbs :=
  users.keys.foldl Userdb.leave dbs

/-- **The users stored for a desk are those at it**, and recovery takes the active desk of every
user whose active desk this is. -/
structure Mirrored (d : Desk) (ops : List (Gamedb.Op I ℕ Cost)) (dbs : Userdb.Dbs) : Prop where
  stored : ∀ name, name ∈ (Gamedb.run R ops).hashes (Gamedb.deskKey d.id "userid") ↔
    ∃ uid : ℕ, name = uid.repr ∧ uid ∈ d.usermap
  recovered : ∃ x, Gamedb.restoreDesk R (Gamedb.run R ops) d.id = some x ∧
    ∀ uid, Userdb.getActiveDesk (recoverUsers dbs x.users) uid ≠ some d.id

end Databases

/-! ### The operations -/

/-- The requests of visitors. -/
def Req.visit : Req → Bool
  | .join _ _ | .sitdown _ _ | .standup _ | .leave _ => true
  | _ => false

/-- **The operations**: `join`, `sitdown`, `standup` and `leave` requests that do not overlap. -/
def Visits (s : Sys) (e : Ev) : Prop :=
  Complete s e ∧
    match e with
    | .call r _ => r.visit = true
    | .resume _ _ => True

/-- **The condition**: nobody who has a seat stands up. -/
def StaysSeated (s : Sys) : Ev → Prop
  | .call (.standup uid) _ =>
      ∀ u, s.shared.usermap.lookup uid = some u →
        s.shared.users.lookup (s.shared.objs u).seat = none
  | _ => True

instance (s : Sys) (e : Ev) : Decidable (Visits s e) :=
  match e with
  | .call r inp => (inferInstance : Decidable (Complete s (.call r inp) ∧ r.visit = true))
  | .resume k inp => (inferInstance : Decidable (Complete s (.resume k inp) ∧ True))

/-- The condition can be checked. -/
theorem staysSeated_iff (s : Sys) (e : Ev) :
    (match e with
      | .call (.standup uid) _ =>
          (s.shared.usermap.lookup uid).all fun u =>
            (s.shared.users.lookup (s.shared.objs u).seat).isNone
      | _ => true) = true ↔ StaysSeated s e := by
  unfold StaysSeated
  split
  · rename_i uid _
    cases s.shared.usermap.lookup uid <;> simp
  · exact iff_of_true rfl trivial

instance (s : Sys) (e : Ev) :
    Decidable (StaysSeated s e) := decidable_of_iff _ (staysSeated_iff s e)

/-! ### What is stored, and what is about to be -/

/-- The two databases. -/
inductive Track where
  | stored | home

/-- What a call says about a user: that he is at the desk, or that he is not. -/
def Track.tells (uid : ℕ) : Track → Rpc → Option Bool
  | .stored, .addUser id => if id = uid then some true else none
  | .stored, .removeUser id => if id = uid then some false else none
  | .home, .join id => if id = uid then some true else none
  | .home, .leave id => if id = uid then some false else none
  | _, _ => none

/-- What the last call about a user said. -/
def Track.last (t : Track) (uid : ℕ) : List Act → Bool
  | [] => false
  | .rpc r :: hist => (t.tells uid r).getD (t.last uid hist)
  | .mark _ :: hist => t.last uid hist

/-- What a coroutine is about to say about a user. -/
def Track.plans (d : Desk) (uid : ℕ) : Track → Pc → Option Bool
  | .stored, .joinAdd u => if (d.objs u).id = uid then some true else none
  | .stored, .kickRemove id _ => if id = uid then some false else none
  | .home, .joinAdd u | .home, .joinDb u => if (d.objs u).id = uid then some true else none
  | .home, .kickRemove id _ | .home, .kickLeave id _ => if id = uid then some false else none
  | _, _ => none

/-- What the coroutine at a point, if there is one, and the calls that were made say about a
user. -/
def Track.view (t : Track) (d : Desk) (uid : ℕ) : List Pc → Bool
  | [] => t.last uid d.hist
  | pc :: _ => (t.plans d uid pc).getD (t.last uid d.hist)

/-- The user is at the desk. -/
def Desk.member (d : Desk) (uid : ℕ) : Bool := (d.usermap.lookup uid).isSome

/-- The points of the visitors' requests; a user who stands up has no seat. -/
def Pc.visiting (d : Desk) : Pc → Prop
  | .monitor | .ready | .joinAdd _ | .joinDb _ | .sitUse _ | .sitRecord _ | .sitCost _ _ => True
  | .sitAdd u _ => d.member (d.objs u).id = true
  | .kickRemove _ k | .kickLeave _ k => k = .leave .ret
  | pc => ∃ w st u, pc.walk? = some (w, st) ∧ w.k = .standup u .ret ∧
      d.users.lookup (d.objs u).seat = none

/-- **The invariant**: a user is at the desk exactly if the coroutine that is about to say something
about him says so, or, when there is none, the last call did. -/
structure Members (d : Desk) (l : List Pc) : Prop where
  visiting : ∀ pc ∈ l, pc.visiting d
  asleep : .ready ∈ l → d.sync.waiting = some .ready
  planned : ∀ (t : Track) uid, ∀ pc ∈ l, ∀ b, t.plans d uid pc = some b → d.member uid = b
  known : ∀ (t : Track) uid, (∀ pc ∈ l, t.plans d uid pc = none) →
    d.member uid = t.last uid d.hist

/-! ### One piece of work -/

@[simp] theorem Track.last_mark (t : Track) (uid : ℕ) (m : Mark) (hist : List Act) :
    t.last uid (.mark m :: hist) = t.last uid hist := rfl

theorem Track.last_executed (t : Track) (uid : ℕ) (d : Desk) (inp : Inp) (pc : Pc) :
    t.last uid (executed d inp pc).hist =
      (((pc.rpc d inp).bind (t.tells uid)).getD (t.last uid d.hist)) := by
  unfold executed
  cases pc.rpc d inp with
  | none => rfl
  | some r => rfl

@[simp] theorem usermap_executed (d : Desk) (inp : Inp) (pc : Pc) :
    (executed d inp pc).usermap = d.usermap := by
  unfold executed
  split <;> rfl

@[simp] theorem users_of_executed (d : Desk) (inp : Inp) (pc : Pc) :
    (executed d inp pc).users = d.users := by
  unfold executed
  split <;> rfl

@[simp] theorem sync_executed (d : Desk) (inp : Inp) (pc : Pc) :
    (executed d inp pc).sync = d.sync := by
  unfold executed
  split <;> rfl

/-- **What a piece of work of a visitor does**: it leaves one point of his request behind at most,
and keeps what is said about the users in step with who is at the desk. -/
structure Visited (d : Desk) (ps : List Pc) (o : Out) : Prop where
  pcs : o.pcs = [] ∨ ∃ pc, o.pcs = [pc] ∧ pc.visiting o.d ∧ pc.newDesk = false
  waiting : o.d.sync.waiting = d.sync.waiting
  view : ∀ (t : Track) uid, d.member uid = t.view d uid ps → o.d.member uid = t.view o.d uid o.pcs

section Visited

variable {d d' : Desk} {ps : List Pc}

/-- A request ends. -/
theorem visited_ret (r : Ret) (hm : d'.usermap = d.usermap) (hw : d'.sync.waiting = d.sync.waiting)
    (hv : ∀ (t : Track) uid, d.member uid = t.view d uid ps →
      t.view d uid ps = t.last uid d'.hist) : Visited d ps (.ret d' r) where
  pcs := Or.inl rfl
  waiting := hw
  view := by
    intro t uid h
    rw [Out.d_ret, Out.pcs_ret, Desk.member, hm]
    exact h.trans (hv t uid h)

/-- A request goes on, with nothing to say about the users next. -/
theorem visited_wait {pc : Pc} (hm : d'.usermap = d.usermap) (hw : d'.sync.waiting = d.sync.waiting)
    (hpc : pc.visiting d') (hn : pc.newDesk = false)
    (hv : ∀ (t : Track) uid, d.member uid = t.view d uid ps →
      t.view d uid ps = t.view d' uid [pc]) : Visited d ps (.wait d' pc) where
  pcs := Or.inr ⟨pc, rfl, hpc, hn⟩
  waiting := hw
  view := by
    intro t uid h
    rw [Out.d_wait, Out.pcs_wait, Desk.member, hm]
    exact h.trans (hv t uid h)

/-- A user is dropped, and his records are next. -/
theorem visited_kick (u : Ref) (hm : d'.usermap = d.usermap) (hw : d'.sync.waiting = d.sync.waiting)
    (hh : d'.hist = d.hist) : Visited d [] (kickUser d' u (.leave .ret)) where
  pcs := Or.inr ⟨_, rfl, rfl, rfl⟩
  waiting := hw
  view := by
    intro t uid h
    have hmem : (kickUser d' u (.leave .ret)).d.member uid =
        if uid = (d'.objs u).id then false else d.member uid := by
      change ((d'.usermap.erase (d'.objs u).id).lookup uid).isSome = _
      rw [lookup_erase_eq, Desk.member, hm]
      split <;> rfl
    have hview : t.view (kickUser d' u (.leave .ret)).d uid (kickUser d' u (.leave .ret)).pcs =
        if (d'.objs u).id = uid then false else t.view d uid [] := by
      change (t.plans _ uid (.kickRemove (d'.objs u).id _)).getD (t.last uid d'.hist) = _
      rw [hh]
      cases t <;> simp only [Track.plans] <;> split <;> rfl
    rw [hmem, hview]
    by_cases hu : uid = (d'.objs u).id
    · rw [if_pos hu, if_pos hu.symm]
    · rw [if_neg hu, if_neg fun he => hu he.symm, h]

/-- A user joins, and his records are next. -/
theorem visited_join (user : User) : Visited d [] (.wait (joinin d user) (.joinAdd d.nobj)) where
  pcs := Or.inr ⟨_, rfl, trivial, rfl⟩
  waiting := rfl
  view := by
    intro t uid h
    have hid : ((joinin d user).objs d.nobj).id = user.id := by simp [joinin]
    have hmem : (joinin d user).member uid = if uid = user.id then true else d.member uid := by
      change ((d.usermap.insert user.id d.nobj).lookup uid).isSome = _
      rw [lookup_insert_eq, Desk.member]
      split <;> rfl
    have hview : t.view (joinin d user) uid [.joinAdd d.nobj] =
        if user.id = uid then true else t.view d uid [] := by
      change (t.plans (joinin d user) uid (.joinAdd d.nobj)).getD (t.last uid d.hist) = _
      cases t <;> simp only [Track.plans, hid] <;> split <;> rfl
    rw [Out.d_wait, Out.pcs_wait, hmem, hview]
    by_cases hu : uid = user.id
    · rw [if_pos hu, if_pos hu.symm]
    · rw [if_neg hu, if_neg fun he => hu he.symm, h]

end Visited

/-- Somebody without a seat stands up: nothing happens. -/
theorem actstandup_unseated {d : Desk} {seat : ℤ} (h : d.users.lookup seat = none) :
    actstandup d seat .ret = .ret d .ok := by
  unfold actstandup
  rw [h]
  rfl

/-- A walk of `back_roomcard` for somebody who has no seat. -/
theorem visited_walkOn {d d' : Desk} {ps : List Pc} {w : Walk} {u : Ref}
    (hk : w.k = .standup u .ret) (hu : d'.users.lookup (d'.objs u).seat = none)
    (hm : d'.usermap = d.usermap) (hw : d'.sync.waiting = d.sync.waiting)
    (hv : ∀ (t : Track) uid, t.view d uid ps = t.last uid d'.hist) :
    Visited d ps (walkOn d' w) := by
  obtain ⟨w', pc, h, hk', -, -, hpc⟩ := walk_cases d' w ((d'.tabs w.tab).drop w.i)
  rw [walkOn, h]
  have hvis : pc.visiting d' := by
    rcases hpc with ⟨c, rfl⟩ | rfl
    · exact ⟨w', _, u, rfl, hk'.trans hk, hu⟩
    · exact ⟨w', _, u, rfl, hk'.trans hk, hu⟩
  have hn : pc.newDesk = false := by rcases hpc with ⟨c, rfl⟩ | rfl <;> rfl
  refine visited_wait hm hw hvis hn fun t uid _ => (hv t uid).trans ?_
  rcases hpc with ⟨c, rfl⟩ | rfl <;> cases t <;> rfl

/-- **The first segment of a visitor's request.** -/
theorem visited_req {s : Sys} {r : Req} {inp : Inp} (hr : r.visit = true)
    (hC : StaysSeated s (.call r inp)) (hids : ∀ uid u, s.shared.usermap.lookup uid = some u →
      (s.shared.objs u).id = uid) : Visited s.shared [] (direct s.shared inp r) := by
  have ret : ∀ r, Visited s.shared [] (.ret s.shared r) := fun r =>
    visited_ret r rfl rfl fun _ _ _ => rfl
  cases r with
  | join uid android =>
      rcases join_cases s.shared uid android inp with ⟨r, h⟩ | ⟨user, -, -, -, -, h⟩
      · rw [direct, h]; exact ret r
      · rw [direct, h]; exact visited_join user
  | sitdown uid withseat =>
      rcases sitdown_cases s.shared uid withseat with ⟨r, h⟩ | ⟨u, seat, rest, -, -, hu, -, h⟩
      · rw [direct, h]; exact ret r
      · rw [direct, h]
        refine visited_wait rfl (Sync.add_waiting _ _ _) ?_ rfl ?_
        · change (s.shared.usermap.lookup ((assignSeat s.shared u seat rest).objs u).id).isSome =
            true
          rw [id_assignSeat, hids uid u hu, hu]
          rfl
        · intro t uid' _
          cases t <;> rfl
  | standup uid =>
      have act : ∀ u, s.shared.usermap.lookup uid = some u →
          Visited s.shared [] (actstandup s.shared (s.shared.objs u).seat .ret) := by
        intro u hu
        rw [actstandup_unseated (hC u hu)]
        exact ret _
      dsimp only [direct, standup]
      split
      · exact ret _
      · split
        · exact ret _
        · split
          · exact ret _
          · rename_i u hu
            split
            · unfold backRoomcard
              split
              · exact act u hu
              · exact visited_walkOn rfl (hC u hu) rfl rfl fun _ _ => rfl
            · exact act u hu
  | leave uid =>
      dsimp only [direct, leave]
      split
      · exact ret _
      · split
        · exact ret _
        · split
          · exact ret _
          · exact visited_kick _ rfl rfl rfl
          · exact visited_kick _ rfl (Sync.add_waiting _ _ _) rfl
  | _ => simp [Req.visit] at hr

/-- A call that says nothing about the users. -/
theorem view_quiet {d : Desk} (inp : Inp) {pc : Pc} {t : Track} {uid : ℕ}
    (hp : t.plans d uid pc = none) (hr : (pc.rpc d inp).bind (t.tells uid) = none) :
    t.view d uid [pc] = t.last uid (executed d inp pc).hist := by
  rw [Track.last_executed, hr, Track.view, hp]

/-- **The segment of a visitor's request.** -/
theorem visited_seg (d : Desk) (inp : Inp) {pc : Pc} (hpc : pc.visiting d)
    (hs : pc.serving = true) :
    Visited d [pc] (segment (executed d inp pc) inp pc) := by
  have hm := usermap_executed d inp pc
  have hw : (executed d inp pc).sync.waiting = d.sync.waiting := by rw [sync_executed]
  -- a request that says nothing now and nothing next
  have ret : ∀ r, (∀ (t : Track) uid, t.view d uid [pc] = t.last uid (executed d inp pc).hist) →
      Visited d [pc] (.ret (executed d inp pc) r) :=
    fun r h => visited_ret r hm hw fun t uid _ => h t uid
  have ends : ∀ (d' : Desk) (u : Ref), d'.usermap = d.usermap → d'.sync.waiting = d.sync.waiting →
      (∀ (t : Track) uid, d.member uid = t.view d uid [pc] →
        t.view d uid [pc] = t.last uid d'.hist) → Visited d [pc] (sitEnd d' u) := by
    intro d' u hm hw hv
    unfold sitEnd
    dsimp only
    split
    · exact visited_ret _ hm hw hv
    · exact visited_ret _ hm hw hv
  have walks : ∀ (w : Walk), (∃ w' st u, pc.walk? = some (w', st) ∧ w'.k = .standup u .ret ∧
      d.users.lookup (d.objs u).seat = none ∧ w.k = w'.k) →
      (∀ (t : Track) uid, t.view d uid [pc] = t.last uid (executed d inp pc).hist) →
      Visited d [pc] (walkOn (executed d inp pc) w) := by
    rintro w ⟨w', st, u, -, hk, hu, hkw⟩ hv
    refine visited_walkOn (hkw.trans hk) ?_ hm hw hv
    rw [users_of_executed, objs_executed]
    exact hu
  cases pc with
  | joinAdd u =>
      refine visited_wait hm hw trivial rfl fun t uid _ => ?_
      have hid : ((executed d inp (.joinAdd u)).setUser u fun x => { x with push := true }).objs u =
          { d.objs u with push := true } := by
        rw [objs_setUser_self, objs_executed]
      have hlast := t.last_executed uid d inp (.joinAdd u)
      simp only [Pc.rpc, Option.bind_some] at hlast
      simp only [Track.view]
      change _ = ((t.plans _ uid (.joinDb u)).getD (t.last uid (executed d inp (.joinAdd u)).hist))
      rw [hlast]
      cases t <;> simp only [Track.plans, Track.tells, hid] <;> split <;> rfl
  | joinDb u =>
      refine ret _ fun t uid => ?_
      rw [Track.last_executed]
      cases t <;> rfl
  | sitAdd u seat =>
      have hlast : ∀ (t : Track) uid, d.member uid = t.view d uid [.sitAdd u seat] →
          t.view d uid [.sitAdd u seat] = t.last uid (executed d inp (.sitAdd u seat)).hist := by
        intro t uid h
        rw [Track.last_executed]
        cases t with
        | home => rfl
        | stored =>
            simp only [Pc.rpc, Option.bind_some, Track.tells]
            split
            · rename_i he
              rw [← h, ← he]
              exact hpc
            · rfl
      dsimp only [segment, sitSeated]
      split
      · refine visited_wait hm hw trivial rfl fun t uid h => ?_
        rw [hlast t uid h]
        cases t <;> rfl
      · exact ends _ u hm hw fun t uid h => hlast t uid h
  | sitUse u =>
      have hv : ∀ (t : Track) uid, t.view d uid [.sitUse u]
          = t.last uid (executed d inp (.sitUse u)).hist := by
        intro t uid
        exact view_quiet inp (by cases t <;> rfl) (by cases t <;> rfl)
      dsimp only [segment]
      split
      · refine visited_wait hm hw trivial rfl fun t uid _ => (hv t uid).trans ?_
        cases t <;> rfl
      · exact ret _ hv
  | sitRecord u =>
      have hv : ∀ (t : Track) uid, t.view d uid [.sitRecord u]
          = t.last uid (executed d inp (.sitRecord u)).hist := by
        intro t uid
        exact view_quiet inp (by cases t <;> rfl) (by cases t <;> rfl)
      dsimp only [segment, deskCostBackup]
      split
      · refine visited_wait hm hw trivial rfl fun t uid _ => (hv t uid).trans ?_
        cases t <;> rfl
      · exact ret _ hv
  | sitCost u c =>
      refine ends _ u hm hw fun t uid _ => ?_
      exact view_quiet inp (by cases t <;> rfl) (by cases t <;> rfl)
  | backRecord w c =>
      refine visited_wait hm hw ?_ rfl fun t uid _ => ?_
      · obtain ⟨w', st, u, hw', hk, hu⟩ := hpc
        obtain ⟨rfl, -⟩ := Prod.mk.inj (Option.some.inj hw')
        exact ⟨w, _, u, rfl, hk, by rw [users_of_executed, objs_executed]; exact hu⟩
      · refine (view_quiet inp (by cases t <;> rfl) (by cases t <;> rfl)).trans ?_
        cases t <;> rfl
  | backAdd w c =>
      refine visited_wait hm hw ?_ rfl fun t uid _ => ?_
      · obtain ⟨w', st, u, hw', hk, hu⟩ := hpc
        obtain ⟨rfl, -⟩ := Prod.mk.inj (Option.some.inj hw')
        exact ⟨w, _, u, rfl, hk, by rw [users_of_executed, objs_executed]; exact hu⟩
      · refine (view_quiet inp (by cases t <;> rfl) (by cases t <;> rfl)).trans ?_
        cases t <;> rfl
  | backQuery w c =>
      have hv : ∀ (t : Track) uid, t.view d uid [.backQuery w c]
          = t.last uid (executed d inp (.backQuery w c)).hist := by
        intro t uid
        exact view_quiet inp (by cases t <;> rfl) (by cases t <;> rfl)
      obtain ⟨w', st, u, hw', hk, hu⟩ := hpc
      obtain ⟨rfl, -⟩ := Prod.mk.inj (Option.some.inj hw')
      dsimp only [segment]
      split
      · refine visited_wait hm hw ?_ rfl fun t uid _ => (hv t uid).trans ?_
        · exact ⟨w, _, u, rfl, hk, by rw [users_of_executed, objs_executed]; exact hu⟩
        · cases t <;> rfl
      · exact walks _ ⟨w, _, u, rfl, hk, hu, rfl⟩ hv
  | backPush w c =>
      have hv : ∀ (t : Track) uid, t.view d uid [.backPush w c]
          = t.last uid (executed d inp (.backPush w c)).hist := by
        intro t uid
        exact view_quiet inp (by cases t <;> rfl) (by cases t <;> rfl)
      obtain ⟨w', st, u, hw', hk, hu⟩ := hpc
      obtain ⟨rfl, -⟩ := Prod.mk.inj (Option.some.inj hw')
      dsimp only [segment]
      split
      · exact visited_ret _ hm hw fun t uid _ => hv t uid
      · exact walks _ ⟨w, _, u, rfl, hk, hu, rfl⟩ hv
  | backSave w =>
      obtain ⟨w', st, u, hw', hk, hu⟩ := hpc
      obtain ⟨rfl, -⟩ := Prod.mk.inj (Option.some.inj hw')
      dsimp only [segment]
      rw [hk]
      dsimp only [afterBack]
      rw [actstandup_unseated]
      · refine visited_ret _ hm hw fun t uid _ => ?_
        exact view_quiet inp (by cases t <;> rfl) (by cases t <;> rfl)
      · change (executed d inp (.backSave w)).users.lookup
          ((executed d inp (.backSave w)).objs u).seat
          = none
        rw [users_of_executed, objs_executed]
        exact hu
  | kickRemove uid k =>
      obtain rfl : k = .leave .ret := hpc
      refine visited_wait hm hw rfl rfl fun t uid' _ => ?_
      have hlast := t.last_executed uid' d inp (.kickRemove uid (.leave .ret))
      simp only [Pc.rpc, Option.bind_some] at hlast
      simp only [Track.view]
      rw [hlast]
      cases t <;> simp only [Track.plans, Track.tells] <;> split <;> rfl
  | kickLeave uid k =>
      obtain rfl : k = .leave .ret := hpc
      refine ret _ fun t uid' => ?_
      rw [Track.last_executed]
      cases t <;> rfl
  | monitor => simp [Pc.serving, Pc.background] at hs
  | ready => simp [Pc.serving, Pc.background] at hs
  | _ => obtain ⟨w, st, u, hw', -⟩ := hpc; simp [Pc.walk?] at hw'

/-! ### Runs -/

/-- The operations, and the condition. -/
def VisitsSeated (s : Sys) (e : Ev) : Prop := Visits s e ∧ StaysSeated s e

instance (s : Sys) (e : Ev) : Decidable (VisitsSeated s e) := inferInstanceAs (Decidable (_ ∧ _))

theorem Members.perm {d : Desk} {l l' : List Pc} (hp : l'.Perm l) (h : Members d l) :
    Members d l' where
  visiting := fun pc hpc => h.visiting pc (hp.mem_iff.1 hpc)
  asleep := fun hr => h.asleep (hp.mem_iff.1 hr)
  planned := fun t uid pc hpc => h.planned t uid pc (hp.mem_iff.1 hpc)
  known := fun t uid hn => h.known t uid fun pc hpc => hn pc (hp.mem_iff.2 hpc)

/-- Only the tables of users matter. -/
theorem visiting_congr {d d' : Desk} {pc : Pc} (hu : d'.users = d.users)
    (hm : d'.usermap = d.usermap) (ho : d'.objs = d.objs) (h : pc.visiting d) : pc.visiting d' := by
  cases d
  cases d'
  dsimp only at hu hm ho
  subst hu hm ho
  cases pc <;> exact h

theorem plans_congr {d d' : Desk} (ho : d'.objs = d.objs) (t : Track) (uid : ℕ) (pc : Pc) :
    t.plans d' uid pc = t.plans d uid pc := by
  cases t <;> cases pc <;> simp only [Track.plans, ho]

theorem Members.cs {d : Desk} {l : List Pc} (b : Bool) (q : List (Ref × Cmd)) (h : Members d l) :
    Members { d with csBusy := b, csQueue := q } l where
  visiting := fun pc hpc => visiting_congr (d := d) rfl rfl rfl (h.visiting pc hpc)
  asleep := h.asleep
  planned := by
    intro t uid pc hpc b' hb
    refine h.planned t uid pc hpc b' (Eq.trans (Eq.symm ?_) hb)
    exact plans_congr rfl t uid pc
  known := by
    intro t uid hn
    refine h.known t uid fun pc hpc => ?_
    rw [← hn pc hpc]
    exact (plans_congr (d := d) rfl t uid pc).symm

/-- `new_desk` reaches its barrier. -/
theorem Members.park {d : Desk} {rest : List Pc} {sync : Sync} (hw : sync.waiting = some .ready)
    (h : Members d (.monitor :: rest)) :
    Members { d.called .monitorDesk with sync := sync } (.ready :: rest) where
  visiting := by
    intro pc hpc
    rcases List.mem_cons.1 hpc with rfl | hpc
    · trivial
    · exact visiting_congr (d := d) rfl rfl rfl (h.visiting pc (List.mem_cons_of_mem _ hpc))
  asleep := fun _ => hw
  planned := by
    intro t uid pc hpc b hb
    rcases List.mem_cons.1 hpc with rfl | hpc
    · cases t <;> simp [Track.plans] at hb
    · refine h.planned t uid pc (List.mem_cons_of_mem _ hpc) b (Eq.trans (Eq.symm ?_) hb)
      exact plans_congr rfl t uid pc
  known := by
    intro t uid hn
    have hlast : t.last uid (d.called .monitorDesk).hist = t.last uid d.hist := by cases t <;> rfl
    refine (h.known t uid fun pc hpc => ?_).trans hlast.symm
    rcases List.mem_cons.1 hpc with rfl | hpc
    · cases t <;> rfl
    · rw [← hn pc (List.mem_cons_of_mem _ hpc)]
      exact (plans_congr (d := d) rfl t uid pc).symm

/-- The points that remain while nobody is served. -/
theorem background_of_visiting {d : Desk} {pc : Pc} (hpc : pc.visiting d)
    (hs : pc.serving = false) :
    pc = .monitor ∨ pc = .ready := by
  cases pc with
  | monitor => exact Or.inl rfl
  | ready => exact Or.inr rfl
  | kickRemove uid k =>
      obtain rfl : k = .leave .ret := hpc
      simp [Pc.serving, Pc.background, Pc.freeing] at hs
  | kickLeave uid k =>
      obtain rfl : k = .leave .ret := hpc
      simp [Pc.serving, Pc.background, Pc.freeing] at hs
  | _ =>
      first
        | simp [Pc.serving, Pc.background, Pc.freeing] at hs; done
        | (obtain ⟨w, st, u, hw, -⟩ := hpc; simp [Pc.walk?] at hw)

theorem plans_background {pc : Pc} (h : pc = .monitor ∨ pc = .ready) (t : Track) (d : Desk)
    (uid : ℕ) : t.plans d uid pc = none := by
  rcases h with rfl | rfl <;> cases t <;> rfl

/-- Before its work a visitor's coroutine, or the last call, says who is at the desk. -/
theorem Members.view {d : Desk} {ps rest : List Pc} (hps : ps.length ≤ 1)
    (hrest : ∀ pc ∈ rest, pc = .monitor ∨ pc = .ready) (h : Members d (ps ++ rest)) (t : Track)
    (uid : ℕ) : d.member uid = t.view d uid ps := by
  have hnone : ∀ pc ∈ rest, t.plans d uid pc = none := fun pc hpc =>
    plans_background (hrest pc hpc) t d uid
  cases ps with
  | nil => exact h.known t uid hnone
  | cons pc ps =>
      obtain rfl : ps = [] := List.length_eq_zero_iff.1 (by simpa using hps)
      cases hp : t.plans d uid pc with
      | some b =>
          rw [Track.view, hp]
          exact h.planned t uid pc List.mem_cons_self b hp
      | none =>
          rw [Track.view, hp]
          refine h.known t uid fun pc' hpc' => ?_
          rcases List.mem_cons.1 hpc' with rfl | hpc'
          · exact hp
          · exact hnone pc' hpc'

/-- After it, the same holds again. -/
theorem Visited.members {d : Desk} (ps : List Pc) {rest : List Pc} {o : Out} (hps : ps.length ≤ 1)
    (hrest : ∀ pc ∈ rest, pc = .monitor ∨ pc = .ready) (h : Members d (ps ++ rest))
    (ho : Visited d ps o) : Members o.d (o.pcs ++ rest) := by
  have hview := fun t uid => ho.view t uid (h.view hps hrest t uid)
  have hnone : ∀ (t : Track) uid, ∀ pc ∈ rest, t.plans o.d uid pc = none := fun t uid pc hpc =>
    plans_background (hrest pc hpc) t o.d uid
  refine ⟨?_, ?_, ?_, ?_⟩
  · intro pc hpc
    rcases List.mem_append.1 hpc with hpc | hpc
    · rcases ho.pcs with he | ⟨pc', he, hv, -⟩
      · simp [he] at hpc
      · obtain rfl : pc = pc' := by simpa [he] using hpc
        exact hv
    · rcases hrest pc hpc with rfl | rfl <;> trivial
  · intro hr
    rw [ho.waiting]
    refine h.asleep (List.mem_append_right _ ?_)
    rcases List.mem_append.1 hr with hr | hr
    · rcases ho.pcs with he | ⟨pc', he, -, hn⟩
      · simp [he] at hr
      · obtain rfl : Pc.ready = pc' := by simpa [he] using hr
        simp [Pc.newDesk] at hn
    · exact hr
  · intro t uid pc hpc b hb
    rcases List.mem_append.1 hpc with hpc | hpc
    · have hv := hview t uid
      rcases ho.pcs with he | ⟨pc', he, -, -⟩
      · simp [he] at hpc
      · obtain rfl : pc = pc' := by simpa [he] using hpc
        rw [hv, he, Track.view, hb]
        rfl
    · rw [hnone t uid pc hpc] at hb
      exact absurd hb (by simp)
  · intro t uid hn
    have hv := hview t uid
    rcases ho.pcs with he | ⟨pc', he, -, -⟩
    · rw [hv, he]
      rfl
    · rw [hv, he, Track.view, hn pc' (by simp [he])]
      rfl

section Runs

variable {id creater timelimit : ℕ} {pay : Pay} {s : Sys}

/-- **What is stored, and what is about to be, along every run** that meets the condition. -/
theorem members_of_visits (h : desk.Reach VisitsSeated (created id creater pay timelimit) s) :
    Members s.shared (pcs s) := by
  have hinv : ∀ s, desk.Reach VisitsSeated (created id creater pay timelimit) s →
      Alone s ∧ OneNewDesk s.shared (pcs s) ∧
        ∀ uid u, s.shared.usermap.lookup uid = some u → (s.shared.objs u).id = uid := by
    intro s hs
    have hc := hs.mono fun s e (hC : VisitsSeated s e) => hC.1.1
    exact ⟨alone_of_complete hc, one_newDesk hs,
      fun uid u hu => ((seatInv_of_sitsApart (hc.mono fun s e => sitsApart_of_complete e)).base.ids
        uid u hu).1⟩
  refine Machine.Reach.inv (P := fun s => Members s.shared (pcs s)) ?_ ?_ (h.and_inv hinv)
  · refine ⟨?_, ?_, ?_, ?_⟩
    · simp [created, pcs, Pc.visiting]
    · simp [created, pcs]
    · intro t uid pc hpc b hb
      obtain rfl : pc = .monitor := by simpa [created, pcs] using hpc
      cases t <;> simp [Track.plans] at hb
    · intro t uid _
      simp [created, Desk.create, Desk.member, Track.last]
  · rintro s e s' hI ⟨⟨⟨hC, hvisit⟩, hseated⟩, halone, hone, hids⟩ he
    rcases desk_cases he with ⟨q, rfl, hq⟩ | ⟨j, inp, rest, b, q, l, hj, hp, hen, hd, hp', hl⟩
    · rcases hq with rfl | ⟨-, uid, c, inp, rfl⟩
      · exact hI
      · simp [Req.visit] at hvisit
    · -- no command is queued
      obtain ⟨-, hcs⟩ := single_job s.shared inp j
      rw [hcs, halone.queue] at hl
      obtain rfl : l = [] := by
        rcases hl with ⟨rfl, -⟩ | ⟨u, c, hl, -⟩
        · rfl
        · simp at hl
      have hI' := hI.perm hp.symm
      suffices hm : Members (j.out s.shared inp).d ((j.out s.shared inp).pcs ++ rest) by
        rw [hd]
        exact (hm.cs b q).perm hp'
      cases e with
      | call r inp' =>
          obtain ⟨rfl, rfl⟩ : j = .req r ∧ inp = inp' := by
            cases r <;> simp_all [jobOf, Req.visit]
          have hrest : ∀ pc ∈ rest, pc = .monitor ∨ pc = .ready := fun pc hpc =>
            background_of_visiting (hI'.visiting pc (List.mem_append_right _ hpc))
              (halone.rest hC hj hp (by cases r <;> simp_all [Job.serving, Req.visit, Req.timer])
                pc hpc)
          exact (visited_req hvisit hseated hids).members [] (by simp) hrest hI'
      | resume k inp' =>
          obtain ⟨co, -, hco⟩ := Option.map_eq_some_iff.1 hj
          obtain ⟨rfl, rfl⟩ := Prod.mk.inj hco
          have hvis := hI'.visiting co.pc (List.mem_append_left _ (by simp [Job.pcs]))
          cases hs : co.pc.serving with
          | true =>
              have hrest : ∀ pc ∈ rest, pc = .monitor ∨ pc = .ready := fun pc hpc =>
                background_of_visiting (hI'.visiting pc (List.mem_append_right _ hpc))
                  (halone.rest hC hj hp hs pc hpc)
              exact (visited_seg s.shared inp' hvis hs).members [co.pc] le_rfl hrest hI'
          | false =>
              rcases background_of_visiting hvis hs with hpc | hpc
              · -- `new_desk` reaches its barrier
                have ht := (hone.perm hp).timely co.pc (List.mem_append_left _ (by simp [Job.pcs]))
                rw [hpc] at ht hI' ⊢
                have hwait : (executed s.shared inp' .monitor).sync.waiting = none := by
                  rw [sync_executed]
                  exact ht.2
                rcases sleepOn_cases (executed s.shared inp' .monitor) .ready .ready with
                  ⟨-, h⟩ | ⟨hne, -⟩
                · rw [Job.out, segment, h]
                  exact Members.park (d := s.shared) rfl hI'
                · exact absurd hwait hne
              · -- `new_desk` is asleep
                rw [hpc] at hI' hen
                have hwake := hen .ready (by simp [Job.pcs])
                have hasleep := hI'.asleep (List.mem_append_left _ (by simp [Job.pcs]))
                simp [Pc.enabled, hasleep] at hwake

theorem plans_of_idle (hi : Idle s) (t : Track) (d : Desk) (uid : ℕ) :
    ∀ pc ∈ pcs s, t.plans d uid pc = none := by
  intro pc hpc
  obtain ⟨co, hco, rfl⟩ := List.mem_map.1 hpc
  have hb := hi co hco
  cases t <;> cases hc : co.pc <;> simp_all [Pc.background, Track.plans]

end Runs

/-! ### The stored users mirror the users of the desk -/

section Mirror

variable {I : Type} {R : Gamedb.Records I ℕ Cost} {id : ℕ} {hist : List Act}
  {ops : List (Gamedb.Op I ℕ Cost)} {dbs : Userdb.Dbs}

theorem Track.last_marks (t : Track) (uid : ℕ) (h : ∀ a ∈ hist, ∃ m, a = .mark m) :
    t.last uid hist = false := by
  induction hist with
  | nil => rfl
  | cons a hist ih =>
      obtain ⟨m, rfl⟩ := h a List.mem_cons_self
      exact ih fun a ha => h a (List.mem_cons_of_mem _ ha)

/-- **The stored users are those whose last call added them.** -/
theorem Databases.stored (hR : ∀ u, R.userId u = u) (h : Databases R id hist ops dbs) (uid : ℕ) :
    (Gamedb.record R id uid ops).isSome = Track.stored.last uid hist := by
  induction h with
  | init hm hn _ => rw [hn, Track.last_marks _ _ hm]; rfl
  | mark m _ ih => exact ih
  | call r _ ih =>
      cases r with
      | addUser uid' =>
          simp only [Rpc.gamedb, Gamedb.record_append_singleton, Gamedb.Op.record, hR, Track.last,
            Track.tells, true_and]
          by_cases hu : uid = uid'
          · simp [hu]
          · rw [if_neg hu, if_neg fun he => hu he.symm, ih]
            rfl
      | removeUser uid' =>
          simp only [Rpc.gamedb, Gamedb.record_append_singleton, Gamedb.Op.record, Track.last,
            Track.tells, true_and]
          by_cases hu : uid = uid'
          · simp [hu]
          · rw [if_neg hu, if_neg fun he => hu he.symm, ih]
            rfl
      | addCost c | saveCosts cs | start | freeDesk =>
          rw [Rpc.gamedb, Gamedb.record_append_singleton]
          exact ih
      | _ =>
          exact (congrArg (fun l => (Gamedb.record R id uid l).isSome) (List.append_nil _)).trans ih
  | @other hist ops dbs op hop _ ih =>
      rw [Gamedb.record_append_singleton, ← ih]
      cases op with
      | addUser id' u =>
          rw [Gamedb.Op.record, if_neg]
          rintro ⟨rfl, -⟩
          exact hop rfl
      | removeUser id' u =>
          rw [Gamedb.Op.record, if_neg]
          rintro ⟨rfl, -⟩
          exact hop rfl
      | _ => rfl
  | join uid' _ _ ih => exact ih
  | leave uid' _ ih => exact ih

/-- **Whoever has the desk as his active desk was last told to have joined it.** -/
theorem Databases.home (h : Databases R id hist ops dbs) {uid : ℕ}
    (ha : Userdb.getActiveDesk dbs uid = some id) : Track.home.last uid hist = true := by
  induction h with
  | init _ _ hn => exact absurd ha (hn uid)
  | mark m _ ih => exact ih ha
  | @call hist ops dbs r _ ih =>
      cases r with
      | join uid' =>
          simp only [Rpc.userdb, Userdb.getActiveDesk_join] at ha
          simp only [Track.last, Track.tells]
          by_cases hu : uid = uid'
          · simp [hu]
          · rw [if_neg hu] at ha
            rw [if_neg fun he => hu he.symm]
            exact ih ha
      | leave uid' =>
          simp only [Rpc.userdb, Userdb.getActiveDesk_leave] at ha
          simp only [Track.last, Track.tells]
          by_cases hu : uid = uid'
          · rw [if_pos hu] at ha
            exact absurd ha (by simp)
          · rw [if_neg hu] at ha
            rw [if_neg fun he => hu he.symm]
            exact ih ha
      | dismiss uid' =>
          refine ih ?_
          rw [← ha]
          exact (Userdb.getActiveDesk_dismiss _ _ _ _).symm
      | _ => exact ih ha
  | other _ _ ih => exact ih ha
  | @join hist ops dbs uid' id' hne _ ih =>
      rw [Userdb.getActiveDesk_join] at ha
      split at ha
      · exact absurd (Option.some.inj ha) hne
      · exact ih ha
  | @leave hist ops dbs uid' _ ih =>
      rw [Userdb.getActiveDesk_leave] at ha
      split at ha
      · exact absurd ha (by simp)
      · exact ih ha

/-- There are databases for every history. -/
theorem exists_databases (R : Gamedb.Records I ℕ Cost) (id : ℕ) (hist : List Act) :
    ∃ ops dbs, Databases R id hist ops dbs := by
  induction hist with
  | nil => exact ⟨[], {}, .init (by simp) (fun _ => rfl) fun _ => by simp [Userdb.getActiveDesk,
      Store.hget, Userdb.Dbs.of]⟩
  | cons a hist ih =>
      obtain ⟨ops, dbs, h⟩ := ih
      cases a with
      | rpc r => exact ⟨_, _, h.call r⟩
      | mark m => exact ⟨_, _, h.mark m⟩

end Mirror

section Claim

variable {I : Type} {info : Codec I} {user : Codec ℕ} {cost : Codec Cost} {deskId : I → ℕ}
  {setGuid : I → ℕ → I} {id creater timelimit : ℕ} {pay : Pay} {s : Sys}
  {ops : List (Gamedb.Op I ℕ Cost)} {dbs : Userdb.Dbs}

/-- **The stored users mirror the users of the desk**, and recovery reaches them all, whenever no
request is in flight, in every run in which nobody who has a seat stands up. -/
theorem mirrored_of_staysSeated
    (h : desk.Reach VisitsSeated (created id creater pay timelimit) s) (hi : Idle s)
    (hdb : Databases (deskRecords info user cost deskId setGuid) s.shared.id
    s.shared.hist ops dbs) :
    Mirrored (deskRecords info user cost deskId setGuid) s.shared ops dbs := by
  have hm := members_of_visits h
  have hknown : ∀ (t : Track) uid, s.shared.member uid = t.last uid s.shared.hist := fun t uid =>
    hm.known t uid (plans_of_idle hi t s.shared uid)
  have hstored : ∀ uid, (Gamedb.record (deskRecords info user cost deskId setGuid) s.shared.id uid
      ops).isSome = s.shared.member uid := fun uid =>
    (hdb.stored (fun _ => rfl) uid).trans (hknown .stored uid).symm
  obtain ⟨R, hR⟩ : ∃ R, R = deskRecords info user cost deskId setGuid := ⟨_, rfl⟩
  rw [← hR] at hstored hdb ⊢
  refine ⟨fun name => ?_, ?_⟩
  · have hmem : ∀ uid : ℕ,
      uid.repr ∈ (Gamedb.run R ops).hashes (Gamedb.deskKey s.shared.id "userid") ↔
        uid ∈ s.shared.usermap := by
      intro uid
      rw [← AList.lookup_isSome, Gamedb.lookup_users_run, Option.isSome_map, hstored, Desk.member,
        AList.lookup_isSome]
    constructor
    · intro hn
      obtain ⟨v, hv⟩ := Option.isSome_iff_exists.1 (AList.lookup_isSome.2 hn)
      obtain ⟨uid, rfl⟩ := Gamedb.numbered_users_run R ops _ hv
      exact ⟨uid, rfl, (hmem uid).1 hn⟩
    · rintro ⟨uid, rfl, hu⟩
      exact (hmem uid).2 hu
  · obtain ⟨x, hx, husers, -, -⟩ := Gamedb.restoreDesk_run R ops s.shared.id
    refine ⟨x, hx, fun uid ha => ?_⟩
    rw [recoverUsers, Userdb.getActiveDesk_foldl_leave] at ha
    split at ha
    · exact absurd ha (by simp)
    · rename_i hn
      have hhome : s.shared.member uid = true := (hknown .home uid).trans (hdb.home ha)
      refine hn ?_
      rw [← lookup_isSome_iff_mem_keys, husers, Option.isSome_map, hstored, hhome]

end Claim

/-- The cost entries, encoded as numbers. -/
def costCodec : Codec Cost where
  enc c := (Encodable.encode (c.userid, c.count, c.serial)).repr
  dec s := s.toNat?.bind fun n =>
    (Encodable.decode n : Option (ℕ × ℤ × ℕ)).map fun p => ⟨p.1, p.2.1, p.2.2⟩
  dec_enc c := by
    rw [Nat.toNat?_repr, Option.bind_some, Encodable.encodek, Option.map_some]

/-- Desks of which the store keeps numbers. -/
def numberRecords : Gamedb.Records ℕ ℕ Cost :=
  deskRecords .nat .nat costCodec (fun info => info) fun info _ => info

/-- User 2 sits, and user 3 has come and gone. -/
theorem mirrored_joinAndSit :
    ∃ s ops dbs, (desk.Reach VisitsSeated (created 100001 1 ⟨true, 3⟩ 30) s ∧ Idle s ∧
      s.shared.usermap.keys = [2]) ∧ Databases numberRecords s.shared.id s.shared.hist ops dbs ∧
      Mirrored numberRecords s.shared ops dbs := by
  obtain ⟨s, hs, hp⟩ := Machine.exists_reach (M := desk) (C := VisitsSeated)
    (i := created 100001 1 ⟨true, 3⟩ 30)
    (joinAndSit ++ [.call (.join 3 false) {}, .resume 1 {}, .resume 1 {}, .call (.leave 3) {},
      .resume 1 {}, .resume 1 {}])
    (p := fun s => decide (Idle s ∧ s.shared.usermap.keys = [2])) (by decide +kernel)
  obtain ⟨hi, hk⟩ := of_decide_eq_true hp
  obtain ⟨ops, dbs, hdb⟩ := exists_databases numberRecords s.shared.id s.shared.hist
  exact ⟨s, ops, dbs, ⟨hs, hi, hk⟩, hdb, mirrored_of_staysSeated hs hi hdb⟩

/-- **A user who stands up is lost**: he is still at the desk, but he is not stored any more. -/
theorem standup_loses_record :
    ¬ ∀ (id creater timelimit : ℕ) (pay : Pay) (s : Sys) (ops : List (Gamedb.Op ℕ ℕ Cost))
      (dbs : Userdb.Dbs), desk.Reach Visits (created id creater pay timelimit) s → Idle s →
      Databases numberRecords s.shared.id s.shared.hist ops dbs →
      Mirrored numberRecords s.shared ops dbs := by
  intro hall
  obtain ⟨s, hs, hp⟩ := Machine.exists_reach (M := desk) (C := Visits)
    (i := created 100001 1 ⟨false, 3⟩ 30)
    [.call (.join 2 false) {}, .resume 1 {}, .resume 1 {}, .call (.sitdown 2 none) {}, .resume 1 {},
      .call (.standup 2) {}, .resume 1 {}]
    (p := fun s => decide (Idle s ∧ s.shared.member 2 = true ∧
      Track.stored.last 2 s.shared.hist = false)) (by decide +kernel)
  obtain ⟨hi, hmem, hlast⟩ := of_decide_eq_true hp
  obtain ⟨ops, dbs, hdb⟩ := exists_databases numberRecords s.shared.id s.shared.hist
  have hname := (hall _ _ _ _ s ops dbs hs hi hdb).stored (2 : ℕ).repr
  have hin := hname.2 ⟨2, rfl, AList.lookup_isSome.1 hmem⟩
  rw [← AList.lookup_isSome, Gamedb.lookup_users_run, Option.isSome_map,
    hdb.stored (fun _ => rfl), hlast] at hin
  exact absurd hin (by simp)

end Halieutics
