/-
**The desk store: `service/db/gamedb.lua`.**

Everything the server knows about a running desk is also in Redis, so that the lobby can wind the
desk up after a crash.  Seven operations write it, each under names it builds for itself, and
`restore_desk` reads it back.  Desk numbers are used again, so what an operation leaves behind under
the number of a freed desk is later taken for the next desk of that number.

`free_desk` deletes `desk:ID:user`; but the users of a desk are kept under `desk:ID:userid`.

Main definitions:

* `Halieutics.Gamedb.Records` — the records of the store, and how they are encoded;
* `Halieutics.Gamedb.createDesk`, `Halieutics.Gamedb.freeDesk`, `Halieutics.Gamedb.addCost`,
  `Halieutics.Gamedb.saveCosts`, `Halieutics.Gamedb.addUser`, `Halieutics.Gamedb.removeUser`,
  `Halieutics.Gamedb.start`, `Halieutics.Gamedb.restoreDesk` — **the operations**;
* `Halieutics.Gamedb.Entry`, `Halieutics.Gamedb.Op.spec` — what the store is for: a map from desk
  numbers to users, costs and the start flag;
* `Halieutics.Gamedb.Refines` — `restore_desk` answers what the map holds;
* `Halieutics.Gamedb.Cleared` — the condition: whoever is stored for the desk was stored after it
  was last freed.

Main results:

* `Halieutics.Gamedb.lookup_users_run`, `Halieutics.Gamedb.costs_run`, `Halieutics.Gamedb.attr_run`
  — what the store holds after any sequence of operations;
* `Halieutics.Gamedb.refines_iff_cleared` — **the store refines the map exactly if the condition
  holds**;
* `Halieutics.Gamedb.users_survive_free` — **the users of a freed desk are found again**;
* `Halieutics.Gamedb.mem_getActiveDesks`, `Halieutics.Gamedb.getDeskInfo_run` — the active desks are
  those that have been created and not freed.
-/

import Halieutics.Redis

set_option relaxedAutoImplicit false
set_option autoImplicit false

namespace Halieutics

namespace Gamedb

open LuaTable Redis

/-! ### The operations -/

/-- The records of the store: desk infos, user objects and cost entries, with the fields the store
reads and their encodings as JSON. -/
structure Records (I U C : Type) where
  info : Codec I
  user : Codec U
  cost : Codec C
  deskId : I → ℕ
  setGuid : I → ℕ → I
  userId : U → ℕ

variable {I U C : Type} (R : Records I U C)

/-- `str_format("desk:%d:…", deskid)`. -/
def deskKey (deskid : ℕ) (part : String) : String := numbered "desk" deskid part

/-- **`db.create_desk`**, with the number it answers. -/
def createDesk (r : Store) (info : I) : Store × ℕ :=
  let p := r.incr "desk:guid:counter"
  let info := R.setGuid info p.2
  ((p.1.set (deskKey (R.deskId info) "info") (R.info.enc info)).sadd "desk:active"
    (R.deskId info).repr, p.2)

/-- The names `db.free_desk` deletes. -/
def freedKeys (deskid : ℕ) : List String :=
  [deskKey deskid "info", deskKey deskid "attr", deskKey deskid "seat", deskKey deskid "user",
    deskKey deskid "cost"]

/-- **`db.free_desk`**. -/
def freeDesk (r : Store) (deskid : ℕ) : Store :=
  (freedKeys deskid).foldl Store.del (r.srem "desk:active" deskid.repr)

/-- **`db.get_active_desks`**. -/
def getActiveDesks (r : Store) : List ℕ := (r.smembers "desk:active").filterMap String.toNat?

/-- **`db.add_cost`**. -/
def addCost (r : Store) (deskid : ℕ) (cost : C) : Store :=
  r.lpush (deskKey deskid "cost") (R.cost.enc cost)

/-- **`db.save_costs`**. -/
def saveCosts (r : Store) (deskid : ℕ) (costs : List C) : Store :=
  let key := deskKey deskid "cost"
  if costs = [] then r.del key
  else (costs.map R.cost.enc).foldl (fun r v => r.lpush key v) (r.del key)

/-- **`db.add_user`**. -/
def addUser (r : Store) (deskid : ℕ) (user : U) : Store :=
  r.hset (deskKey deskid "userid") (R.userId user).repr (R.user.enc user)

/-- **`db.remove_user`**. -/
def removeUser (r : Store) (deskid userid : ℕ) : Store :=
  r.hdel (deskKey deskid "userid") userid.repr

/-- **`db.start`**. -/
def start (r : Store) (deskid : ℕ) : Store := r.hset (deskKey deskid "attr") "start" "1"

/-- **`db.isstart`**. -/
def isstart (r : Store) (deskid : ℕ) : Bool :=
  ((r.hget (deskKey deskid "attr") "start").bind String.toNat?) == some 1

/-- **`db.get_desk_info`**. -/
def getDeskInfo (r : Store) (deskid : ℕ) : Option I :=
  (r.strings (deskKey deskid "info")).bind R.info.dec

/-- What `db.restore_desk` answers: the attributes, the users, each with the number under which it
is stored, and the costs. -/
structure Restored (U C : Type) where
  attr : Table String String
  users : Table ℕ (Option ℕ × U)
  costs : List C

/-- The loop of `db.restore_desk` over the stored users. -/
def restoreUsers : List (Sigma fun _ : String => String) → Table ℕ (Option ℕ × U) →
    Option (Table ℕ (Option ℕ × U))
  | [], users => some users
  | e :: es, users =>
      (R.user.dec e.2).bind fun info =>
        restoreUsers es (users.insert (R.userId info) (e.1.toNat?, info))

/-- **`db.restore_desk`**; `none` when a record cannot be decoded. -/
def restoreDesk (r : Store) (deskid : ℕ) : Option (Restored U C) :=
  (restoreUsers R (r.hashes (deskKey deskid "userid")).entries ∅).bind fun users =>
    ((r.lists (deskKey deskid "cost")).mapM R.cost.dec).map fun costs =>
      ⟨r.hashes (deskKey deskid "attr"), users, costs⟩

/-- An operation on the store. -/
inductive Op (I U C : Type) where
  | createDesk (info : I)
  | addUser (deskid : ℕ) (user : U)
  | removeUser (deskid userid : ℕ)
  | addCost (deskid : ℕ) (cost : C)
  | saveCosts (deskid : ℕ) (costs : List C)
  | start (deskid : ℕ)
  | freeDesk (deskid : ℕ)

/-- What an operation does to the store. -/
def Op.exec (r : Store) : Op I U C → Store
  | .createDesk info => (Gamedb.createDesk R r info).1
  | .addUser deskid user => Gamedb.addUser R r deskid user
  | .removeUser deskid userid => Gamedb.removeUser r deskid userid
  | .addCost deskid cost => Gamedb.addCost R r deskid cost
  | .saveCosts deskid costs => Gamedb.saveCosts R r deskid costs
  | .start deskid => Gamedb.start r deskid
  | .freeDesk deskid => Gamedb.freeDesk r deskid

/-- The store after a sequence of operations, from the empty one. -/
def run (ops : List (Op I U C)) : Store := ops.foldl (Op.exec R) {}

/-! ### What the store is for -/

/-- The entry of a desk: the last record of each of its users, its costs, and the start flag. -/
structure Entry (U C : Type) where
  users : ℕ → Option U := fun _ => none
  costs : Multiset C := 0
  start : Bool := false

/-- What an operation is for. -/
def Op.spec (m : ℕ → Entry U C) : Op I U C → ℕ → Entry U C
  | .createDesk _ => m
  | .addUser id user => Function.update m id
      { m id with users := Function.update (m id).users (R.userId user) (some user) }
  | .removeUser id userid => Function.update m id
      { m id with users := Function.update (m id).users userid none }
  | .addCost id cost => Function.update m id { m id with costs := cost ::ₘ (m id).costs }
  | .saveCosts id costs => Function.update m id { m id with costs := costs }
  | .start id => Function.update m id { m id with start := true }
  | .freeDesk id => Function.update m id {}

/-- The map after a sequence of operations. -/
def spec (ops : List (Op I U C)) : ℕ → Entry U C := ops.foldl (Op.spec R) fun _ => {}

/-- `restore_desk` answers what an entry holds, and nothing else. -/
def Represents (r : Store) (id : ℕ) (e : Entry U C) : Prop :=
  ∃ x, restoreDesk R r id = some x ∧
    (∀ uid, x.users.lookup uid = (e.users uid).map fun u => (some uid, u)) ∧
    (x.costs : Multiset C) = e.costs ∧
    ∀ name, x.attr.lookup name = if name = "start" ∧ e.start = true then some "1" else none

/-- **The store refines the map** at a desk number, after a sequence of operations. -/
def Refines (ops : List (Op I U C)) (id : ℕ) : Prop := Represents R (run R ops) id (spec R ops id)

/-- What an operation does to the last record of a user of a desk, when desks are never freed. -/
def Op.record (id uid : ℕ) (u : Option U) : Op I U C → Option U
  | .addUser id' user => if id = id' ∧ uid = R.userId user then some user else u
  | .removeUser id' uid' => if id = id' ∧ uid = uid' then none else u
  | _ => u

/-- The last record of a user that was added to a desk and not removed since. -/
def record (id uid : ℕ) (ops : List (Op I U C)) : Option U := ops.foldl (Op.record R id uid) none

/-- What an operation does to the object of a desk. -/
def Op.opened (id : ℕ) (o : Option I) : Op I U C → Option I
  | .createDesk info => if id = R.deskId info then some info else o
  | .freeDesk id' => if id = id' then none else o
  | _ => o

/-- The object of a desk that was created and has not been freed since. -/
def opened (id : ℕ) (ops : List (Op I U C)) : Option I := ops.foldl (Op.opened R id) none

/-- What has been done since a desk was last freed. -/
def sinceFree (id : ℕ) (ops : List (Op I U C)) : List (Op I U C) :=
  ops.foldl (fun l op =>
    match op with
    | .freeDesk id' => if id = id' then [] else l ++ [op]
    | _ => l ++ [op]) []

/-- **The condition**: every user that was added to the desk and not removed afterwards was added
after the desk was last freed. -/
def Cleared (ops : List (Op I U C)) (id : ℕ) : Prop :=
  ∀ uid, (record R id uid ops).isSome → (record R id uid (sinceFree id ops)).isSome

/-! ### What the store holds -/

@[simp] theorem run_append_singleton (ops : List (Op I U C)) (op : Op I U C) :
    run R (ops ++ [op]) = op.exec R (run R ops) := by
  rw [run, List.foldl_append]
  rfl

@[simp] theorem spec_append_singleton (ops : List (Op I U C)) (op : Op I U C) :
    spec R (ops ++ [op]) = op.spec R (spec R ops) := by
  rw [spec, List.foldl_append]
  rfl

@[simp] theorem record_append_singleton (id uid : ℕ) (ops : List (Op I U C)) (op : Op I U C) :
    record R id uid (ops ++ [op]) = op.record R id uid (record R id uid ops) := by
  rw [record, List.foldl_append]
  rfl

@[simp] theorem opened_append_singleton (id : ℕ) (ops : List (Op I U C)) (op : Op I U C) :
    opened R id (ops ++ [op]) = op.opened R id (opened R id ops) := by
  rw [opened, List.foldl_append]
  rfl

/-- **Names of different parts, or of different desks, are different.** -/
theorem deskKey_inj {id id' : ℕ} {part part' : String} :
    deskKey id part = deskKey id' part' ↔ id = id' ∧ part = part' := numbered_inj

/-- The costs of a desk, and nothing else, are written by the operations on its costs. -/
theorem hashes_saveCosts (r : Store) (deskid id : ℕ) (costs : List C) {part : String}
    (h : part ≠ "cost") :
    (saveCosts R r deskid costs).hashes (deskKey id part) = r.hashes (deskKey id part) := by
  have hk : ¬ deskKey id part = deskKey deskid "cost" := fun hk => h (deskKey_inj.1 hk).2
  rw [saveCosts]
  split
  · rw [hashes_del, if_neg hk]
  · rw [hashes_foldl_lpush, hashes_del, if_neg hk]

/-- What an operation does to the stored users of a desk: **freeing a desk does not touch them**. -/
theorem users_exec (r : Store) (op : Op I U C) (id : ℕ) :
    (op.exec R r).hashes (deskKey id "userid") =
      match op with
      | .addUser id' user =>
          if id = id' then (r.hashes (deskKey id "userid")).insert (R.userId user).repr
            (R.user.enc user) else r.hashes (deskKey id "userid")
      | .removeUser id' uid =>
          if id = id' then (r.hashes (deskKey id "userid")).erase uid.repr
          else r.hashes (deskKey id "userid")
      | _ => r.hashes (deskKey id "userid") := by
  cases op with
  | createDesk info => simp [Op.exec, createDesk]
  | addUser id' user =>
      simp only [Op.exec, addUser, hashes_hset, deskKey_inj, and_true]
      split
      · rename_i h
        rw [h]
      · rfl
  | removeUser id' uid =>
      simp only [Op.exec, removeUser, hashes_hdel, deskKey_inj, and_true]
      split
      · rename_i h
        rw [h]
      · rfl
  | addCost id' cost => simp [Op.exec, addCost]
  | saveCosts id' costs => exact hashes_saveCosts R r id' id costs (by decide)
  | start id' => simp [Op.exec, start, hashes_hset, deskKey_inj]
  | freeDesk id' =>
      simp only [Op.exec, freeDesk, hashes_foldl_del]
      simp [freedKeys, deskKey_inj]

/-- A record that is kept for a user is a record of this user. -/
theorem userId_record {id uid : ℕ} {ops : List (Op I U C)} {u : U}
    (h : record R id uid ops = some u) :
    R.userId u = uid := by
  induction ops using List.reverseRecOn with
  | nil => simp [record] at h
  | append_singleton ops op ih =>
      rw [record_append_singleton] at h
      cases op with
      | addUser id' user =>
          rw [Op.record] at h
          split at h
          · rename_i hu
            rw [← Option.some.inj h, hu.2]
          · exact ih h
      | removeUser id' uid' =>
          rw [Op.record] at h
          split at h
          · exact absurd h (by simp)
          · exact ih h
      | createDesk info => exact ih h
      | addCost id' cost => exact ih h
      | saveCosts id' costs => exact ih h
      | start id' => exact ih h
      | freeDesk id' => exact ih h

/-- **The users stored for a desk are those that were added and not removed.** -/
theorem lookup_users_run (ops : List (Op I U C)) (id uid : ℕ) :
    ((run R ops).hashes (deskKey id "userid")).lookup uid.repr =
      (record R id uid ops).map R.user.enc := by
  induction ops using List.reverseRecOn with
  | nil => rfl
  | append_singleton ops op ih =>
      rw [run_append_singleton, record_append_singleton, users_exec]
      cases op with
      | addUser id' user =>
          simp only [Op.record]
          by_cases hid : id = id'
          · rw [if_pos hid, lookup_insert_eq]
            by_cases hu : uid = R.userId user
            · rw [if_pos (by rw [hu]), if_pos ⟨hid, hu⟩, Option.map_some]
            · rw [if_neg fun h => hu (Nat.repr_injective h), if_neg fun h => hu h.2, ih]
          · rw [if_neg hid, if_neg fun h => hid h.1, ih]
      | removeUser id' uid' =>
          simp only [Op.record]
          by_cases hid : id = id'
          · rw [if_pos hid, lookup_erase_eq]
            by_cases hu : uid = uid'
            · rw [if_pos (by rw [hu]), if_pos ⟨hid, hu⟩, Option.map_none]
            · rw [if_neg fun h => hu (Nat.repr_injective h), if_neg fun h => hu h.2, ih]
          · rw [if_neg hid, if_neg fun h => hid h.1, ih]
      | createDesk info => exact ih
      | addCost id' cost => exact ih
      | saveCosts id' costs => exact ih
      | start id' => exact ih
      | freeDesk id' => exact ih

/-- Users are stored under their numbers. -/
theorem numbered_users_run (ops : List (Op I U C)) (id : ℕ) {name v : String}
    (h : ((run R ops).hashes (deskKey id "userid")).lookup name = some v) :
    ∃ uid : ℕ, name = uid.repr := by
  induction ops using List.reverseRecOn with
  | nil => exact absurd h (by simp [run])
  | append_singleton ops op ih =>
      rw [run_append_singleton, users_exec] at h
      cases op with
      | addUser id' user =>
          simp only at h
          split at h
          · rw [lookup_insert_eq] at h
            split at h
            · rename_i hn
              exact ⟨_, hn⟩
            · exact ih h
          · exact ih h
      | removeUser id' uid =>
          simp only at h
          split at h
          · rw [lookup_erase_eq] at h
            split at h
            · exact absurd h (by simp)
            · exact ih h
          · exact ih h
      | createDesk info => exact ih h
      | addCost id' cost => exact ih h
      | saveCosts id' costs => exact ih h
      | start id' => exact ih h
      | freeDesk id' => exact ih h

/-- What `db.save_costs` leaves behind. -/
theorem lists_saveCosts (r : Store) (deskid id : ℕ) (costs : List C) :
    (saveCosts R r deskid costs).lists (deskKey id "cost") =
      if id = deskid then (costs.map R.cost.enc).reverse else r.lists (deskKey id "cost") := by
  rw [saveCosts]
  split
  · rename_i h
    simp [lists_del, deskKey_inj, h]
  · simp only [lists_foldl_lpush, lists_del, deskKey_inj, and_true, if_true, List.append_nil]
    split
    · rfl
    · rfl

/-- **The costs stored for a desk are those of the map.** -/
theorem costs_run (ops : List (Op I U C)) (id : ℕ) :
    ∃ cs : List C, (run R ops).lists (deskKey id "cost") = cs.map R.cost.enc ∧
      (cs : Multiset C) = (spec R ops id).costs := by
  induction ops using List.reverseRecOn with
  | nil => exact ⟨[], rfl, rfl⟩
  | append_singleton ops op ih =>
      obtain ⟨cs, hl, hc⟩ := ih
      rw [run_append_singleton, spec_append_singleton]
      cases op with
      | addCost id' cost =>
          simp only [Op.exec, addCost, Op.spec, lists_lpush, deskKey_inj, and_true,
            Function.update_apply]
          by_cases hid : id = id'
          · subst hid
            exact ⟨cost :: cs, by simp [hl], by simp [← hc]⟩
          · exact ⟨cs, by simp [hid, hl], by simp [hid, hc]⟩
      | saveCosts id' costs =>
          simp only [Op.exec, Op.spec, lists_saveCosts, Function.update_apply]
          by_cases hid : id = id'
          · subst hid
            exact ⟨costs.reverse, by simp, by simp⟩
          · exact ⟨cs, by simp [hid, hl], by simp [hid, hc]⟩
      | freeDesk id' =>
          simp only [Op.exec, freeDesk, Op.spec, lists_foldl_del, freedKeys, List.mem_cons,
            deskKey_inj, Function.update_apply]
          by_cases hid : id = id'
          · exact ⟨[], by simp [hid], by simp [hid]⟩
          · exact ⟨cs, by simp [hid, hl], by simp [hid, hc]⟩
      | createDesk info => exact ⟨cs, by simpa [Op.exec, createDesk] using hl, hc⟩
      | addUser id' user =>
          refine ⟨cs, by simpa [Op.exec, addUser] using hl, ?_⟩
          simp only [Op.spec, Function.update_apply]
          split <;> simp_all
      | removeUser id' uid =>
          refine ⟨cs, by simpa [Op.exec, removeUser] using hl, ?_⟩
          simp only [Op.spec, Function.update_apply]
          split <;> simp_all
      | start id' =>
          refine ⟨cs, by simpa [Op.exec, start] using hl, ?_⟩
          simp only [Op.spec, Function.update_apply]
          split <;> simp_all

/-- **The start flag is stored exactly while it is set in the map.** -/
theorem attr_run (ops : List (Op I U C)) (id : ℕ) (name : String) :
    ((run R ops).hashes (deskKey id "attr")).lookup name =
      if name = "start" ∧ (spec R ops id).start = true then some "1" else none := by
  induction ops using List.reverseRecOn with
  | nil => simp [run, spec]
  | append_singleton ops op ih =>
      rw [run_append_singleton, spec_append_singleton]
      cases op with
      | start id' =>
          simp only [Op.exec, start, Op.spec, hashes_hset, deskKey_inj, and_true,
            Function.update_apply]
          by_cases hid : id = id'
          · subst hid
            rw [if_pos rfl, if_pos rfl, lookup_insert_eq, ih]
            by_cases hn : name = "start" <;> simp [hn]
          · rw [if_neg hid, if_neg hid, ih]
      | freeDesk id' =>
          simp only [Op.exec, freeDesk, Op.spec, hashes_foldl_del, freedKeys, List.mem_cons,
            deskKey_inj, Function.update_apply]
          by_cases hid : id = id'
          · simp [hid]
          · rw [if_neg (by simp [hid]), if_neg hid, hashes_srem, ih]
      | createDesk info => exact ih
      | addUser id' user =>
          simp only [Op.exec, addUser, Op.spec, hashes_hset, deskKey_inj, Function.update_apply]
          split <;> split <;> simp_all
      | removeUser id' uid =>
          simp only [Op.exec, removeUser, Op.spec, hashes_hdel, deskKey_inj, Function.update_apply]
          split <;> split <;> simp_all
      | addCost id' cost =>
          simp only [Op.exec, addCost, Op.spec, hashes_lpush, Function.update_apply]
          split <;> simp_all
      | saveCosts id' costs =>
          rw [show (Op.saveCosts id' costs).exec R (run R ops) = saveCosts R (run R ops) id' costs
            from rfl, hashes_saveCosts R _ _ _ _ (by decide), ih]
          simp only [Op.spec, Function.update_apply]
          by_cases hid : id = id'
          · rw [if_pos hid, hid]
          · rw [if_neg hid]

/-! ### Which desks are active -/

theorem active_ne_deskKey (id : ℕ) (part : String) : "desk:active" ≠ deskKey id part :=
  (numbered_ne "desk" (s := "active") (c := 'a') (by decide) (by decide)).symm

theorem counter_ne_deskKey (id : ℕ) (part : String) : deskKey id part ≠ "desk:guid:counter" :=
  numbered_ne "desk" (s := "guid:counter") (c := 'g') (by decide) (by decide)

/-- What an operation does to the set of the active desks. -/
theorem active_exec (r : Store) (op : Op I U C) :
    (op.exec R r).sets "desk:active" =
      match op with
      | .createDesk info => (r.sets "desk:active").insert (R.deskId (R.setGuid info
          (r.incr "desk:guid:counter").2)).repr ()
      | .freeDesk id => (r.sets "desk:active").erase id.repr
      | _ => r.sets "desk:active" := by
  cases op with
  | createDesk info => simp [Op.exec, createDesk, sets_sadd]
  | freeDesk id =>
      simp only [Op.exec, freeDesk, sets_foldl_del, sets_srem, if_true]
      rw [if_neg]
      simp [freedKeys, active_ne_deskKey]
  | saveCosts id costs =>
      simp only [Op.exec, saveCosts]
      split
      · rw [sets_del, if_neg (active_ne_deskKey _ _)]
      · rw [sets_foldl_lpush, sets_del, if_neg (active_ne_deskKey _ _)]
  | addUser id user | removeUser id uid | addCost id cost | start id =>
      simp [Op.exec, addUser, removeUser, addCost, start]

/-- What an operation does to the stored object of a desk. -/
theorem info_exec (r : Store) (op : Op I U C) (id : ℕ) :
    (op.exec R r).strings (deskKey id "info") =
      match op with
      | .createDesk info =>
          if id = R.deskId (R.setGuid info (r.incr "desk:guid:counter").2) then
            some (R.info.enc (R.setGuid info (r.incr "desk:guid:counter").2))
          else r.strings (deskKey id "info")
      | .freeDesk id' => if id = id' then none else r.strings (deskKey id "info")
      | _ => r.strings (deskKey id "info") := by
  cases op with
  | createDesk info =>
      simp only [Op.exec, createDesk, strings_sadd, strings_set, deskKey_inj, and_true]
      split
      · rfl
      · exact (strings_set ..).trans (if_neg (counter_ne_deskKey _ _))
  | freeDesk id' =>
      simp only [Op.exec, freeDesk, strings_foldl_del, strings_srem]
      simp [freedKeys, deskKey_inj]
  | saveCosts id' costs =>
      have hk : ¬ deskKey id "info" = deskKey id' "cost" :=
        fun hk => absurd (deskKey_inj.1 hk).2 (by decide)
      simp only [Op.exec, saveCosts]
      split
      · rw [strings_del, if_neg hk]
      · rw [strings_foldl_lpush, strings_del, if_neg hk]
  | addUser id' user | removeUser id' uid | addCost id' cost | start id' =>
      simp [Op.exec, addUser, removeUser, addCost, start]

/-- The object of a desk has its number. -/
theorem deskId_opened {ops : List (Op I U C)} {id : ℕ} {info : I}
    (h : opened R id ops = some info) : R.deskId info = id := by
  induction ops using List.reverseRecOn with
  | nil => cases h
  | append_singleton ops op ih =>
      rw [opened_append_singleton] at h
      cases op with
      | createDesk info' =>
          rw [Op.opened] at h
          split at h
          · rename_i hid
            rw [← Option.some_inj.1 h, hid]
          · exact ih h
      | freeDesk id' =>
          rw [Op.opened] at h
          split at h
          · cases h
          · exact ih h
      | addUser id' user | removeUser id' uid | addCost id' cost | saveCosts id' costs
      | start id' => exact ih h

section Active

variable {R} (hR : ∀ info guid, R.deskId (R.setGuid info guid) = R.deskId info)

include hR

/-- **The active desks are those that were created and not freed since.** -/
theorem active_run (ops : List (Op I U C)) (s : String) :
    s ∈ (run R ops).smembers "desk:active" ↔ ∃ id :
    ℕ, s = id.repr ∧ (opened R id ops).isSome = true := by
  induction ops using List.reverseRecOn with
  | nil => simp [run, opened, Store.smembers]
  | append_singleton ops op ih =>
      have hmem : ∀ r : Store, s ∈ r.smembers "desk:active" ↔ s ∈ r.sets "desk:active" :=
        fun r => AList.mem_keys.symm
      rw [hmem] at ih
      rw [hmem, run_append_singleton, active_exec]
      cases op with
      | createDesk info =>
          simp only [AList.mem_insert, ih, opened_append_singleton, Op.opened, hR]
          constructor
          · rintro (rfl | ⟨id, rfl, hid⟩)
            · exact ⟨_, rfl, by simp⟩
            · refine ⟨id, rfl, ?_⟩
              split
              · rfl
              · exact hid
          · rintro ⟨id, rfl, hid⟩
            split at hid
            · rename_i h
              exact Or.inl (by rw [h])
            · exact Or.inr ⟨id, rfl, hid⟩
      | freeDesk id' =>
          simp only [AList.mem_erase, ih, opened_append_singleton, Op.opened]
          constructor
          · rintro ⟨hne, id, rfl, hid⟩
            exact ⟨id, rfl, by rw [if_neg fun h => hne (by rw [h])]; exact hid⟩
          · rintro ⟨id, rfl, hid⟩
            split at hid
            · cases hid
            · rename_i hne
              exact ⟨fun h => hne (Nat.repr_injective h), id, rfl, hid⟩
      | addUser id user | removeUser id uid | addCost id cost | saveCosts id costs | start id =>
          simp only [ih, opened_append_singleton, Op.opened]

/-- `db.get_active_desks` answers them. -/
theorem mem_getActiveDesks (ops : List (Op I U C)) (id : ℕ) :
    id ∈ getActiveDesks (run R ops) ↔ (opened R id ops).isSome = true := by
  rw [getActiveDesks, List.mem_filterMap]
  constructor
  · rintro ⟨s, hs, hid⟩
    obtain ⟨id', rfl, hid'⟩ := (active_run hR ops s).1 hs
    rw [Nat.toNat?_repr] at hid
    rw [← Option.some_inj.1 hid]
    exact hid'
  · exact fun hid => ⟨id.repr, (active_run hR ops _).2 ⟨id, rfl, hid⟩, Nat.toNat?_repr id⟩

/-- **The stored object of a desk** is the one it was created with. -/
theorem getDeskInfo_run (ops : List (Op I U C)) (id : ℕ) :
    ∃ guid, getDeskInfo R (run R ops) id =
      (opened R id ops).map fun info => R.setGuid info guid := by
  have key : ∃ guid, (run R ops).strings (deskKey id "info") =
      (opened R id ops).map fun info => R.info.enc (R.setGuid info guid) := by
    induction ops using List.reverseRecOn with
    | nil => exact ⟨0, rfl⟩
    | append_singleton ops op ih =>
        obtain ⟨guid, hg⟩ := ih
        rw [run_append_singleton, info_exec, opened_append_singleton]
        cases op with
        | createDesk info =>
            simp only [Op.opened, hR]
            by_cases hid : id = R.deskId info
            · exact ⟨_, by rw [if_pos hid, if_pos hid]; rfl⟩
            · exact ⟨guid, by rw [if_neg hid, if_neg hid, hg]⟩
        | freeDesk id' =>
            simp only [Op.opened]
            by_cases hid : id = id'
            · exact ⟨0, by rw [if_pos hid, if_pos hid]; rfl⟩
            · exact ⟨guid, by rw [if_neg hid, if_neg hid, hg]⟩
        | addUser id' user | removeUser id' uid | addCost id' cost | saveCosts id' costs
        | start id' =>
            exact ⟨guid, hg⟩
  obtain ⟨guid, hg⟩ := key
  refine ⟨guid, ?_⟩
  rw [getDeskInfo, hg, Option.bind_map]
  cases opened R id ops with
  | none => rfl
  | some info => exact R.info.dec_enc _

end Active

/-! ### What `restore_desk` answers -/

/-- The loop over the stored users reads back what `add_user` wrote. -/
theorem restoreUsers_eq {es : List (Sigma fun _ : String => String)} (hn : es.NodupKeys)
    (he : ∀ e ∈ es, ∃ u, e = ⟨(R.userId u).repr, R.user.enc u⟩) (users : Table ℕ (Option ℕ × U)) :
    ∃ t, restoreUsers R es users = some t ∧ ∀ uid : ℕ, t.lookup uid =
      match es.dlookup uid.repr with
      | some v => (R.user.dec v).map fun u => (some uid, u)
      | none => users.lookup uid := by
  induction es generalizing users with
  | nil => exact ⟨users, rfl, fun uid => rfl⟩
  | cons e es ih =>
      obtain ⟨u, rfl⟩ := he e List.mem_cons_self
      obtain ⟨hne, hn⟩ := List.nodupKeys_cons.1 hn
      obtain ⟨t, ht, hl⟩ := ih hn (fun e h => he e (List.mem_cons_of_mem _ h))
        (users.insert (R.userId u) ((R.userId u).repr.toNat?, u))
      refine ⟨t, by rw [restoreUsers, R.user.dec_enc, Option.bind_some, ht], fun uid => ?_⟩
      rw [hl uid]
      by_cases hu : uid = R.userId u
      · subst hu
        rw [List.dlookup_eq_none.2 hne, List.dlookup_cons_eq]
        simp only [AList.lookup_insert, R.user.dec_enc, Option.map_some, Nat.toNat?_repr]
      · rw [List.dlookup_cons_ne _ _ fun h => hu (Nat.repr_injective h), AList.lookup_insert_ne hu]

/-- What was encoded is decoded again. -/
theorem mapM_dec {α : Type} (c : Codec α) (l : List α) : (l.map c.enc).mapM c.dec = some l := by
  induction l with
  | nil => rfl
  | cons a l ih => rw [List.map_cons, List.mapM_cons, c.dec_enc, ih]; rfl

/-- **What `restore_desk` answers after any sequence of operations.** -/
theorem restoreDesk_run (ops : List (Op I U C)) (id : ℕ) :
    ∃ x, restoreDesk R (run R ops) id = some x ∧
      (∀ uid, x.users.lookup uid = (record R id uid ops).map fun u => (some uid, u)) ∧
      (x.costs : Multiset C) = (spec R ops id).costs ∧
      ∀ name, x.attr.lookup name =
        if name = "start" ∧ (spec R ops id).start = true then some "1" else none := by
  obtain ⟨es, hes⟩ : ∃ es, es = (run R ops).hashes (deskKey id "userid") := ⟨_, rfl⟩
  have he : ∀ e ∈ es.entries, ∃ u, e = ⟨(R.userId u).repr, R.user.enc u⟩ := by
    rintro ⟨name, v⟩ hm
    have hv : es.lookup name = some v := AList.mem_lookup_iff.2 hm
    rw [hes] at hv
    obtain ⟨uid, rfl⟩ := numbered_users_run R ops id hv
    rw [lookup_users_run, Option.map_eq_some_iff] at hv
    obtain ⟨u, hu, rfl⟩ := hv
    exact ⟨u, by rw [userId_record R hu]⟩
  obtain ⟨t, ht, hl⟩ := restoreUsers_eq R es.nodupKeys he ∅
  obtain ⟨cs, hcs, hspec⟩ := costs_run R ops id
  refine ⟨⟨_, t, cs⟩, ?_, fun uid => ?_, hspec, fun name => attr_run R ops id name⟩
  · rw [restoreDesk, ← hes, ht, hcs, mapM_dec]
    rfl
  · have hlook : es.entries.dlookup uid.repr = (record R id uid ops).map R.user.enc := by
      rw [← lookup_users_run, ← hes]
      rfl
    rw [hl uid, hlook]
    cases record R id uid ops with
    | none => rfl
    | some u => simp only [Option.map_some, R.user.dec_enc]

/-! ### The store refines the map -/

theorem sinceFree_append_singleton (id : ℕ) (ops : List (Op I U C)) (op : Op I U C) :
    sinceFree id (ops ++ [op]) =
      match op with
      | .freeDesk id' => if id = id' then [] else sinceFree id ops ++ [op]
      | _ => sinceFree id ops ++ [op] := by
  rw [sinceFree, List.foldl_append]
  rfl

/-- The map has the users that were added since the desk was last freed. -/
theorem users_spec (ops : List (Op I U C)) (id uid : ℕ) :
    (spec R ops id).users uid = record R id uid (sinceFree id ops) := by
  induction ops using List.reverseRecOn with
  | nil => rfl
  | append_singleton ops op ih =>
      rw [spec_append_singleton, sinceFree_append_singleton]
      cases op with
      | addUser id' user =>
          simp only [Op.spec, record_append_singleton, Op.record, Function.update_apply]
          by_cases hid : id = id'
          · subst hid
            simp [Function.update_apply, ih]
          · simp [hid, ih]
      | removeUser id' uid' =>
          simp only [Op.spec, record_append_singleton, Op.record, Function.update_apply]
          by_cases hid : id = id'
          · subst hid
            simp [Function.update_apply, ih]
          · simp [hid, ih]
      | createDesk info =>
          rw [record_append_singleton]
          exact ih
      | addCost id' cost =>
          simp only [Op.spec, record_append_singleton, Op.record, Function.update_apply]
          split <;> simp_all
      | saveCosts id' costs =>
          simp only [Op.spec, record_append_singleton, Op.record, Function.update_apply]
          split <;> simp_all
      | start id' =>
          simp only [Op.spec, record_append_singleton, Op.record, Function.update_apply]
          split <;> simp_all
      | freeDesk id' =>
          simp only [Op.spec, Function.update_apply]
          by_cases hid : id = id'
          · simp [hid, record]
          · simpa [hid, Op.record] using ih

/-- A user that was added since the desk was last freed has the same record in the store. -/
theorem record_sinceFree {ops : List (Op I U C)} {id uid : ℕ}
    (h : (record R id uid (sinceFree id ops)).isSome) :
    record R id uid (sinceFree id ops) = record R id uid ops := by
  induction ops using List.reverseRecOn with
  | nil => rfl
  | append_singleton ops op ih =>
      have hx : ∀ ops', ops' = sinceFree id ops ++ [op] → (record R id uid ops').isSome →
          record R id uid ops' = record R id uid (ops ++ [op]) := by
        rintro ops' rfl h
        rw [record_append_singleton] at h ⊢
        rw [record_append_singleton]
        cases op with
        | addUser id' user =>
            simp only [Op.record] at h ⊢
            split
            · rfl
            · rename_i hne
              rw [if_neg hne] at h
              exact ih h
        | removeUser id' uid' =>
            simp only [Op.record] at h ⊢
            split
            · rfl
            · rename_i hne
              rw [if_neg hne] at h
              exact ih h
        | createDesk info => exact ih h
        | addCost id' cost => exact ih h
        | saveCosts id' costs => exact ih h
        | start id' => exact ih h
        | freeDesk id' => exact ih h
      rw [sinceFree_append_singleton] at h ⊢
      cases op with
      | freeDesk id' =>
          simp only at h ⊢
          by_cases hid : id = id'
          · rw [if_pos hid] at h
            simp [record] at h
          · rw [if_neg hid] at h ⊢
            exact hx _ rfl h
      | createDesk info => exact hx _ rfl h
      | addUser id' user => exact hx _ rfl h
      | removeUser id' uid' => exact hx _ rfl h
      | addCost id' cost => exact hx _ rfl h
      | saveCosts id' costs => exact hx _ rfl h
      | start id' => exact hx _ rfl h

/-- **The store refines the map exactly if whoever is stored for the desk was stored after it was
last freed.** -/
theorem refines_iff_cleared (ops : List (Op I U C)) (id : ℕ) :
    Refines R ops id ↔ Cleared R ops id := by
  obtain ⟨x, hx, hu, hc, ha⟩ := restoreDesk_run R ops id
  constructor
  · rintro ⟨x', hx', hu', -, -⟩ uid hr
    obtain rfl : x = x' := Option.some.inj (hx.symm.trans hx')
    have h := hu' uid
    rw [hu uid, users_spec] at h
    rw [← Option.isSome_map (f := fun u => (some uid, u)), h, Option.isSome_map] at hr
    exact hr
  · intro hcl
    refine ⟨x, hx, fun uid => ?_, hc, ha⟩
    rw [hu uid, users_spec]
    congr 1
    by_cases hs : (record R id uid (sinceFree id ops)).isSome
    · exact (record_sinceFree R hs).symm
    · have hr : ¬ (record R id uid ops).isSome := fun hr => hs (hcl uid hr)
      rw [Option.not_isSome_iff_eq_none.1 hs, Option.not_isSome_iff_eq_none.1 hr]

/-- The records of a store of numbers. -/
def numbers : Records ℕ ℕ ℕ := ⟨.nat, .nat, .nat, id, fun info _ => info, id⟩

/-- **The users of a freed desk are found again**: user 7 joins the desk 100001, and the desk is
freed.  Nothing has been written since, but `restore_desk` answers the user. -/
theorem users_survive_free :
    ¬ ∀ (ops : List (Op ℕ ℕ ℕ)) (deskid : ℕ), Refines numbers ops deskid := by
  intro h
  obtain ⟨x, hx, hu, -, -⟩ := h [.addUser 100001 7, .freeDesk 100001] 100001
  obtain ⟨x', hx', hu', -, -⟩ :=
    restoreDesk_run numbers [.addUser 100001 7, .freeDesk 100001] 100001
  obtain rfl : x = x' := Option.some.inj (hx.symm.trans hx')
  have h7 := (hu' 7).symm.trans (hu 7)
  simp [record, spec, Op.record, Op.spec, numbers] at h7

end Gamedb

end Halieutics
