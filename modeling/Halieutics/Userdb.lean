/-
**The user store: `service/db/userdb.lua`.**

For every user the store knows the desk he is at, and the desks he has created.  The users are
spread over several Redis instances, and the active desks of 1024 users share one hash.

Main definitions:

* `Halieutics.Userdb.Dbs` — the instances;
* `Halieutics.Userdb.join`, `Halieutics.Userdb.leave`, `Halieutics.Userdb.getActiveDesk` — the
  active desk of a user;
* `Halieutics.Userdb.createDesk`, `Halieutics.Userdb.dismiss`, `Halieutics.Userdb.getCreateDesk`,
  `Halieutics.Userdb.getCreateDeskNum` — the desks a user has created;
* `Halieutics.Userdb.getMydesk` — both.

Main results:

* `Halieutics.Userdb.getActiveDesk_join`, `Halieutics.Userdb.getActiveDesk_leave` — what joining and
  leaving do to the active desks;
* `Halieutics.Userdb.mem_created_createDesk`, `Halieutics.Userdb.mem_created_dismiss` — what
  creating and dismissing do to the created desks.
-/

import Halieutics.Redis

set_option relaxedAutoImplicit false
set_option autoImplicit false

namespace Halieutics

namespace Userdb

open LuaTable Redis

/-! ### The operations -/

/-- `rdb.db`: `select` is the instance of a user. -/
structure Dbs where
  select : ℕ → ℕ := fun _ => 0
  stores : ℕ → Store := fun _ => {}

/-- `rdb.db[userid]`. -/
def Dbs.of (dbs : Dbs) (userid : ℕ) : Store := dbs.stores (dbs.select userid)

/-- A command to the instance of a user. -/
def Dbs.send (dbs : Dbs) (userid : ℕ) (f : Store → Store) : Dbs :=
  { dbs with stores := Function.update dbs.stores (dbs.select userid) (f (dbs.of userid)) }

/-- `hashid`. -/
def hashid (id : ℕ) : ℕ := id / 1024

/-- `str_format("user:%d:active:desk", index)`. -/
def activeKey (userid : ℕ) : String := numbered "user" (hashid userid) "active:desk"

/-- `str_format("user:%d:create:desk", userid)`. -/
def createKey (userid : ℕ) : String := numbered "user" userid "create:desk"

/-- **`userdb.join`**. -/
def join (dbs : Dbs) (userid deskid : ℕ) : Dbs :=
  dbs.send userid fun r => r.hset (activeKey userid) userid.repr deskid.repr

/-- **`userdb.leave`**. -/
def leave (dbs : Dbs) (userid : ℕ) : Dbs :=
  dbs.send userid fun r => r.hdel (activeKey userid) userid.repr

/-- **`userdb.get_active_desk`**. -/
def getActiveDesk (dbs : Dbs) (userid : ℕ) : Option ℕ :=
  ((dbs.of userid).hget (activeKey userid) userid.repr).bind String.toNat?

/-- **`userdb.create_desk`**. -/
def createDesk (dbs : Dbs) (userid deskid : ℕ) : Dbs :=
  dbs.send userid fun r => r.sadd (createKey userid) deskid.repr

/-- **`userdb.dismiss`**. -/
def dismiss (dbs : Dbs) (userid deskid : ℕ) : Dbs :=
  dbs.send userid fun r => r.srem (createKey userid) deskid.repr

/-- **`userdb.get_create_desk`**. -/
def getCreateDesk (dbs : Dbs) (userid : ℕ) : List ℕ :=
  ((dbs.of userid).smembers (createKey userid)).filterMap String.toNat?

/-- **`userdb.get_create_desk_num`**. -/
def getCreateDeskNum (dbs : Dbs) (userid : ℕ) :
    ℕ := ((dbs.of userid).smembers (createKey userid)).length

/-- **`userdb.get_mydesk`**: the active desk, and the desks the user has created. -/
def getMydesk (dbs : Dbs) (userid : ℕ) : Option ℕ × List ℕ :=
  (getActiveDesk dbs userid, getCreateDesk dbs userid)

/-! ### Active desks -/

/-- The hash of a user's active desk. -/
def activeHash (dbs : Dbs) (userid : ℕ) : Table String String :=
  (dbs.of userid).hashes (activeKey userid)

/-- A hash of active desks changes in one field: the other users of the hash keep theirs. -/
theorem lookup_active_send {dbs : Dbs} {uid : ℕ} {f : Store → Store}
    (hf : ∀ r uid', (f r).hashes (activeKey uid') =
      if activeKey uid' = activeKey uid then (f r).hashes (activeKey uid)
      else r.hashes (activeKey uid'))
    (hfield : ∀ r name, name ≠ uid.repr →
      ((f r).hashes (activeKey uid)).lookup name = (r.hashes (activeKey uid)).lookup name)
    {uid' : ℕ} (h : uid' ≠ uid) :
    (activeHash (dbs.send uid f) uid').lookup uid'.repr =
    (activeHash dbs uid').lookup uid'.repr := by
  have hrepr : uid'.repr ≠ uid.repr := fun he => h (Nat.repr_injective he)
  by_cases hs : dbs.select uid' = dbs.select uid
  · have hof : (dbs.send uid f).of uid' = f (dbs.of uid') := by
      simp only [Dbs.of, Dbs.send, hs, Function.update_self]
    rw [activeHash, hof, hf]
    split
    · rename_i hk
      rw [hfield _ _ hrepr, activeHash, hk]
    · rfl
  · have hof : (dbs.send uid f).of uid' = dbs.of uid' := by
      simp only [Dbs.of, Dbs.send, Function.update_of_ne hs]
    rw [activeHash, hof, activeHash]

theorem of_send (dbs : Dbs) (uid : ℕ) (f : Store → Store) :
    (dbs.send uid f).of uid = f (dbs.of uid) := Function.update_self _ _ _

/-- **Joining a desk** changes the active desk of the user who joins. -/
theorem getActiveDesk_join (dbs : Dbs) (uid deskid uid' : ℕ) :
    getActiveDesk (join dbs uid deskid) uid' =
      if uid' = uid then some deskid else getActiveDesk dbs uid' := by
  by_cases h : uid' = uid
  · subst h
    rw [if_pos rfl, getActiveDesk, join, of_send, Store.hget, hashes_hset, if_pos rfl,
      AList.lookup_insert, Option.bind_some, Nat.toNat?_repr]
  · rw [if_neg h]
    refine congrArg (fun v => Option.bind v String.toNat?) (lookup_active_send ?_ ?_ h)
    · intro r u
      rw [hashes_hset, hashes_hset, if_pos rfl]
    · intro r name hn
      rw [hashes_hset, if_pos rfl, AList.lookup_insert_ne hn]

/-- **Leaving** takes the active desk of the user who leaves away. -/
theorem getActiveDesk_leave (dbs : Dbs) (uid uid' : ℕ) :
    getActiveDesk (leave dbs uid) uid' = if uid' = uid then none else getActiveDesk dbs uid' := by
  by_cases h : uid' = uid
  · subst h
    rw [if_pos rfl, getActiveDesk, leave, of_send, Store.hget, hashes_hdel, if_pos rfl,
      AList.lookup_erase, Option.bind_none]
  · rw [if_neg h]
    refine congrArg (fun v => Option.bind v String.toNat?) (lookup_active_send ?_ ?_ h)
    · intro r u
      rw [hashes_hdel, hashes_hdel, if_pos rfl]
    · intro r name hn
      rw [hashes_hdel, if_pos rfl, AList.lookup_erase_ne hn]

/-- Dismissing a desk leaves the active desks alone. -/
theorem getActiveDesk_dismiss (dbs : Dbs) (uid deskid uid' : ℕ) :
    getActiveDesk (dismiss dbs uid deskid) uid' = getActiveDesk dbs uid' := by
  have hof : ((dismiss dbs uid deskid).of uid').hashes = (dbs.of uid').hashes := by
    by_cases hs : dbs.select uid' = dbs.select uid
    · simp only [dismiss, Dbs.of, Dbs.send, hs, Function.update_self, hashes_srem]
    · simp only [dismiss, Dbs.of, Dbs.send, Function.update_of_ne hs]
  rw [getActiveDesk, Store.hget, hof]
  rfl

/-- So does creating one. -/
theorem getActiveDesk_createDesk (dbs : Dbs) (uid deskid uid' : ℕ) :
    getActiveDesk (createDesk dbs uid deskid) uid' = getActiveDesk dbs uid' := by
  have hof : ((createDesk dbs uid deskid).of uid').hashes = (dbs.of uid').hashes := by
    by_cases hs : dbs.select uid' = dbs.select uid
    · simp only [createDesk, Dbs.of, Dbs.send, hs, Function.update_self, hashes_sadd]
    · simp only [createDesk, Dbs.of, Dbs.send, Function.update_of_ne hs]
  rw [getActiveDesk, Store.hget, hof]
  rfl

/-- Leaving one after the other. -/
theorem getActiveDesk_foldl_leave (dbs : Dbs) (uids : List ℕ) (uid : ℕ) :
    getActiveDesk (uids.foldl leave dbs) uid = if uid ∈ uids then none
    else getActiveDesk dbs uid := by
  induction uids generalizing dbs with
  | nil => simp
  | cons u uids ih =>
      rw [List.foldl_cons, ih, getActiveDesk_leave]
      by_cases h : uid = u <;> simp [h]

/-! ### Created desks -/

/-- The names of the desks a user has created. -/
def created (dbs : Dbs) (userid : ℕ) : Table String Unit := (dbs.of userid).sets (createKey userid)

/-- A command that changes at most the set of one user. -/
theorem created_send {dbs : Dbs} {uid : ℕ} {f : Store → Store} (uid' : ℕ)
    (hf : ∀ r, uid' ≠ uid → (f r).sets (createKey uid') = r.sets (createKey uid')) :
    created (dbs.send uid f) uid' =
      if uid' = uid then (f (dbs.of uid)).sets (createKey uid) else created dbs uid' := by
  by_cases h : uid' = uid
  · subst h
    rw [if_pos rfl, created, of_send]
  · rw [if_neg h]
    by_cases hs : dbs.select uid' = dbs.select uid
    · have hof : (dbs.send uid f).of uid' = f (dbs.of uid') := by
        simp only [Dbs.of, Dbs.send, hs, Function.update_self]
      rw [created, hof, hf _ h]
      rfl
    · have hof : (dbs.send uid f).of uid' = dbs.of uid' := by
        simp only [Dbs.of, Dbs.send, Function.update_of_ne hs]
      rw [created, hof]
      rfl

theorem createKey_ne {uid uid' : ℕ} (h : uid' ≠ uid) : createKey uid' ≠ createKey uid :=
  fun hk => h (numbered_inj.1 hk).1

/-- **Creating a desk** adds its name. -/
theorem mem_created_createDesk (dbs : Dbs) (uid deskid uid' : ℕ) (s : String) :
    s ∈ created (createDesk dbs uid deskid) uid' ↔
      s ∈ created dbs uid' ∨ (uid' = uid ∧ s = deskid.repr) := by
  rw [createDesk, created_send uid' fun r h => by rw [sets_sadd, if_neg (createKey_ne h)]]
  by_cases h : uid' = uid
  · subst h
    rw [if_pos rfl, sets_sadd, if_pos rfl, AList.mem_insert]
    simp only [created, true_and]
    exact or_comm
  · rw [if_neg h]
    simp only [h, false_and, or_false]

/-- **Dismissing a desk** takes its name away. -/
theorem mem_created_dismiss (dbs : Dbs) (uid deskid uid' : ℕ) (s : String) :
    s ∈ created (dismiss dbs uid deskid) uid' ↔
      s ∈ created dbs uid' ∧ ¬ (uid' = uid ∧ s = deskid.repr) := by
  rw [dismiss, created_send uid' fun r h => by rw [sets_srem, if_neg (createKey_ne h)]]
  by_cases h : uid' = uid
  · subst h
    rw [if_pos rfl, sets_srem, if_pos rfl, AList.mem_erase]
    simp only [created, true_and]
    exact and_comm
  · rw [if_neg h]
    simp only [h, false_and, not_false_eq_true, and_true]

/-- Joining and leaving leave the created desks alone. -/
theorem created_join (dbs : Dbs) (uid deskid uid' : ℕ) :
    created (join dbs uid deskid) uid' = created dbs uid' := by
  rw [join, created_send uid' fun r _ => by rw [sets_hset]]
  split
  · rename_i h
    rw [h]
    rfl
  · rfl

theorem created_leave (dbs : Dbs) (uid uid' : ℕ) :
    created (leave dbs uid) uid' = created dbs uid' := by
  rw [leave, created_send uid' fun r _ => by rw [sets_hdel]]
  split
  · rename_i h
    rw [h]
    rfl
  · rfl

/-- The numbers that stand for these names. -/
theorem mem_getCreateDesk {dbs : Dbs} {uid : ℕ}
    (h : ∀ s ∈ created dbs uid, ∃ n : ℕ, s = n.repr) (id : ℕ) :
    id ∈ getCreateDesk dbs uid ↔ id.repr ∈ created dbs uid := by
  rw [getCreateDesk, List.mem_filterMap]
  constructor
  · rintro ⟨s, hs, hid⟩
    obtain ⟨n, rfl⟩ := h s hs
    rw [Nat.toNat?_repr] at hid
    obtain rfl := Option.some_inj.1 hid
    exact hs
  · exact fun hs => ⟨id.repr, hs, Nat.toNat?_repr id⟩

end Userdb

end Halieutics
