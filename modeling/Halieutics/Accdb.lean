/-
**The account store: `service/db/accdb.lua` and its scripts.**

An account has a number.  Players sign in through a third party (a guest is a third party, too), and
the store keeps, for every identity — the name of the third party and the `uid` there — the number
of its account, in a hash that is spread over buckets of 1024 fields.  Looking an identity up and
registering it are two scripts; each of them is atomic.

The script that registers takes the next number, whether the identity has an account or not.

Main definitions:

* `Halieutics.Accdb.query3rd`, `Halieutics.Accdb.register3rd`, `Halieutics.Accdb.uniqueUsername`,
  `Halieutics.Accdb.refresh3rd` — the operations; the scripts run for a given number of rounds;
* `Halieutics.Accdb.querybyuid`, `Halieutics.Accdb.refreshbase` — reading and writing the base of an
  account;
* `Halieutics.Accdb.Filed`, `Halieutics.Accdb.Stored` — **a store keeps a list of accounts**;
* `Halieutics.Accdb.Counted` — no account has a number that is still to be given.

Main results:

* `Halieutics.Accdb.Stored.register3rd`, `Halieutics.Accdb.Stored.uniqueUsername`,
  `Halieutics.Accdb.Stored.refresh3rd` — what the operations do to the list;
* `Halieutics.Accdb.Stored.missing`, `Halieutics.Accdb.Stored.found` — **what a lookup says about
  it**;
* `Halieutics.Accdb.Stored.found_base`, `Halieutics.Accdb.baseOf_register3rd`,
  `Halieutics.Accdb.baseOf_refreshbase` — the bases;
* `Halieutics.Accdb.Stored.query3rd_returns`, `Halieutics.Accdb.Stored.register3rd_returns` — the
  scripts come to an end.
-/

import Halieutics.Buckets

set_option relaxedAutoImplicit false
set_option autoImplicit false

namespace Halieutics.Accdb

open LuaTable Redis

/-! ### The records -/

/-- `acc.third`; of its `info` only the refresh token is read. -/
structure Third where
  name : String
  uid : String
  rtk : String
  deriving DecidableEq

/-- `acc.uinfo`. -/
structure Uinfo where
  uname : String
  sex : ℕ
  head : String
  deriving DecidableEq

/-- `acc.base`, as far as it is read. -/
structure Base where
  uname : String
  forbidden : Bool
  deriving DecidableEq

/-- What the records look like as strings, and the name that `unique_username` makes of a number. -/
structure Env where
  base : Codec Base
  uinfo : Codec Uinfo
  third : Codec Third
  username : ℕ → String

/-- The identity of a player. -/
abbrev Ident := String × String

def Third.ident (third : Third) : Ident := (third.name, third.uid)

/-! ### Names -/

/-- The second half of `crypt.hashkey`. -/
def jsHash (key : String) : UInt32 :=
  key.toUTF8.data.toList.foldl (fun h c => h ^^^ ((h <<< 5) + c.toUInt32 + (h >>> 2))) 1315423911

/-- `hash`: the last four bytes of the key are read as one number, the lowest byte first. -/
def hash (key : String) : ℕ :=
  let h := (jsHash key).toNat
  ((h % 256 * 256 + h / 256 % 256) * 256 + h / 65536 % 256) * 256 + h / 16777216

/-- `maxsize`. -/
def maxsize : ℕ := 1024

/-- `maxblock`. -/
def maxblock : ℕ := 10000

/-- `string.format("acc3rd:%s:%d:%d", name, index, subindex)`. -/
def acc3rdKey (name : String) (index subindex : ℕ) : String :=
  "acc3rd:" ++ name ++ ":" ++ index.repr ++ ":" ++ subindex.repr

/-- The buckets of an identity. -/
def bucket (k : Ident) : ℕ → String := acc3rdKey k.1 (hash k.2 % maxblock)

/-- `string.format("account:%d:base", index)`, for the account `id`. -/
def baseKey (id : ℕ) : String := numbered "account" (id / maxsize) "base"

def uinfoKey (id : ℕ) : String := numbered "account" (id / maxsize) "uinfo"

def thirdKey (id : ℕ) : String := numbered "account" (id / maxsize) "third"

/-! ### The operations -/

/-- What `db.query3rd` returns. -/
inductive Query where
  | missing
  | found (id : ℕ) (base : Base) (uinfo : Uinfo)
  | raised

/-- The end of `db.query3rd`, when the script has returned three values. -/
def decode (E : Env) (id : ℕ) (base uinfo : String) : Query :=
  match E.base.dec base, E.uinfo.dec uinfo with
  | some base, some uinfo => .found id base uinfo
  | _, _ => .raised

/-- **`db.query3rd`**, in so many rounds of the script. -/
def query3rd (E : Env) (r : Store) (third : Third) (rounds : ℕ) : Option Query :=
  (Buckets.find r (bucket third.ident) third.uid rounds 1).map fun
    | none => .missing
    | some id =>
        match id.toNat? with
        | none => .raised
        | some n =>
            match r.hget (baseKey n) id, r.hget (uinfoKey n) id with
            | some base, some uinfo => decode E n base uinfo
            -- the answer of the script is too short
            | _, _ => .missing

/-- The script `unique_username`. -/
def uniqueUsername (E : Env) (r : Store) : Store × String :=
  let (r, n) := (r.setnx "account:guid" (0x01fd3a7b : ℕ).repr).incr "account:guid"
  (r, E.username n)

/-- The records of a new account. -/
def saveAccount (E : Env) (r : Store) (third : Third) (base : Base) (uinfo : Uinfo)
    (id : ℕ) : Store :=
  ((r.hset (baseKey id) id.repr (E.base.enc base)).hset (uinfoKey id) id.repr
    (E.uinfo.enc uinfo)).hset (thirdKey id) id.repr (E.third.enc third)

/-- **The script `register3rd`**, in so many rounds. -/
def register3rd (E : Env) (r : Store) (third : Third) (base : Base) (uinfo : Uinfo) (rounds : ℕ) :
    Option (Store × ℕ) :=
  let (r, id) := (r.setnx "account:id:counter" (1000000 : ℕ).repr).incr "account:id:counter"
  let r := r.sadd ("nick:" ++ uinfo.uname) id.repr
  (Buckets.put r (bucket third.ident) maxsize third.uid id.repr rounds 1).map fun r =>
    (saveAccount E r third base uinfo id, id)

/-- **`db.refresh3rd`**. -/
def refresh3rd (E : Env) (r : Store) (userid : ℕ) (third : Third) (uinfo : Option Uinfo) : Store :=
  let r := match uinfo with
    | none => r
    | some uinfo => r.hset (uinfoKey userid) userid.repr (E.uinfo.enc uinfo)
  r.hset (thirdKey userid) userid.repr (E.third.enc third)

/-- **`db.querybyuid`**; `none` if the record cannot be read. -/
def querybyuid (E : Env) (r : Store) (userid : ℕ) : Option (Option Base) :=
  match r.hget (baseKey userid) userid.repr with
  | none => some none
  | some base => (E.base.dec base).map some

/-- `refreshbase`. -/
def refreshbase (E : Env) (r : Store) (base : Base) (userid : ℕ) : Store :=
  r.hset (baseKey userid) userid.repr (E.base.enc base)

/-! ### The names are apart -/

/-- What stands behind the last colon. -/
theorem append_colon_inj' {l l' r r' : List Char} (hr : ':' ∉ r) (hr' : ':' ∉ r')
    (h : l ++ ':' :: r = l' ++ ':' :: r') : l = l' ∧ r = r' := by
  have h' := congrArg List.reverse h
  simp only [List.reverse_append, List.reverse_cons, List.append_assoc, List.cons_append,
    List.nil_append] at h'
  obtain ⟨h₁, h₂⟩ := append_colon_inj (by simpa using hr) (by simpa using hr') h'
  exact ⟨List.reverse_injective h₂, List.reverse_injective h₁⟩

theorem toList_acc3rdKey (name : String) (i j : ℕ) : (acc3rdKey name i j).toList =
    ("acc3rd:".toList ++ name.toList ++ ':' :: i.repr.toList) ++ ':' :: j.repr.toList := by
  simp only [acc3rdKey, String.toList_append, List.append_assoc]
  rfl

/-- **The names of the buckets do not collide.** -/
theorem acc3rdKey_inj {name name' : String} {i i' j j' : ℕ}
    (h : acc3rdKey name i j = acc3rdKey name' i' j') : name = name' ∧ i = i' ∧ j = j' := by
  have h' := congrArg String.toList h
  rw [toList_acc3rdKey, toList_acc3rdKey] at h'
  obtain ⟨h', hj⟩ := append_colon_inj' (colon_notMem_repr j) (colon_notMem_repr j') h'
  obtain ⟨h', hi⟩ := append_colon_inj' (colon_notMem_repr i) (colon_notMem_repr i') h'
  exact ⟨String.toList_inj.1 (List.append_cancel_left h'),
    Nat.repr_injective (String.toList_inj.1 hi),
    Nat.repr_injective (String.toList_inj.1 hj)⟩

theorem bucket_injective (k : Ident) : Function.Injective (bucket k) := fun _ _ h =>
  (acc3rdKey_inj h).2.2

/-- The records of the accounts are in no bucket. -/
theorem bucket_ne_numbered (name : String) (i j n : ℕ) (suf : String) :
    acc3rdKey name i j ≠ numbered "account" n suf := by
  intro h
  have h' := congrArg (fun s => s.toList[3]?) h
  simp [acc3rdKey, numbered] at h'

/-! ### What a store keeps -/

/-- The records of an account. -/
def Recorded (r : Store) (id : ℕ) : Prop :=
  (r.hget (baseKey id) id.repr).isSome = true ∧ (r.hget (uinfoKey id) id.repr).isSome = true

/-- **The buckets file a list of accounts**: they have the identities of the list, each with a
number that the list has for it. -/
structure Filed (r : Store) (accounts : List (Ident × ℕ)) : Prop where
  chained : ∀ name index, Buckets.Chained r (acc3rdKey name index)
  held : ∀ k v, Buckets.Holds r (bucket k) k.2 v → ∃ id, (k, id) ∈ accounts ∧ v = id.repr
  kept : ∀ k id, (k, id) ∈ accounts → ∃ v, Buckets.Holds r (bucket k) k.2 v

/-- **A store keeps a list of accounts.** -/
structure Stored (r : Store) (accounts : List (Ident × ℕ)) : Prop extends Filed r accounts where
  recorded : ∀ k id, (k, id) ∈ accounts → Recorded r id

variable {E : Env} {r r' : Store} {accounts : List (Ident × ℕ)}

theorem stored_empty : Stored {} [] where
  chained name index := by
    have hno : ∀ i, ({} : Store).hashExists (acc3rdKey name index i) = false := fun i => rfl
    exact ⟨fun i _ h => absurd h (by rw [hno]; simp), 0, fun i _ => hno i⟩
  held k v h := by
    obtain ⟨i, -, hv⟩ := h
    exact absurd hv (by simp [Store.hget])
  kept k id h := absurd h List.not_mem_nil
  recorded k id h := absurd h List.not_mem_nil

/-- Only the buckets count. -/
theorem Filed.congr (hbucket : ∀ name i j field,
      r'.hget (acc3rdKey name i j) field = r.hget (acc3rdKey name i j) field)
    (h : Filed r accounts) : Filed r' accounts where
  chained name index := Buckets.chained_congr (hbucket name index) (h.chained name index)
  held k v hv := h.held k v ((Buckets.holds_congr (hbucket _ _) _ _).1 hv)
  kept k id hk := by
    obtain ⟨v, hv⟩ := h.kept k id hk
    exact ⟨v, (Buckets.holds_congr (hbucket _ _) _ _).2 hv⟩

/-- A field of the records of an account. -/
theorem Filed.hset (h : Filed r accounts) (n : ℕ) (suf field v : String) :
    Filed (r.hset (numbered "account" n suf) field v) accounts :=
  h.congr fun name i j field' => by
    rw [hget_hset, if_neg fun hk => bucket_ne_numbered name i j n suf hk.1]

/-- Writing a field keeps the records there are. -/
theorem Recorded.hset {id : ℕ} (h : Recorded r id) (key field v : String) :
    Recorded (r.hset key field v) id := by
  have hsome : ∀ k f, (r.hget k f).isSome = true →
    ((r.hset key field v).hget k f).isSome = true := by
    intro k f hf
    rw [hget_hset]
    split
    · rfl
    · exact hf
  exact ⟨hsome _ _ h.1, hsome _ _ h.2⟩

theorem Stored.hset (h : Stored r accounts) (n : ℕ) (suf field v : String) :
    Stored (r.hset (numbered "account" n suf) field v) accounts :=
  ⟨h.toFiled.hset n suf field v, fun k id hk => (h.recorded k id hk).hset _ _ _⟩

/-- Commands that leave the hashes alone. -/
theorem Stored.of_hashes (h : Stored r accounts) (hh : r'.hashes = r.hashes) :
    Stored r' accounts := by
  have hget : ∀ k f, r'.hget k f = r.hget k f := fun k f => by rw [Store.hget, hh, Store.hget]
  refine ⟨h.toFiled.congr fun _ _ _ _ => hget _ _, fun k id hk => ?_⟩
  rw [Recorded, hget, hget]
  exact h.recorded k id hk

theorem Stored.uniqueUsername (h : Stored r accounts) : Stored (uniqueUsername E r).1 accounts :=
  h.of_hashes (by simp [Accdb.uniqueUsername])

theorem Stored.refresh3rd (h : Stored r accounts) (userid : ℕ) (third : Third)
    (uinfo : Option Uinfo) : Stored (refresh3rd E r userid third uinfo) accounts := by
  cases uinfo with
  | none => exact h.hset _ _ _ _
  | some uinfo => exact (h.hset _ _ _ _).hset _ _ _ _

/-- Identities with the same buckets. -/
theorem bucket_congr {k k' : Ident} (hn : k'.1 = k.1)
    (hi : hash k'.2 % maxblock = hash k.2 % maxblock) : bucket k' = bucket k := by
  rw [bucket, bucket, hn, hi]

/-- **An identity goes into one of its buckets.** -/
theorem Filed.put {k : Ident} {id n : ℕ} (h : Filed r accounts)
    (hp : Buckets.put r (bucket k) maxsize k.2 id.repr n 1 = some r') :
    Filed r' ((k, id) :: accounts) := by
  -- the buckets of another name or index
  have other : ∀ name index, ¬ (name = k.1 ∧ index = hash k.2 % maxblock) → ∀ i field,
      r'.hget (acc3rdKey name index i) field = r.hget (acc3rdKey name index i) field := by
    intro name index hne i field
    obtain ⟨j, -, rfl, -⟩ := Buckets.put_cases hp
    refine Buckets.hget_hset_of_ne (fun i' he => hne ?_) i field
    obtain ⟨hn, hi, -⟩ := acc3rdKey_inj he
    exact ⟨hn, hi⟩
  refine ⟨fun name index => ?_, fun k' v hv => ?_, fun k' id' hk => ?_⟩
  · by_cases hsame : name = k.1 ∧ index = hash k.2 % maxblock
    · obtain ⟨rfl, rfl⟩ := hsame
      exact (h.chained _ _).put (bucket_injective k) (by decide) hp
    · exact Buckets.chained_congr (other _ _ hsame) (h.chained name index)
  · have hold : k' = k ∧ v = id.repr ∨ Buckets.Holds r (bucket k') k'.2 v := by
      by_cases hsame : k'.1 = k.1 ∧ hash k'.2 % maxblock = hash k.2 % maxblock
      · rw [bucket_congr hsame.1 hsame.2] at hv ⊢
        exact (Buckets.holds_of_put hp hv).imp_left fun hf => ⟨Prod.ext hsame.1 hf.1, hf.2⟩
      · exact Or.inr ((Buckets.holds_congr (other _ _ hsame) _ _).1 hv)
    rcases hold with ⟨rfl, rfl⟩ | hv
    · exact ⟨id, List.mem_cons_self, rfl⟩
    · obtain ⟨id', hid, rfl⟩ := h.held k' v hv
      exact ⟨id', List.mem_cons_of_mem _ hid, rfl⟩
  · rcases List.mem_cons.1 hk with he | hk
    · obtain ⟨rfl, rfl⟩ := Prod.mk.inj he
      exact ⟨_, Buckets.holds_put hp⟩
    · obtain ⟨v, hv⟩ := h.kept k' id' hk
      by_cases hsame : k'.1 = k.1 ∧ hash k'.2 % maxblock = hash k.2 % maxblock
      · rw [bucket_congr hsame.1 hsame.2] at hv ⊢
        exact Buckets.holds_put_of_holds hp ⟨v, hv⟩
      · exact ⟨v, (Buckets.holds_congr (other _ _ hsame) _ _).2 hv⟩

/-- The counter and the names of the players are apart from the buckets. -/
theorem hashes_counted (r : Store) (uinfo : Uinfo) :
    ((((r.setnx "account:id:counter" (1000000 : ℕ).repr).incr "account:id:counter").1).sadd
      ("nick:" ++ uinfo.uname)
      ((r.setnx "account:id:counter" (1000000 : ℕ).repr).incr "account:id:counter").2.repr).hashes
      = r.hashes := by simp

/-- **Registering adds an account**, whether or not the identity has one. -/
theorem Stored.register3rd {third : Third} {base : Base} {uinfo : Uinfo} {rounds id : ℕ}
    (h : Stored r accounts) (hr : register3rd E r third base uinfo rounds = some (r', id)) :
    Stored r' ((third.ident, id) :: accounts) := by
  obtain ⟨r₂, hp, he⟩ := Option.map_eq_some_iff.1 hr
  obtain ⟨rfl, rfl⟩ := Prod.mk.inj he
  have h₁ := h.of_hashes (hashes_counted r uinfo)
  have hfiled := Filed.put (k := third.ident) h₁.toFiled hp
  refine ⟨((hfiled.hset _ _ _ _).hset _ _ _ _).hset _ _ _ _, fun k id' hk => ?_⟩
  rcases List.mem_cons.1 hk with he | hk
  · obtain ⟨-, rfl⟩ := Prod.mk.inj he
    constructor <;> simp [saveAccount, hget_hset, baseKey, uinfoKey, thirdKey, numbered_inj]
  · obtain ⟨j, -, rfl, -⟩ := Buckets.put_cases hp
    exact ((((h₁.recorded k id' hk).hset _ _ _).hset _ _ _).hset _ _ _).hset _ _ _

/-! ### What a lookup says -/

/-- **Who is not found has no account.** -/
theorem Stored.missing {third : Third} {rounds : ℕ} (h : Stored r accounts)
    (hq : query3rd E r third rounds = some .missing) (id : ℕ) : (third.ident, id) ∉ accounts := by
  intro hk
  obtain ⟨v, hv⟩ := h.kept _ _ hk
  obtain ⟨o, ho, hm⟩ := Option.map_eq_some_iff.1 hq
  cases o with
  | none =>
      exact Buckets.find_none (h.chained _ _) le_rfl (fun j h₁ h₂ => absurd h₁ (by omega)) ho v hv
  | some w =>
      obtain ⟨id', hid, rfl⟩ := h.held _ _ (Buckets.find_some le_rfl ho)
      obtain ⟨hb, hu⟩ := h.recorded _ _ hid
      obtain ⟨base, hb⟩ := Option.isSome_iff_exists.1 hb
      obtain ⟨uinfo, hu⟩ := Option.isSome_iff_exists.1 hu
      simp only [Nat.toNat?_repr, hb, hu, decode] at hm
      split at hm <;> simp at hm

/-- **Whoever is found has the account.** -/
theorem Stored.found {third : Third} {rounds id : ℕ} {base : Base} {uinfo : Uinfo}
    (h : Stored r accounts) (hq : query3rd E r third rounds = some (.found id base uinfo)) :
    (third.ident, id) ∈ accounts := by
  obtain ⟨o, ho, hm⟩ := Option.map_eq_some_iff.1 hq
  cases o with
  | none => simp at hm
  | some w =>
      obtain ⟨id', hid, rfl⟩ := h.held _ _ (Buckets.find_some le_rfl ho)
      obtain ⟨hb, hu⟩ := h.recorded _ _ hid
      obtain ⟨b, hb⟩ := Option.isSome_iff_exists.1 hb
      obtain ⟨u, hu⟩ := Option.isSome_iff_exists.1 hu
      simp only [Nat.toNat?_repr, hb, hu, decode] at hm
      split at hm
      · obtain ⟨rfl, -, -⟩ := Query.found.inj hm
        exact hid
      · simp at hm

/-! ### The bases -/

/-- The base of an account. -/
def BaseOf (E : Env) (r : Store) (id : ℕ) (base : Base) :
    Prop := querybyuid E r id = some (some base)

theorem baseOf_iff {id : ℕ} {base : Base} : BaseOf E r id base ↔
    ∃ v, r.hget (baseKey id) id.repr = some v ∧ E.base.dec v = some base := by
  unfold BaseOf querybyuid
  cases r.hget (baseKey id) id.repr with
  | none => simp
  | some v => simp [Option.map_eq_some_iff]

theorem BaseOf.unique {id : ℕ} {base base' : Base} (h : BaseOf E r id base)
    (h' : BaseOf E r id base') : base = base' :=
  Option.some.inj (Option.some.inj (h.symm.trans h'))

/-- Other fields do not matter. -/
theorem baseOf_congr {id : ℕ} {base : Base}
    (hget : r'.hget (baseKey id) id.repr = r.hget (baseKey id) id.repr) :
    BaseOf E r' id base ↔ BaseOf E r id base := by
  rw [BaseOf, BaseOf, querybyuid, querybyuid, hget]

theorem baseOf_refreshbase (id id' : ℕ) (base base' : Base) :
    BaseOf E (refreshbase E r base id) id' base' ↔
      if id' = id then base' = base else BaseOf E r id' base' := by
  by_cases hid : id' = id
  · rw [if_pos hid, hid, baseOf_iff, refreshbase]
    simp only [hget_hset, and_self, if_true, Option.some_inj, exists_eq_left', E.base.dec_enc]
    exact eq_comm
  · rw [if_neg hid]
    refine baseOf_congr ?_
    rw [refreshbase, hget_hset, if_neg fun h => hid (Nat.repr_injective h.2)]

/-- The last number that was given to an account. -/
def counter (r : Store) : ℕ := ((r.strings "account:id:counter").bind String.toNat?).getD 0

/-- **No account has a number that is still to be given.** -/
def Counted (r : Store) : Prop :=
  ∀ id, (r.hget (baseKey id) id.repr).isSome = true → id ≤ counter r

theorem counted_empty : Counted {} := fun _ h => absurd h (by simp [Store.hget])

/-- The names of accounts, and the counter, are left alone. -/
theorem Counted.congr (h : Counted r) (hc : counter r' = counter r)
    (hb : ∀ id, (r'.hget (baseKey id) id.repr).isSome = true →
      (r.hget (baseKey id) id.repr).isSome = true) : Counted r' :=
  fun id hid => hc ▸ h id (hb id hid)

theorem Counted.refreshbase {id : ℕ} {base base' : Base} (h : Counted r)
    (hb : BaseOf E r id base') :
    Counted (refreshbase E r base id) := by
  refine h.congr rfl fun id' hid => ?_
  rw [Accdb.refreshbase, hget_hset] at hid
  split at hid
  · rename_i he
    obtain ⟨v, hv, -⟩ := baseOf_iff.1 hb
    rw [he.1, he.2, hv]
    rfl
  · exact hid

theorem baseOf_uniqueUsername {id : ℕ} {base : Base} :
    BaseOf E (uniqueUsername E r).1 id base ↔ BaseOf E r id base :=
  baseOf_congr (by simp [uniqueUsername, Store.hget])

theorem Counted.uniqueUsername (h : Counted r) : Counted (uniqueUsername E r).1 := by
  refine h.congr ?_ fun id hid => ?_
  · simp [Accdb.uniqueUsername, counter, Store.incr, Store.setnx, Store.set]
    split <;> simp
  · simpa [Accdb.uniqueUsername, Store.hget] using hid

/-- The other records of an account are not its base. -/
theorem hget_refresh3rd (userid : ℕ) (third : Third) (uinfo : Option Uinfo) (id : ℕ) :
    (refresh3rd E r userid third uinfo).hget (baseKey id) id.repr =
      r.hget (baseKey id) id.repr := by
  cases uinfo <;>
    simp [Accdb.refresh3rd, hget_hset, baseKey, uinfoKey, thirdKey, numbered_inj]

theorem baseOf_refresh3rd {userid : ℕ} {third : Third} {uinfo : Option Uinfo} {id : ℕ}
    {base : Base} :
    BaseOf E (refresh3rd E r userid third uinfo) id base ↔ BaseOf E r id base :=
  baseOf_congr (hget_refresh3rd userid third uinfo id)

theorem Counted.refresh3rd (h : Counted r) (userid : ℕ) (third : Third) (uinfo : Option Uinfo) :
    Counted (refresh3rd E r userid third uinfo) := by
  refine h.congr ?_ fun id hid => ?_
  · cases uinfo <;> rfl
  · rwa [hget_refresh3rd] at hid

/-- The number of a new account. -/
theorem register3rd_id {third : Third} {base : Base} {uinfo : Uinfo} {rounds id : ℕ}
    (hr : register3rd E r third base uinfo rounds = some (r', id)) :
    counter r < id ∧ counter r' = id ∧ ∀ id', r'.hget (baseKey id') id'.repr =
      if id' = id then some (E.base.enc base) else r.hget (baseKey id') id'.repr := by
  obtain ⟨r₂, hp, he⟩ := Option.map_eq_some_iff.1 hr
  obtain ⟨rfl, rfl⟩ := Prod.mk.inj he
  obtain ⟨j, -, hr₂, -⟩ := Buckets.put_cases hp
  have hput : ∀ id', r₂.hget (baseKey id') id'.repr = r.hget (baseKey id') id'.repr := by
    intro id'
    rw [hr₂, hget_hset, if_neg fun h => bucket_ne_numbered _ _ _ _ _ h.1.symm]
    simp [Store.hget]
  have hcount : counter r₂ = ((r.setnx "account:id:counter" (1000000 : ℕ).repr).incr
      "account:id:counter").2 := by
    rw [hr₂, counter]
    simp only [Store.hset, Store.sadd, Store.set, Function.update_self, Option.bind_some,
      Nat.toNat?_repr, Option.getD_some]
    rfl
  refine ⟨?_, hcount, fun id' => ?_⟩
  · cases hc : r.strings "account:id:counter" <;> simp [counter, Store.setnx, Store.set, hc]
  · have h₁ : ∀ n, baseKey id' ≠ uinfoKey n := fun n => by simp [baseKey, uinfoKey, numbered_inj]
    have h₂ : ∀ n, baseKey id' ≠ thirdKey n := fun n => by simp [baseKey, thirdKey, numbered_inj]
    rw [saveAccount, hget_hset, if_neg fun h => h₂ _ h.1, hget_hset, if_neg fun h => h₁ _ h.1,
      hget_hset, hput]
    refine if_congr ⟨fun h => Nat.repr_injective h.2, fun h => ?_⟩ rfl rfl
    rw [h]
    exact ⟨rfl, rfl⟩

theorem baseOf_register3rd {third : Third} {base base' : Base} {uinfo : Uinfo} {rounds id id' : ℕ}
    (hc : Counted r) (hr : register3rd E r third base uinfo rounds = some (r', id)) :
    BaseOf E r' id' base' ↔ BaseOf E r id' base' ∨ id' = id ∧ base' = base := by
  obtain ⟨hlt, -, hget⟩ := register3rd_id hr
  by_cases hid : id' = id
  · have hno : ¬ BaseOf E r id base' := by
      intro h
      obtain ⟨v, hv, -⟩ := baseOf_iff.1 h
      exact absurd (hc id (by rw [hv]; rfl)) (Nat.not_le.2 hlt)
    rw [hid, baseOf_iff, hget, if_pos rfl]
    simp [hno, E.base.dec_enc, eq_comm]
  · have hcongr : BaseOf E r' id' base' ↔ BaseOf E r id' base' :=
      baseOf_congr ((hget id').trans (if_neg hid))
    simp [hid, hcongr]

theorem Counted.register3rd {third : Third} {base : Base} {uinfo : Uinfo} {rounds id : ℕ}
    (h : Counted r) (hr : register3rd E r third base uinfo rounds = some (r', id)) :
    Counted r' := by
  obtain ⟨hlt, hc, hget⟩ := register3rd_id hr
  intro id' hid'
  rw [hget] at hid'
  rw [hc]
  split at hid'
  · rename_i he
    exact he.le
  · exact (h id' hid').trans hlt.le

/-- **The lookup reads the base.** -/
theorem Stored.found_base {third : Third} {rounds id : ℕ} {base : Base} {uinfo : Uinfo}
    (h : Stored r accounts) (hq : query3rd E r third rounds = some (.found id base uinfo)) :
    BaseOf E r id base := by
  obtain ⟨o, ho, hm⟩ := Option.map_eq_some_iff.1 hq
  cases o with
  | none => simp at hm
  | some w =>
      obtain ⟨id', -, rfl⟩ := h.held _ _ (Buckets.find_some le_rfl ho)
      cases hb : r.hget (baseKey id') id'.repr with
      | none => simp [hb] at hm
      | some b =>
          cases hu : r.hget (uinfoKey id') id'.repr with
          | none => simp [hb, hu] at hm
          | some u =>
              simp only [Nat.toNat?_repr, hb, hu, decode] at hm
              split at hm
              · rename_i base' uinfo' hb' hu'
                obtain ⟨rfl, rfl, rfl⟩ := Query.found.inj hm
                exact baseOf_iff.2 ⟨b, hb, hb'⟩
              · simp at hm

/-- **The lookup comes to an end.** -/
theorem Stored.query3rd_returns (h : Stored r accounts) (third : Third) :
    ∃ N, ∀ n, N ≤ n → (query3rd E r third n).isSome = true := by
  obtain ⟨N, hN⟩ := (h.chained third.name (hash third.uid % maxblock)).find_returns third.uid
  exact ⟨N, fun n hn => Option.isSome_map.trans (hN n hn)⟩

/-- **The registration comes to an end.** -/
theorem Stored.register3rd_returns (h : Stored r accounts) (third : Third) (base : Base)
    (uinfo : Uinfo) : ∃ N, ∀ n,
    N ≤ n → (Accdb.register3rd E r third base uinfo n).isSome = true := by
  have h₁ := h.of_hashes (hashes_counted r uinfo)
  obtain ⟨N, hN⟩ := (h₁.chained third.name (hash third.uid % maxblock)).put_returns
    (by decide : 0 < maxsize) third.uid _
  exact ⟨N, fun n hn => Option.isSome_map.trans (hN n hn)⟩

end Halieutics.Accdb
