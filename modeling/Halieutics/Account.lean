/-
**Looking accounts up: `service/db/script/account.lua`.**

The scripts that register an identity and look it up are given the hash of its `uid` by their
callers; the hash says which chain of buckets the identity belongs to, and no script can tell
whether it is the right one.  This module takes the scripts as they are, for hashes of any kind:
many identities may have the same one, so that their chain overflows again and again.

Registering stops at the first bucket that is not full, looking up at the first one that does not
exist.  The two agree because the buckets of a chain are filled one after the other
(`Redis.Buckets.Chained`), and what a chain has is what was registered for it
(`Redis.Buckets.Spread`).

Main definitions:

* `Halieutics.Account.register3rd`, `Halieutics.Account.query3rd` — the two scripts, in so many
  rounds of their loops;
* `Halieutics.Account.answer` — what `db.query3rd` makes of the answer of the script;
* `Halieutics.Account.registerAll` — a sequence of registrations;
* `Halieutics.Account.Returns` — with enough rounds, this is the result;
* `Halieutics.Account.Kept` — the store keeps what was registered.

Main results:

* `Halieutics.Account.accdb_register3rd`, `Halieutics.Account.accdb_query3rd` — `accdb.lua` runs
  these scripts with the hash it computes;
* `Halieutics.Account.Kept.register3rd` — what a registration adds;
* `Halieutics.Account.Kept.query3rd`, `Halieutics.Account.Kept.query3rd_unknown` — **what a lookup
  returns**;
* `Halieutics.Account.query3rd_registered` — **every identity is found with its own account, and no
  other identity is**.
-/

import Halieutics.Accdb

set_option relaxedAutoImplicit false
set_option autoImplicit false

namespace Halieutics.Account

open LuaTable Redis Accdb

/-! ### The scripts -/

/-- The arguments of `register3rd`; `hash(uinfo.uname)`, which it does not read, is left out. -/
structure Argv where
  name : String
  uid : String
  h : ℕ
  uname : String
  base : String
  uinfo : String
  third : String
  deriving DecidableEq

/-- `string.format("acc3rd:%s:%d:%d", ARGV[1], index, subindex)`, for a name and an index. -/
def chain (a : String × ℕ) : ℕ → String := acc3rdKey a.1 a.2

/-- The beginning of `register3rd`: the number of the account, and the set of those with its
name. -/
def take (r : Store) (uname : String) : Store × ℕ :=
  let (r, id) := (r.setnx "account:id:counter" (1000000 : ℕ).repr).incr "account:id:counter"
  (r.sadd ("nick:" ++ uname) id.repr, id)

/-- **The script `register3rd`**. -/
def register3rd (r : Store) (argv : Argv) (rounds : ℕ) : Option (Store × ℕ) :=
  let (r, id) := take r argv.uname
  (Buckets.put r (chain (argv.name, argv.h % maxblock)) maxsize argv.uid id.repr rounds 1).map
    fun r =>
    (((r.hset (baseKey id) id.repr argv.base).hset (uinfoKey id) id.repr argv.uinfo).hset
      (thirdKey id) id.repr argv.third, id)

/-- What the script `query3rd` returns; it raises an error if the number of the account is none. -/
inductive Reply where
  | nil
  | values (id : String) (base uinfo : Option String)
  | raised
  deriving DecidableEq

/-- **The script `query3rd`**. -/
def query3rd (r : Store) (name uid : String) (h rounds : ℕ) : Option Reply :=
  (Buckets.find r (chain (name, h % maxblock)) uid rounds 1).map fun
    | none => .nil
    | some id =>
        match id.toNat? with
        | none => .raised
        | some n => .values id (r.hget (baseKey n) id) (r.hget (uinfoKey n) id)

/-! ### The callers -/

section Callers

variable {β υ τ : Type}

/-- What the records look like as strings. -/
structure Json (β υ τ : Type) where
  base : Codec β
  uinfo : Codec υ
  third : Codec τ

/-- What `db.register3rd` registers, and the hash it sends along. -/
structure Registration (β υ τ : Type) where
  name : String
  uid : String
  h : ℕ
  uname : String
  base : β
  uinfo : υ
  third : τ

/-- The pair that the account is looked up by. -/
def Registration.pair (x : Registration β υ τ) : String × String := (x.name, x.uid)

def Registration.argv (J : Json β υ τ) (x : Registration β υ τ) : Argv where
  name := x.name
  uid := x.uid
  h := x.h
  uname := x.uname
  base := J.base.enc x.base
  uinfo := J.uinfo.enc x.uinfo
  third := J.third.enc x.third

/-- What `db.query3rd` returns. -/
inductive Answer (β υ : Type) where
  | nothing
  | found (id : ℕ) (base : β) (uinfo : υ)
  | raised
  deriving DecidableEq

/-- **The end of `db.query3rd`**: `if r and #r >= 3`. -/
def answer (J : Json β υ τ) : Reply → Answer β υ
  | .nil => .nothing
  | .raised => .raised
  | .values id (some base) (some uinfo) =>
      match id.toNat?, J.base.dec base, J.uinfo.dec uinfo with
      | some id, some base, some uinfo => .found id base uinfo
      | _, _, _ => .raised
  -- the answer of the script is too short
  | .values _ _ _ => .nothing

/-- **A sequence of registrations**, and the numbers they return. -/
def registerAll (J : Json β υ τ) (rounds : ℕ) :
    Store → List (Registration β υ τ) → Option (Store × List ℕ)
  | r, [] => some (r, [])
  | r, x :: xs =>
      (register3rd r (x.argv J) rounds).bind fun s =>
        (registerAll J rounds s.1 xs).map fun t => (t.1, s.2 :: t.2)

end Callers

/-- **With enough rounds, this is the result.** -/
def Returns {α : Type} (f : ℕ → Option α) (a : α) : Prop := ∃ N, ∀ n, N ≤ n → f n = some a

theorem Returns.map {α γ : Type} {f : ℕ → Option α} {a : α} (h : Returns f a) (g : α → γ) :
    Returns (fun n => (f n).map g) (g a) := by
  obtain ⟨N, hN⟩ := h
  refine ⟨N, fun n hn => ?_⟩
  show (f n).map g = some (g a)
  rw [hN n hn, Option.map_some]

theorem Returns.bind {α γ : Type} {f : ℕ → Option α} {g : ℕ → α → Option γ} {a : α} {c : γ}
    (h : Returns f a) (hg : Returns (fun n => g n a) c) :
    Returns (fun n => (f n).bind (g n)) c := by
  obtain ⟨N, hN⟩ := h
  obtain ⟨M, hM⟩ := hg
  refine ⟨max N M, fun n hn => ?_⟩
  show (f n).bind (g n) = some c
  rw [hN n ((le_max_left _ _).trans hn), Option.bind_some]
  exact hM n ((le_max_right _ _).trans hn)

/-! ### `accdb.lua` runs these scripts -/

theorem accdb_register3rd (E : Env) (r : Store) (third : Third) (base : Base) (uinfo : Uinfo)
    (rounds : ℕ) : Accdb.register3rd E r third base uinfo rounds =
      register3rd r ⟨third.name, third.uid, hash third.uid, uinfo.uname, E.base.enc base,
        E.uinfo.enc uinfo, E.third.enc third⟩ rounds := rfl

theorem accdb_query3rd (E : Env) (r : Store) (third : Third) (rounds : ℕ) :
    Accdb.query3rd E r third rounds =
      (query3rd r third.name third.uid (hash third.uid) rounds).map fun reply =>
        match answer ⟨E.base, E.uinfo, E.third⟩ reply with
        | .nothing => .missing
        | .found id base uinfo => .found id base uinfo
        | .raised => .raised := by
  rw [Accdb.query3rd, query3rd, Option.map_map]
  refine Option.map_congr fun o _ => ?_
  cases o with
  | none => rfl
  | some id =>
      cases hid : id.toNat? with
      | none => simp [hid, answer]
      | some n =>
          cases hb : r.hget (baseKey n) id <;> cases hu : r.hget (uinfoKey n) id <;>
            simp only [Function.comp_apply, hid, hb, hu, answer]
          rename_i base uinfo
          rw [decode]
          cases E.base.dec base <;> cases E.uinfo.dec uinfo <;> rfl

/-! ### What a store keeps -/

/-- The names of the buckets are apart. -/
theorem chain_inj {a b : String × ℕ} {i j : ℕ} (h : chain a i = chain b j) : a = b ∧ i = j := by
  obtain ⟨hn, hi, hj⟩ := acc3rdKey_inj h
  exact ⟨Prod.ext hn hi, hj⟩

/-- The records of the accounts are in no bucket. -/
theorem hget_chain_hset (r : Store) (n : ℕ) (suf field v : String) (a : String × ℕ) (i : ℕ)
    (field' : String) : (r.hset (numbered "account" n suf) field v).hget (chain a i) field' =
      r.hget (chain a i) field' := by
  rw [hget_hset, if_neg fun h => bucket_ne_numbered _ _ _ _ _ h.1]

section Keeping

variable {β υ τ : Type} {J : Json β υ τ} {r r' : Store} {x : Registration β υ τ} {id : ℕ}

/-- The row of the buckets that a registration writes. -/
def filed (row : Registration β υ τ × ℕ) : (String × ℕ) × String × String :=
  ((row.1.name, row.1.h % maxblock), row.1.uid, row.2.repr)

variable {rows : List (Registration β υ τ × ℕ)}

/-- **The store keeps what was registered**, each identity with the number that was returned. -/
structure Kept (J : Json β υ τ) (r : Store) (rows : List (Registration β υ τ × ℕ)) : Prop where
  spread : Buckets.Spread r chain (rows.map filed)
  base : ∀ row ∈ rows, r.hget (baseKey row.2) row.2.repr = some (J.base.enc row.1.base)
  uinfo : ∀ row ∈ rows, r.hget (uinfoKey row.2) row.2.repr = some (J.uinfo.enc row.1.uinfo)
  given : ∀ row ∈ rows, row.2 ≤ counter r
  ids : (rows.map Prod.snd).Nodup

theorem kept_empty : Kept J {} [] where
  spread := Buckets.Spread.empty fun _ _ => rfl
  base _ h := absurd h List.not_mem_nil
  uinfo _ h := absurd h List.not_mem_nil
  given _ h := absurd h List.not_mem_nil
  ids := List.nodup_nil

@[simp] theorem hashes_take (r : Store) (uname : String) : (take r uname).1.hashes = r.hashes := by
  simp [take]

/-- The number is a new one. -/
theorem counter_lt_take (r : Store) (uname : String) : counter r < (take r uname).2 := by
  cases hc : r.strings "account:id:counter" <;>
    simp [take, counter, Store.incr, Store.setnx, Store.set, hc]

theorem counter_take (r : Store) (uname : String) :
    counter (take r uname).1 = (take r uname).2 := by
  simp [take, counter, Store.sadd, Store.incr, Store.set]

/-- **What the script writes**: the identity into a bucket, and the records under the next
number. -/
theorem register3rd_cases {argv : Argv} {rounds : ℕ}
    (h : register3rd r argv rounds = some (r', id)) :
    id = (take r argv.uname).2 ∧ ∃ r₂,
      Buckets.put (take r argv.uname).1 (chain (argv.name, argv.h % maxblock)) maxsize
      argv.uid id.repr
        rounds 1 = some r₂ ∧
      r' = ((r₂.hset (baseKey id) id.repr argv.base).hset (uinfoKey id) id.repr argv.uinfo).hset
        (thirdKey id) id.repr argv.third := by
  obtain ⟨r₂, hp, he⟩ := Option.map_eq_some_iff.1 h
  obtain ⟨rfl, rfl⟩ := Prod.mk.inj he
  exact ⟨rfl, r₂, hp, rfl⟩

theorem register3rd_of_le {argv : Argv} {n m : ℕ} {o : Store × ℕ} (hn : n ≤ m)
    (h : register3rd r argv n = some o) : register3rd r argv m = some o := by
  obtain ⟨r₂, hp, rfl⟩ := Option.map_eq_some_iff.1 h
  exact Option.map_eq_some_iff.2 ⟨r₂, Buckets.put_of_le hn hp, rfl⟩

/-- **What a registration adds.** -/
theorem Kept.register3rd {rounds : ℕ} (h : Kept J r rows)
    (hr : register3rd r (x.argv J) rounds = some (r', id)) : Kept J r' ((x, id) :: rows) := by
  obtain ⟨hid, r₂, hp, rfl⟩ := register3rd_cases hr
  have hget₁ : ∀ key field, (take r x.uname).1.hget key field = r.hget key field :=
    fun key field => by rw [Store.hget, hashes_take, Store.hget]
  have hlt : counter r < id := hid ▸ counter_lt_take r x.uname
  -- the bucket does not touch the records
  have hget₂ : ∀ n suf field,
      r₂.hget (numbered "account" n suf) field = r.hget (numbered "account" n suf) field := by
    intro n suf field
    obtain ⟨j, -, rfl, -⟩ := Buckets.put_cases hp
    rw [hget_hset, if_neg fun he => bucket_ne_numbered _ _ _ _ _ he.1.symm]
    exact hget₁ _ _
  have hne : ∀ row ∈ rows, row.2 ≠ id := fun row hrow => ((h.given row hrow).trans_lt hlt).ne
  refine ⟨?_, fun row hrow => ?_, fun row hrow => ?_, fun row hrow => ?_, ?_⟩
  · have hput := (h.spread.congr fun a i field => hget₁ _ field).put chain_inj (by decide) hp
    refine hput.congr fun a i field => ?_
    rw [thirdKey, hget_chain_hset, uinfoKey, hget_chain_hset, baseKey, hget_chain_hset]
  · rcases List.mem_cons.1 hrow with rfl | hrow
    · simp [hget_hset, baseKey, uinfoKey, thirdKey, numbered_inj, Registration.argv]
    · have hrepr : row.2.repr ≠ id.repr := fun he => hne row hrow (Nat.repr_injective he)
      simp only [hget_hset, hrepr, and_false, if_false]
      exact (hget₂ _ _ _).trans (h.base row hrow)
  · rcases List.mem_cons.1 hrow with rfl | hrow
    · simp [hget_hset, uinfoKey, thirdKey, numbered_inj, Registration.argv]
    · have hrepr : row.2.repr ≠ id.repr := fun he => hne row hrow (Nat.repr_injective he)
      simp only [hget_hset, hrepr, and_false, if_false]
      exact (hget₂ _ _ _).trans (h.uinfo row hrow)
  · have hcount : counter r₂ = id := by
      obtain ⟨j, -, rfl, -⟩ := Buckets.put_cases hp
      exact (counter_take r x.uname).trans hid.symm
    show row.2 ≤ counter r₂
    rw [hcount]
    rcases List.mem_cons.1 hrow with rfl | hrow
    · exact le_rfl
    · exact (h.given row hrow).trans hlt.le
  · refine List.nodup_cons.2 ⟨fun hid => ?_, h.ids⟩
    obtain ⟨row, hrow, he⟩ := List.mem_map.1 hid
    exact hne row hrow he

/-- **A registration comes to an end.** -/
theorem Kept.register3rd_returns (h : Kept J r rows) (x : Registration β υ τ) :
    ∃ r' id, Returns (Account.register3rd r (x.argv J)) (r', id) := by
  have hspread := h.spread.congr fun a i field => show (take r x.uname).1.hget
    (chain a i) field = _ by
    rw [Store.hget, hashes_take, Store.hget]
  obtain ⟨N, hN⟩ := (hspread.chained (x.name, x.h % maxblock)).put_returns
    (by decide : 0 < maxsize) x.uid (take r x.uname).2.repr
  obtain ⟨⟨r', id⟩, hr⟩ := Option.isSome_iff_exists.1
    (Option.isSome_map.trans (hN N le_rfl) : (Account.register3rd r (x.argv J) N).isSome = true)
  exact ⟨r', id, N, fun n hn => register3rd_of_le hn hr⟩

/-- **A sequence of registrations comes to an end**, and the store keeps them all. -/
theorem Kept.registerAll (h : Kept J r rows) (xs : List (Registration β υ τ)) :
    ∃ r' ids, Returns (fun n => Account.registerAll J n r xs) (r', ids) ∧
      ids.length = xs.length ∧ Kept J r' ((xs.zip ids).reverse ++ rows) := by
  induction xs generalizing r rows with
  | nil => exact ⟨r, [], ⟨0, fun _ _ => rfl⟩, rfl, h⟩
  | cons x xs ih =>
      obtain ⟨r₁, id, N, hN⟩ := h.register3rd_returns x
      obtain ⟨r', ids, hr', hlen, hkept⟩ := ih (h.register3rd (hN N le_rfl))
      refine ⟨r', id :: ids, Returns.bind ⟨N, hN⟩ (hr'.map fun s => (s.1, id :: s.2)), ?_, ?_⟩
      · rw [List.length_cons, List.length_cons, hlen]
      · rw [List.zip_cons_cons, List.reverse_cons, List.append_assoc]
        exact hkept

/-! ### What a lookup returns -/

/-- **An identity that was registered once is found.** -/
theorem Kept.query3rd (h : Kept J r rows) (hx : (x, id) ∈ rows)
    (hone : (rows.map fun row => row.1.pair).Nodup) :
    Returns (Account.query3rd r x.name x.uid x.h)
      (.values id.repr (some (J.base.enc x.base)) (some (J.uinfo.enc x.uinfo))) := by
  have hrow : filed (x, id) ∈ rows.map filed := List.mem_map_of_mem hx
  have hunique : ∀ v, ((x.name, x.h % maxblock), x.uid, v) ∈ rows.map filed → v = id.repr := by
    intro v hv
    obtain ⟨row, hmem, he⟩ := List.mem_map.1 hv
    obtain ⟨hchain, he⟩ := Prod.mk.inj he
    obtain ⟨huid, hv⟩ := Prod.mk.inj he
    have hpair : row.1.pair = x.pair := Prod.ext (Prod.mk.inj hchain).1 huid
    rw [← hv, List.inj_on_of_nodup_map hone hmem hx hpair]
  obtain ⟨N, hN⟩ := h.spread.find_of_mem hrow hunique
  refine ⟨N, fun n hn => ?_⟩
  rw [Account.query3rd, hN n hn, Option.map_some]
  simp only [Nat.toNat?_repr]
  rw [h.base _ hx, h.uinfo _ hx]

/-- **An identity that was not registered is not found.** -/
theorem Kept.query3rd_unknown (h : Kept J r rows) {name uid : String}
    (hno : (name, uid) ∉ rows.map fun row => row.1.pair) (hash : ℕ) :
    Returns (Account.query3rd r name uid hash) .nil := by
  obtain ⟨N, hN⟩ := h.spread.find_of_notMem (a := (name, hash % maxblock))
    (fun v (hv : (_, uid, v) ∈ _) => by
      obtain ⟨row, hmem, he⟩ := List.mem_map.1 hv
      obtain ⟨hchain, he⟩ := Prod.mk.inj he
      exact hno (List.mem_map.2 ⟨row, hmem, Prod.ext (Prod.mk.inj hchain).1 (Prod.mk.inj he).1⟩))
  refine ⟨N, fun n hn => ?_⟩
  rw [Account.query3rd, hN n hn, Option.map_some]

end Keeping

/-- **Every identity is found with its own account, and no other identity is**: for a sequence of
registrations of different identities, with hashes of any kind, the scripts return, the numbers are
different, and a lookup with the same hash answers the number and the records of the identity; a
lookup of another identity answers nothing. -/
theorem query3rd_registered {β υ τ : Type} (J : Json β υ τ) (xs : List (Registration β υ τ))
    (hone : (xs.map Registration.pair).Nodup) :
    ∃ r ids, Returns (fun n => registerAll J n {} xs) (r, ids) ∧
    ids.length = xs.length ∧ ids.Nodup ∧
      (∀ x id, (x, id) ∈ xs.zip ids →
        Returns (fun n => (query3rd r x.name x.uid x.h n).map (answer J))
        (.found id x.base x.uinfo)) ∧
      ∀ name uid h, (name, uid) ∉ xs.map Registration.pair →
        Returns (fun n => (query3rd r name uid h n).map (answer J)) .nothing := by
  obtain ⟨r, ids, hrun, hlen, hkept⟩ := kept_empty (J := J).registerAll xs
  rw [List.append_nil] at hkept
  have hpairs : ((xs.zip ids).map fun row => row.1.pair) = xs.map Registration.pair := by
    have hfst := congrArg (List.map Registration.pair) (List.map_fst_zip hlen.ge)
    rw [List.map_map] at hfst
    exact hfst
  refine ⟨r, ids, hrun, hlen, ?_, fun x id hx => ?_, fun name uid h hno => ?_⟩
  · have hids := hkept.ids
    rw [List.map_reverse, List.nodup_reverse, List.map_snd_zip hlen.le] at hids
    exact hids
  · have hq := (hkept.query3rd (List.mem_reverse.2 hx) (by
      rw [List.map_reverse, List.nodup_reverse, hpairs]
      exact hone)).map (answer J)
    simpa [answer, J.base.dec_enc, J.uinfo.dec_enc] using hq
  · have hnew : (name, uid) ∉ (xs.zip ids).reverse.map fun row => row.1.pair := by
      rw [List.map_reverse, List.mem_reverse, hpairs]
      exact hno
    have hq := (hkept.query3rd_unknown hnew h).map (answer J)
    exact hq

/-- So many identities with one hash. -/
def crowd (n : ℕ) : List (Registration ℕ ℕ ℕ) :=
  (List.range n).map fun k => ⟨"guest", k.repr, 7, k.repr, k, k, k⟩

theorem pairs_crowd (n : ℕ) :
    (crowd n).map Registration.pair = (List.range n).map fun k => ("guest", k.repr) := by
  rw [crowd, List.map_map]
  rfl

theorem nodup_crowd (n : ℕ) : ((crowd n).map Registration.pair).Nodup := by
  rw [pairs_crowd]
  exact List.nodup_range.map fun k k' h => Nat.repr_injective (Prod.mk.inj h).2

theorem notMem_crowd {n m : ℕ} (h : n ≤ m) :
    ("guest", m.repr) ∉ (crowd n).map Registration.pair := by
  rw [pairs_crowd]
  intro hm
  obtain ⟨k, hk, he⟩ := List.mem_map.1 hm
  obtain rfl := Nat.repr_injective (Prod.mk.inj he).2
  exact absurd (List.mem_range.1 hk) (Nat.not_lt.2 h)

/-- One identity more than a bucket has room for. -/
theorem query3rd_registered_crowd :
    ∃ r ids, Returns
    (fun n => registerAll ⟨Codec.nat, Codec.nat, Codec.nat⟩ n {} (crowd (maxsize + 1))) (r, ids) ∧
      ids.length = maxsize + 1 ∧ ids.Nodup ∧
      (∀ x id, (x, id) ∈ (crowd (maxsize + 1)).zip ids →
        Returns (fun n => (query3rd r x.name x.uid x.h n).map
          (answer (⟨Codec.nat, Codec.nat, Codec.nat⟩ : Json ℕ ℕ ℕ))) (.found id x.base x.uinfo)) ∧
      Returns (fun n => (query3rd r "guest" (maxsize + 1).repr 7 n).map
        (answer (⟨Codec.nat, Codec.nat, Codec.nat⟩ : Json ℕ ℕ ℕ))) .nothing := by
  obtain ⟨r, ids, hrun, hlen, hnodup, hfound, hnothing⟩ :=
    query3rd_registered ⟨Codec.nat, Codec.nat, Codec.nat⟩ (crowd (maxsize + 1)) (nodup_crowd _)
  rw [crowd, List.length_map, List.length_range] at hlen
  exact ⟨r, ids, hrun, hlen, hnodup, hfound, hnothing _ _ _ (notMem_crowd le_rfl)⟩

end Halieutics.Account
