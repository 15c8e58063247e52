/-
**A Redis store.**

A program that keeps its data in Redis names them by strings it builds itself, and nothing but these
names keeps one record apart from another.  This module fixes a store with its four kinds of values,
the commands a program sends to it, and what names of the form `prefix:number:suffix` have in
common: two of them are equal exactly if they agree in number and suffix.

A key of a store has a value of one kind only.  Here every kind has a name space of its own, and
`del` clears a name in all of them; a program that uses no name for two kinds cannot see the
difference.

Main definitions:

* `Redis.Store` — a store;
* `Redis.Store.set`, `Redis.Store.sadd`, `Redis.Store.hset`, `Redis.Store.lpush`, `Redis.Store.del`,
  … — the commands;
* `Redis.numbered` — a name with a number in it;
* `Redis.Codec` — an encoding of values as strings.

Main results:

* `Redis.numbered_inj`, `Redis.numbered_ne` — **names with numbers do not collide**;
* `Redis.lookup_hset`, `Redis.lookup_hdel`, … — reading after writing.
-/

import Halieutics.LuaTable

set_option relaxedAutoImplicit false
set_option autoImplicit false

namespace Redis

open LuaTable

/-! ### Stores and commands -/

/-- A store.  A hash and a set without members do not exist. -/
structure Store where
  strings : String → Option String := fun _ => none
  hashes : String → Table String String := fun _ => ∅
  lists : String → List String := fun _ => []
  sets : String → Table String Unit := fun _ => ∅

namespace Store

/-- `SET`. -/
def set (r : Store) (key v : String) : Store :=
  { r with strings := Function.update r.strings key (some v) }

/-- `SETNX`. -/
def setnx (r : Store) (key v : String) : Store :=
  if (r.strings key).isSome then r else r.set key v

/-- `INCR`, with its answer. -/
def incr (r : Store) (key : String) : Store × ℕ :=
  let n := ((r.strings key).bind String.toNat?).getD 0 + 1
  (r.set key n.repr, n)

/-- `SADD`. -/
def sadd (r : Store) (key m : String) : Store :=
  { r with sets := Function.update r.sets key ((r.sets key).insert m ()) }

/-- `SREM`. -/
def srem (r : Store) (key m : String) : Store :=
  { r with sets := Function.update r.sets key ((r.sets key).erase m) }

/-- `SMEMBERS`. -/
def smembers (r : Store) (key : String) : List String := (r.sets key).keys

/-- `HSET`. -/
def hset (r : Store) (key field v : String) : Store :=
  { r with hashes := Function.update r.hashes key ((r.hashes key).insert field v) }

/-- `HDEL`. -/
def hdel (r : Store) (key field : String) : Store :=
  { r with hashes := Function.update r.hashes key ((r.hashes key).erase field) }

/-- `HGET`. -/
def hget (r : Store) (key field : String) : Option String := (r.hashes key).lookup field

/-- `HLEN`. -/
def hlen (r : Store) (key : String) : ℕ := (r.hashes key).keys.length

/-- `EXISTS`, of a name for hashes. -/
def hashExists (r : Store) (key : String) : Bool := decide (0 < r.hlen key)

/-- `LPUSH`: the new element becomes the first one. -/
def lpush (r : Store) (key v : String) : Store :=
  { r with lists := Function.update r.lists key (v :: r.lists key) }

/-- `DEL`. -/
def del (r : Store) (key : String) : Store where
  strings := Function.update r.strings key none
  hashes := Function.update r.hashes key ∅
  lists := Function.update r.lists key []
  sets := Function.update r.sets key ∅

end Store

/-! ### Reading after writing -/

section Commands

variable (r : Store) (key key' field v m : String)

@[simp] theorem hashes_set : (r.set key v).hashes = r.hashes := rfl

@[simp] theorem lists_set : (r.set key v).lists = r.lists := rfl

@[simp] theorem hashes_setnx : (r.setnx key v).hashes = r.hashes := by
  unfold Store.setnx
  split <;> rfl

@[simp] theorem hashes_incr : (r.incr key).1.hashes = r.hashes := rfl

@[simp] theorem lists_incr : (r.incr key).1.lists = r.lists := rfl

@[simp] theorem hashes_sadd : (r.sadd key m).hashes = r.hashes := rfl

@[simp] theorem lists_sadd : (r.sadd key m).lists = r.lists := rfl

@[simp] theorem hashes_srem : (r.srem key m).hashes = r.hashes := rfl

@[simp] theorem lists_srem : (r.srem key m).lists = r.lists := rfl

@[simp] theorem lists_hset : (r.hset key field v).lists = r.lists := rfl

@[simp] theorem lists_hdel : (r.hdel key field).lists = r.lists := rfl

@[simp] theorem hashes_lpush : (r.lpush key v).hashes = r.hashes := rfl

@[simp] theorem sets_hset : (r.hset key field v).sets = r.sets := rfl

@[simp] theorem sets_hdel : (r.hdel key field).sets = r.sets := rfl

@[simp] theorem sets_set : (r.set key v).sets = r.sets := rfl

@[simp] theorem sets_incr : (r.incr key).1.sets = r.sets := rfl

@[simp] theorem sets_lpush : (r.lpush key v).sets = r.sets := rfl

@[simp] theorem strings_sadd : (r.sadd key m).strings = r.strings := rfl

@[simp] theorem strings_srem : (r.srem key m).strings = r.strings := rfl

@[simp] theorem strings_hset : (r.hset key field v).strings = r.strings := rfl

@[simp] theorem strings_hdel : (r.hdel key field).strings = r.strings := rfl

@[simp] theorem strings_lpush : (r.lpush key v).strings = r.strings := rfl

theorem strings_set : (r.set key v).strings key' =
    if key' = key then some v else r.strings key' := Function.update_apply ..

theorem strings_del : (r.del key).strings key' = if key' = key then none else r.strings key' :=
  Function.update_apply ..

theorem sets_del : (r.del key).sets key' = if key' = key then ∅ else r.sets key' :=
  Function.update_apply ..

theorem sets_sadd : (r.sadd key m).sets key' =
    if key' = key then (r.sets key).insert m () else r.sets key' := Function.update_apply ..

theorem sets_srem : (r.srem key m).sets key' =
    if key' = key then (r.sets key).erase m else r.sets key' := Function.update_apply ..

theorem hashes_hset : (r.hset key field v).hashes key' =
    if key' = key then (r.hashes key).insert field v else r.hashes key' := Function.update_apply ..

theorem hashes_hdel : (r.hdel key field).hashes key' =
    if key' = key then (r.hashes key).erase field else r.hashes key' := Function.update_apply ..

theorem hashes_del : (r.del key).hashes key' = if key' = key then ∅ else r.hashes key' :=
  Function.update_apply ..

theorem lists_lpush : (r.lpush key v).lists key' =
    if key' = key then v :: r.lists key else r.lists key' := Function.update_apply ..

theorem lists_del : (r.del key).lists key' = if key' = key then [] else r.lists key' :=
  Function.update_apply ..

theorem hget_hset (field' : String) : (r.hset key field v).hget key' field' =
    if key' = key ∧ field' = field then some v else r.hget key' field' := by
  rw [Store.hget, hashes_hset, Store.hget]
  by_cases hk : key' = key
  · rw [if_pos hk, lookup_insert_eq, hk]
    simp only [true_and]
  · rw [if_neg hk, if_neg fun h => hk h.1]

/-- A hash exists exactly if it has a field. -/
theorem hashExists_iff : r.hashExists key = true ↔ ∃ field v, r.hget key field = some v := by
  rw [Store.hashExists, Store.hlen, decide_eq_true_eq, List.length_pos_iff_exists_mem]
  refine exists_congr fun field => ?_
  rw [Store.hget, ← lookup_isSome_iff_mem_keys, Option.isSome_iff_exists]

end Commands

/-- Deleting several names. -/
theorem hashes_foldl_del (r : Store) (keys : List String) (key : String) :
    (keys.foldl Store.del r).hashes key = if key ∈ keys then ∅ else r.hashes key := by
  induction keys generalizing r with
  | nil => simp
  | cons k keys ih =>
      rw [List.foldl_cons, ih, hashes_del]
      by_cases h : key = k <;> simp [h]

theorem lists_foldl_del (r : Store) (keys : List String) (key : String) :
    (keys.foldl Store.del r).lists key = if key ∈ keys then [] else r.lists key := by
  induction keys generalizing r with
  | nil => simp
  | cons k keys ih =>
      rw [List.foldl_cons, ih, lists_del]
      by_cases h : key = k <;> simp [h]

theorem strings_foldl_del (r : Store) (keys : List String) (key : String) :
    (keys.foldl Store.del r).strings key = if key ∈ keys then none else r.strings key := by
  induction keys generalizing r with
  | nil => simp
  | cons k keys ih =>
      rw [List.foldl_cons, ih, strings_del]
      by_cases h : key = k <;> simp [h]

theorem sets_foldl_del (r : Store) (keys : List String) (key : String) :
    (keys.foldl Store.del r).sets key = if key ∈ keys then ∅ else r.sets key := by
  induction keys generalizing r with
  | nil => simp
  | cons k keys ih =>
      rw [List.foldl_cons, ih, sets_del]
      by_cases h : key = k <;> simp [h]

/-- Pushing several elements. -/
theorem lists_foldl_lpush (r : Store) (vs : List String) (key key' : String) :
    (vs.foldl (fun r v => r.lpush key v) r).lists key' =
      if key' = key then vs.reverse ++ r.lists key else r.lists key' := by
  induction vs generalizing r with
  | nil => split <;> simp_all
  | cons v vs ih =>
      rw [List.foldl_cons, ih, lists_lpush, lists_lpush, if_pos rfl]
      split <;> simp

theorem hashes_foldl_lpush (r : Store) (vs : List String) (key : String) :
    (vs.foldl (fun r v => r.lpush key v) r).hashes = r.hashes := by
  induction vs generalizing r with
  | nil => rfl
  | cons v vs ih => rw [List.foldl_cons, ih, hashes_lpush]

theorem strings_foldl_lpush (r : Store) (vs : List String) (key : String) :
    (vs.foldl (fun r v => r.lpush key v) r).strings = r.strings := by
  induction vs generalizing r with
  | nil => rfl
  | cons v vs ih => rw [List.foldl_cons, ih, strings_lpush]

theorem sets_foldl_lpush (r : Store) (vs : List String) (key : String) :
    (vs.foldl (fun r v => r.lpush key v) r).sets = r.sets := by
  induction vs generalizing r with
  | nil => rfl
  | cons v vs ih => rw [List.foldl_cons, ih, sets_lpush]

/-! ### Names -/

/-- The name `pre:n:suf`. -/
def numbered (pre : String) (n : ℕ) (suf : String) : String := pre ++ ":" ++ n.repr ++ ":" ++ suf

/-- A numeral has no colon. -/
theorem colon_notMem_repr (n : ℕ) : ':' ∉ n.repr.toList := by
  intro h
  rw [Nat.toList_repr] at h
  exact absurd (Nat.isDigit_of_mem_toDigits (by decide) (by decide) h) (by decide)

/-- What stands in front of the first colon. -/
theorem append_colon_inj {l l' r r' : List Char} (hl : ':' ∉ l) (hl' : ':' ∉ l')
    (h : l ++ ':' :: r = l' ++ ':' :: r') : l = l' ∧ r = r' := by
  induction l generalizing l' with
  | nil =>
      cases l' with
      | nil => exact ⟨rfl, (List.cons.inj h).2⟩
      | cons c l' => exact absurd (List.mem_cons.2 (Or.inl (List.cons.inj h).1)) hl'
  | cons c l ih =>
      cases l' with
      | nil => exact absurd (List.mem_cons.2 (Or.inl (List.cons.inj h).1.symm)) hl
      | cons c' l' =>
          obtain ⟨rfl, ht⟩ := List.cons.inj h
          obtain ⟨rfl, rfl⟩ := ih (fun hm => hl (List.mem_cons_of_mem c hm))
            (fun hm => hl' (List.mem_cons_of_mem c hm)) ht
          exact ⟨rfl, rfl⟩

/-- **Names with numbers do not collide.** -/
theorem numbered_inj {pre suf suf' : String} {n n' : ℕ} :
    numbered pre n suf = numbered pre n' suf' ↔ n = n' ∧ suf = suf' := by
  constructor
  · intro h
    have h' := congrArg String.toList h
    simp only [numbered, String.toList_append, List.append_assoc, List.append_cancel_left_eq] at h'
    obtain ⟨hn, hs⟩ := append_colon_inj (colon_notMem_repr n) (colon_notMem_repr n') h'
    exact ⟨Nat.repr_injective (String.toList_inj.1 hn), String.toList_inj.1 hs⟩
  · rintro ⟨rfl, rfl⟩
    rfl

/-- Nor with names that have something else in this place. -/
theorem numbered_ne (pre : String) {suf s : String} {n : ℕ} {c : Char}
    (hs : s.toList.head? = some c)
    (hc : c.isDigit = false) : numbered pre n suf ≠ pre ++ ":" ++ s := by
  intro h
  have h' := congrArg String.toList h
  simp only [numbered, String.toList_append, List.append_assoc, List.append_cancel_left_eq] at h'
  rw [← h'] at hs
  have hne : n.repr.toList ≠ [] := by
    rw [Nat.toList_repr]
    exact Nat.toDigits_ne_nil
  rw [List.head?_append_of_ne_nil _ hne] at hs
  have hmem : c ∈ n.repr.toList := List.mem_of_mem_head? hs
  rw [Nat.toList_repr] at hmem
  rw [Nat.isDigit_of_mem_toDigits (by decide) (by decide) hmem] at hc
  cases hc

/-! ### Values -/

/-- An encoding of values as strings. -/
structure Codec (α : Type) where
  enc : α → String
  dec : String → Option α
  dec_enc : ∀ a, dec (enc a) = some a

/-- Numbers are encoded in decimal. -/
def Codec.nat : Codec ℕ := ⟨Nat.repr, String.toNat?, Nat.toNat?_repr⟩

/-- Strings one after the other: a dot stands before every character, and a semicolon behind every
string. -/
def encStrings : List (List Char) → List Char
  | [] => []
  | [] :: ss => ';' :: encStrings ss
  | (c :: s) :: ss => '.' :: c :: encStrings (s :: ss)

/-- Reading them back. -/
def decStrings : List Char → Option (List (List Char))
  | [] => some []
  | [_] => some [[]]
  | c :: c' :: l =>
      if c = ';' then (decStrings (c' :: l)).map fun ss => [] :: ss
      else (decStrings l).map fun
        | [] => []
        | s :: ss => (c' :: s) :: ss

theorem decStrings_encStrings (ss : List (List Char)) : decStrings (encStrings ss) = some ss := by
  fun_induction encStrings ss with
  | case1 => rfl
  | case2 ss ih =>
      cases h : encStrings ss with
      | nil =>
          rw [h] at ih
          obtain rfl : [] = ss := Option.some.inj ih
          rfl
      | cons c l =>
          rw [decStrings, if_pos rfl, ← h, ih]
          rfl
  | case3 c s ss ih =>
      rw [decStrings, if_neg (by decide), ih]
      rfl

/-- Lists of strings. -/
def Codec.strings : Codec (List String) where
  enc ss := String.ofList (encStrings (ss.map String.toList))
  dec s := (decStrings s.toList).map fun ss => ss.map String.ofList
  dec_enc ss := by simp [decStrings_encStrings, Function.comp_def]

/-- Values that are encoded through others. -/
def Codec.via {α β : Type} (c : Codec β) (f : α → β) (g : β → Option α)
    (h : ∀ a, g (f a) = some a) : Codec α where
  enc a := c.enc (f a)
  dec s := (c.dec s).bind g
  dec_enc a := by rw [c.dec_enc, Option.bind_some, h]

end Redis
