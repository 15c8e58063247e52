/-
**Sorted sets.**

A sorted set of a Redis store gives every member a score; the members stand in the order of their
scores, and members with the same score in their own order.  A member is found by its rank, from the
first one on, or with a negative rank from the last one on.

The order and the members' being different are part of the type.

Main definitions:

* `Redis.SortedSet` — a sorted set, and `Redis.SortedSet.members`, `Redis.SortedSet.zcard`;
* `Redis.SortedSet.zadd`, `Redis.SortedSet.zremrangebyrank`, `Redis.SortedSet.zrevrange` — the
  commands.

Main results:

* `Redis.SortedSet.mem_zadd`, `Redis.SortedSet.zcard_zadd` — **what `ZADD` changes**;
* `Redis.SortedSet.mem_removeLast` — **the range from `-1` to `-1` is the entry with the highest
  score**.
-/

import Mathlib

set_option relaxedAutoImplicit false
set_option autoImplicit false

namespace Redis

/-- A sorted set: its entries with their scores, the lowest first. -/
structure SortedSet (α : Type) [LinearOrder α] where
  entries : List (ℕ ×ₗ α) := []
  sorted : entries.Pairwise (· < ·) := by exact List.Pairwise.nil
  nodup : (entries.map fun e => (ofLex e).2).Nodup := by exact List.nodup_nil

namespace SortedSet

variable {α : Type} [LinearOrder α]

def members (z : SortedSet α) : List α := z.entries.map fun e => (ofLex e).2

/-- `ZCARD`. -/
def zcard (z : SortedSet α) : ℕ := z.entries.length

/-- The entries of the members other than `m`. -/
def others (z : SortedSet α) (m : α) : List (ℕ ×ₗ α) := z.entries.filter fun e => (ofLex e).2 ≠ m

/-- The entries of others with a new entry in its place. -/
def place (es : List (ℕ ×ₗ α)) (e : ℕ ×ₗ α) : List (ℕ ×ₗ α) :=
  es.filter (· < e) ++ e :: es.filter (e < ·)

/-! ### An entry in its place -/

section Place

variable {es : List (ℕ ×ₗ α)} {e : ℕ ×ₗ α}

theorem pairwise_place (h : es.Pairwise (· < ·)) : (place es e).Pairwise (· < ·) := by
  refine List.pairwise_append.2 ⟨h.filter _, List.pairwise_cons.2 ⟨fun a ha => ?_, h.filter _⟩, ?_⟩
  · simpa using (List.mem_filter.1 ha).2
  · intro a ha b hb
    have hae : a < e := by simpa using (List.mem_filter.1 ha).2
    rcases List.mem_cons.1 hb with rfl | hb
    · exact hae
    · exact hae.trans (by simpa using (List.mem_filter.1 hb).2)

/-- Nothing is lost. -/
theorem place_perm (h : e ∉ es) : (place es e).Perm (e :: es) := by
  have hgt : es.filter (e < ·) = es.filter fun a => ! decide (a < e) := by
    refine List.filter_congr fun a ha => ?_
    have hne : a ≠ e := fun he => h (he ▸ ha)
    simp only [← decide_not, not_lt, decide_eq_decide]
    exact ⟨le_of_lt, fun hle => lt_of_le_of_ne hle hne.symm⟩
  have hperm := List.filter_append_perm (fun a => decide (a < e)) es
  rw [← hgt] at hperm
  exact List.perm_middle.trans (hperm.cons e)

end Place

variable {z : SortedSet α} {m : α}

theorem mem_others {e : ℕ ×ₗ α} : e ∈ z.others m ↔ e ∈ z.entries ∧ (ofLex e).2 ≠ m := by
  simp [others]

theorem notMem_others (score : ℕ) : toLex (score, m) ∉ z.others m := fun h => (mem_others.1 h).2 rfl

/-- The members other than `m`. -/
theorem map_others : (z.others m).map (fun e => (ofLex e).2) = z.members.erase m := by
  rw [members, z.nodup.erase_eq_filter, List.filter_map, others]
  refine congrArg (List.map fun e : ℕ ×ₗ α => (ofLex e).2) (List.filter_congr fun e _ => ?_)
  simp only [Function.comp_apply, ne_eq, decide_not, bne]
  rw [beq_eq_decide]

/-! ### The commands -/

/-- `ZADD`, of one member. -/
def zadd (z : SortedSet α) (score : ℕ) (m : α) : SortedSet α where
  entries := place (z.others m) (toLex (score, m))
  sorted := pairwise_place (z.sorted.filter _)
  nodup := by
    refine ((place_perm (notMem_others score)).map _).nodup_iff.2 ?_
    rw [List.map_cons, map_others]
    exact List.nodup_cons.2 ⟨List.Nodup.not_mem_erase z.nodup, z.nodup.erase m⟩

/-- Where a range of ranks begins among `n` entries, and how many entries it has. -/
def range (n : ℕ) (start stop : ℤ) : ℕ × ℕ :=
  let start := (if start < 0 then n + start else start).toNat
  let stop := if stop < 0 then n + stop else stop
  (start, (stop + 1 - start).toNat)

/-- `ZREMRANGEBYRANK`. -/
def zremrangebyrank (z : SortedSet α) (start stop : ℤ) : SortedSet α :=
  let r := range z.zcard start stop
  have hsub : (z.entries.take r.1 ++ z.entries.drop (r.1 + r.2)).Sublist z.entries := by
    have hdrop := (List.drop_sublist_drop_left z.entries (Nat.le_add_right r.1 r.2)).append_left
      (z.entries.take r.1)
    rwa [List.take_append_drop] at hdrop
  { entries := z.entries.take r.1 ++ z.entries.drop (r.1 + r.2)
    sorted := z.sorted.sublist hsub
    nodup := z.nodup.sublist (hsub.map _) }

/-- `ZREVRANGE`. -/
def zrevrange (z : SortedSet α) (start stop : ℤ) : List α :=
  let r := range z.zcard start stop
  (z.members.reverse.drop r.1).take r.2

/-! ### What they change -/

/-- **The entries after `ZADD`.** -/
theorem mem_zadd {score : ℕ} {e : ℕ ×ₗ α} :
    e ∈ (z.zadd score m).entries ↔ e = toLex (score, m) ∨ e ∈ z.entries ∧ (ofLex e).2 ≠ m := by
  rw [zadd, (place_perm (notMem_others score)).mem_iff, List.mem_cons, mem_others]

/-- **`ZADD` adds one entry**, unless the member is there. -/
theorem zcard_zadd (score : ℕ) :
    (z.zadd score m).zcard = if m ∈ z.members then z.zcard else z.zcard + 1 := by
  have hlen : (z.others m).length = (z.members.erase m).length := by
    rw [← map_others, List.length_map]
  have hcard : z.members.length = z.zcard := List.length_map _
  rw [zcard, zadd, (place_perm (notMem_others score)).length_eq, List.length_cons, hlen]
  split
  · rename_i hm
    rw [List.length_erase_of_mem hm, hcard]
    have := List.length_pos_of_mem hm
    omega
  · rename_i hm
    rw [List.erase_of_not_mem hm, hcard]

/-- The range from `-1` to `-1` is the last entry. -/
theorem entries_removeLast (z : SortedSet α) :
    (z.zremrangebyrank (-1) (-1)).entries = z.entries.dropLast := by
  have hr : range z.zcard (-1) (-1) = (z.zcard - 1, z.zcard - (z.zcard - 1)) := by
    simp only [range, Int.reduceNeg, Int.reduceLT, if_true, Prod.mk.injEq]
    omega
  simp only [zremrangebyrank, hr]
  rw [List.drop_eq_nil_of_le (by rw [zcard]; omega), List.append_nil, List.dropLast_eq_take, zcard]

theorem zcard_removeLast (z : SortedSet α) : (z.zremrangebyrank (-1) (-1)).zcard = z.zcard - 1 := by
  rw [zcard, entries_removeLast, List.length_dropLast, zcard]

/-- The last entry stands behind every other. -/
theorem lt_getLast (hne : z.entries ≠ []) {e : ℕ ×ₗ α} (he : e ∈ z.entries)
    (hlast : e ≠ z.entries.getLast hne) : e < z.entries.getLast hne := by
  have hsorted := z.sorted
  rw [← List.dropLast_append_getLast hne] at hsorted
  exact (List.pairwise_append.1 hsorted).2.2 e (List.mem_dropLast_of_mem_of_ne_getLast he hlast) _
    (List.mem_singleton.2 rfl)

/-- **The range from `-1` to `-1` is the entry with the highest score**: the entries that stay are
those with an entry behind them. -/
theorem mem_removeLast {e : ℕ ×ₗ α} : e ∈ (z.zremrangebyrank (-1) (-1)).entries ↔
    e ∈ z.entries ∧ ∃ e' ∈ z.entries, e < e' := by
  rw [z.entries_removeLast]
  constructor
  · intro he
    have hmem := List.mem_of_mem_dropLast he
    have hne := List.ne_nil_of_mem hmem
    refine ⟨hmem, _, List.getLast_mem hne, z.lt_getLast hne hmem fun heq => ?_⟩
    have hnodup := z.sorted.imp fun {a b} => ne_of_lt (a := a) (b := b)
    rw [← List.dropLast_append_getLast hne] at hnodup
    exact (List.pairwise_append.1 hnodup).2.2 e he _ (List.mem_singleton.2 rfl) heq
  · rintro ⟨he, e', he', hlt⟩
    have hne := List.ne_nil_of_mem he
    refine List.mem_dropLast_of_mem_of_ne_getLast he fun heq => ?_
    by_cases hlast : e' = z.entries.getLast hne
    · exact absurd (hlast.trans heq.symm) hlt.ne'
    · exact lt_asymm hlt (heq ▸ z.lt_getLast hne he' hlast)

/-- All entries, the highest score first. -/
theorem zrevrange_all (z : SortedSet α) : z.zrevrange 0 (-1) = z.members.reverse := by
  have hr : range z.zcard 0 (-1) = (0, z.zcard) := by
    simp only [range, Int.reduceNeg, Int.reduceLT, lt_self_iff_false, if_true, if_false,
      Int.toNat_zero,
      Prod.mk.injEq, true_and]
    omega
  simp only [zrevrange, hr, List.drop_zero]
  rw [List.take_of_length_le]
  rw [List.length_reverse]
  exact (List.length_map _).le

end SortedSet

end Redis
