/-
**Growing ring buffers are queues.**

The usual queue of a C program is an array with a `head` and a `tail` index that wrap around at the
capacity.  The slot at `tail` is always kept free, so that `head = tail` can mean *empty*; when a
push would use it up, the elements are moved to the front of an array of twice the size.

This module keeps the bounds on the two indices inside the type, so that an index outside the array
cannot be written down, and shows that the buffer is a list that grows at its end and shrinks at
its beginning.

Main definitions:

* `RingQueue.Queue` — the buffer with its two indices;
* `RingQueue.Queue.push`, `RingQueue.Queue.pop`, `RingQueue.Queue.drain` — the operations;
* `RingQueue.Queue.tryPush` — a push that fails when the array would become too large;
* `RingQueue.Queue.toList` — the elements, from the oldest on.

Main results:

* `RingQueue.Queue.toList_push` — **a push appends, also when the buffer grows**;
* `RingQueue.Queue.tryPush_of_room`, `RingQueue.Queue.Within.size_lt` — a push succeeds as long as
  few elements wait, and **an array that doubles holds no more than the largest power of two
  allows**;
* `RingQueue.Queue.toList_of_pop`, `RingQueue.Queue.drain_spec` — **a pop takes the oldest
  element**, and draining takes them all.
-/

import Mathlib

set_option relaxedAutoImplicit false
set_option autoImplicit false

namespace RingQueue

variable {α : Type}

/-- A ring buffer: the slots `0 … cap - 1` of `buffer`, filled from `head` up to `tail`. -/
structure Queue (α : Type) where
  cap : ℕ
  head : ℕ
  tail : ℕ
  buffer : ℕ → α
  head_lt : head < cap
  tail_lt : tail < cap

namespace Queue

/-- The empty queue over an array of `cap` slots that nobody has written. -/
def init [Inhabited α] (cap : ℕ) (h : 0 < cap) : Queue α :=
  { cap := cap, head := 0, tail := 0, buffer := fun _ => default, head_lt := h, tail_lt := h }

/-- The index after `i`. -/
def next (q : Queue α) (i : ℕ) : ℕ := if q.cap ≤ i + 1 then 0 else i + 1

theorem next_lt (q : Queue α) (i : ℕ) : q.next i < q.cap := by
  have h := q.head_lt
  unfold next
  split <;> omega

/-- No element is left. -/
def empty (q : Queue α) : Bool := q.head == q.tail

/-- The oldest element and the queue without it. -/
def pop (q : Queue α) : Option (α × Queue α) :=
  if q.head = q.tail then none
  else some (q.buffer q.head, { q with head := q.next q.head, head_lt := q.next_lt q.head })

/-- The array of twice the size: the elements of the old one from `head` on, and `value` in the
last slot of its first half. -/
def grow (q : Queue α) (value : α) : Queue α where
  cap := q.cap * 2
  head := 0
  tail := q.cap
  buffer := Function.update (fun i => q.buffer ((q.head + i) % q.cap)) (q.cap - 1) value
  head_lt := by have h := q.head_lt; omega
  tail_lt := by have h := q.head_lt; omega

/-- A new youngest element. -/
def push (q : Queue α) (value : α) : Queue α :=
  if q.head = q.next q.tail then q.grow value
  else
    { q with
      tail := q.next q.tail
      buffer := Function.update q.buffer q.tail value
      tail_lt := q.next_lt q.tail }

/-- The number of elements. -/
def size (q : Queue α) : ℕ :=
  if q.tail < q.head then q.tail + q.cap - q.head else q.tail - q.head

/-- The elements, from the oldest on. -/
def toList (q : Queue α) : List α :=
  (List.range q.size).map fun i => q.buffer ((q.head + i) % q.cap)

/-! ### Indices that wrap -/

@[simp] theorem length_toList (q : Queue α) : q.toList.length = q.size := by simp [toList]

theorem size_lt (q : Queue α) : q.size < q.cap := by
  have hh := q.head_lt
  have ht := q.tail_lt
  unfold size
  split <;> omega

/-- The index after one in the array. -/
theorem next_eq_mod (q : Queue α) {i : ℕ} (hi : i < q.cap) : q.next i = (i + 1) % q.cap := by
  unfold next
  split
  · rw [show i + 1 = q.cap by omega, Nat.mod_self]
  · rw [Nat.mod_eq_of_lt (by omega)]

/-- `tail` lies `size` slots after `head`. -/
theorem head_add_size (q : Queue α) : (q.head + q.size) % q.cap = q.tail := by
  have hh := q.head_lt
  have ht := q.tail_lt
  unfold size
  split
  · rw [show q.head + (q.tail + q.cap - q.head) = q.tail + q.cap by omega, Nat.add_mod_right,
      Nat.mod_eq_of_lt ht]
  · rw [show q.head + (q.tail - q.head) = q.tail by omega, Nat.mod_eq_of_lt ht]

/-- Slots less than a round apart are different. -/
theorem slot_ne_tail (q : Queue α) {i : ℕ} (hi : i < q.size) :
    (q.head + i) % q.cap ≠ q.tail := by
  have hh := q.head_lt
  have ht := q.tail_lt
  have hs := q.size_lt
  rcases Nat.lt_or_ge (q.head + i) q.cap with h | h
  · rw [Nat.mod_eq_of_lt h]
    unfold size at hi
    split at hi <;> omega
  · rw [Nat.mod_eq_sub_mod h, Nat.mod_eq_of_lt (by omega)]
    unfold size at hi
    split at hi <;> omega

@[simp] theorem toList_init [Inhabited α] (cap : ℕ) (h : 0 < cap) :
    (init cap h : Queue α).toList = [] := by
  simp [toList, size, init]

/-- Nothing is left exactly when the indices meet. -/
theorem empty_iff (q : Queue α) : q.empty = true ↔ q.toList = [] := by
  have hh := q.head_lt
  have ht := q.tail_lt
  rw [empty, beq_iff_eq, ← List.length_eq_zero_iff, length_toList, size]
  constructor
  · intro h
    simp [h]
  · intro h
    split at h <;> omega

/-! ### Pushing and popping -/

/-- The buffer grows when its last but one slot is used. -/
theorem size_of_full (q : Queue α) (h : q.head = q.next q.tail) : q.size + 1 = q.cap := by
  have hh := q.head_lt
  have ht := q.tail_lt
  unfold next at h
  unfold size
  split_ifs at h ⊢ <;> omega

theorem size_push_of_room (q : Queue α) (value : α) (h : q.head ≠ q.next q.tail) :
    (q.push value).size = q.size + 1 := by
  have hh := q.head_lt
  have ht := q.tail_lt
  rw [push, if_neg h]
  unfold next at h
  unfold size next
  dsimp only
  split_ifs at h ⊢ <;> omega

/-- The new array holds the old elements in order. -/
theorem toList_grow (q : Queue α) (value : α) (h : q.head = q.next q.tail) :
    (q.grow value).toList = q.toList ++ [value] := by
  have hfull := q.size_of_full h
  have hsize : (q.grow value).size = q.size + 1 := by
    simp only [size, grow, Nat.not_lt_zero, if_false, Nat.sub_zero]
    exact hfull.symm
  unfold toList
  rw [hsize, List.range_succ, List.map_append]
  have hmod : ∀ i ≤ q.size, (0 + i) % (q.cap * 2) = i := by
    intro i hi
    rw [Nat.zero_add, Nat.mod_eq_of_lt (by omega)]
  congr 1
  · refine List.map_congr_left fun i hi => ?_
    have hi := List.mem_range.1 hi
    simp only [grow]
    rw [hmod i hi.le, Function.update_of_ne (by omega)]
  · simp only [List.map_cons, List.map_nil, grow]
    rw [hmod q.size le_rfl, show q.size = q.cap - 1 by omega, Function.update_self]

/-- **A push appends, also when the buffer grows.** -/
@[simp] theorem toList_push (q : Queue α) (value : α) :
    (q.push value).toList = q.toList ++ [value] := by
  by_cases h : q.head = q.next q.tail
  · rw [push, if_pos h, q.toList_grow value h]
  · have hsize := q.size_push_of_room value h
    unfold toList
    rw [hsize, List.range_succ, List.map_append]
    simp only [push, if_neg h, List.map_cons, List.map_nil]
    congr 1
    · refine List.map_congr_left fun i hi => ?_
      rw [Function.update_of_ne (q.slot_ne_tail (List.mem_range.1 hi))]
    · rw [q.head_add_size, Function.update_self]

/-! ### Arrays of bounded size -/

/-- A push that fails when the array would get more than `limit` slots. -/
def tryPush (limit : ℕ) (q : Queue α) (value : α) : Option (Queue α) :=
  if q.head = q.next q.tail ∧ limit < q.cap * 2 then none else some (q.push value)

theorem tryPush_eq_some {limit : ℕ} {q q' : Queue α} {value : α}
    (h : q.tryPush limit value = some q') : q' = q.push value := by
  unfold tryPush at h
  split at h
  · cases h
  · exact (Option.some_inj.1 h).symm

/-- The array grows only when it is full. -/
theorem tryPush_of_room {limit : ℕ} {q : Queue α} (value : α) (h : (q.size + 1) * 2 ≤ limit) :
    q.tryPush limit value = some (q.push value) := by
  refine if_neg fun hgrow => ?_
  have hfull := q.size_of_full hgrow.1
  omega

/-- The number of slots is a power of two, and at most `limit`. -/
structure Within (limit : ℕ) (q : Queue α) : Prop where
  le : q.cap ≤ limit
  pow : ∃ k, q.cap = 2 ^ k

theorem Within.tryPush {limit : ℕ} {q q' : Queue α} {value : α} (hq : q.Within limit)
    (h : q.tryPush limit value = some q') : q'.Within limit := by
  rw [tryPush_eq_some h, push]
  split
  · rename_i hfull
    refine ⟨not_lt.1 fun hlt => ?_, ?_⟩
    · rw [Queue.tryPush, if_pos ⟨hfull, hlt⟩] at h
      cases h
    · obtain ⟨k, hk⟩ := hq.pow
      exact ⟨k + 1, by rw [pow_succ, ← hk, grow]⟩
  · exact ⟨hq.le, hq.pow⟩

/-- **An array that doubles stops at a power of two.** -/
theorem Within.size_lt {limit n : ℕ} {q : Queue α} (hq : q.Within limit) (h : limit < 2 ^ (n + 1)) :
    q.size < 2 ^ n := by
  obtain ⟨k, hk⟩ := hq.pow
  have hpow : 2 ^ k < 2 ^ (n + 1) := hk ▸ hq.le.trans_lt h
  have hkn : k ≤ n := Nat.lt_succ_iff.1 ((Nat.pow_lt_pow_iff_right Nat.one_lt_two).1 hpow)
  calc q.size < q.cap := q.size_lt
    _ = 2 ^ k := hk
    _ ≤ 2 ^ n := Nat.pow_le_pow_right Nat.two_pos hkn

theorem size_next_head (q : Queue α) (h : q.head ≠ q.tail) :
    q.size = size { q with head := q.next q.head, head_lt := q.next_lt q.head } + 1 := by
  have hh := q.head_lt
  have ht := q.tail_lt
  unfold size next
  dsimp only
  split_ifs <;> omega

/-- **A pop takes the oldest element.** -/
theorem toList_of_pop {q q' : Queue α} {v : α} (h : q.pop = some (v, q')) :
    q.toList = v :: q'.toList := by
  unfold pop at h
  split at h
  · cases h
  · rename_i hne
    obtain ⟨rfl, rfl⟩ := Prod.mk.inj (Option.some_inj.1 h)
    unfold toList
    rw [q.size_next_head hne, List.range_succ_eq_map, List.map_cons, List.map_map]
    congr 1
    · rw [Nat.add_zero, Nat.mod_eq_of_lt q.head_lt]
    · refine List.map_congr_left fun i _ => ?_
      simp only [Function.comp_apply]
      rw [q.next_eq_mod q.head_lt, Nat.mod_add_mod, Nat.succ_eq_add_one]
      congr 2
      omega

/-- A pop fails on the empty queue only. -/
theorem pop_eq_none_iff (q : Queue α) : q.pop = none ↔ q.toList = [] := by
  rw [← q.empty_iff, empty, beq_iff_eq]
  unfold pop
  split
  · simp [*]
  · simp [*]

theorem size_of_pop {q q' : Queue α} {v : α} (h : q.pop = some (v, q')) : q'.size < q.size := by
  rw [← length_toList, ← length_toList, toList_of_pop h]
  exact Nat.lt_succ_self _

/-- Popping until nothing is left. -/
def drain (q : Queue α) : List α × Queue α :=
  match _h : q.pop with
  | none => ([], q)
  | some (v, q') => (v :: (drain q').1, (drain q').2)
termination_by q.size
decreasing_by all_goals exact size_of_pop _h

/-- Draining takes every element, in order. -/
theorem drain_spec (q : Queue α) : q.drain.1 = q.toList ∧ q.drain.2.toList = [] := by
  fun_induction drain q with
  | case1 q h =>
      have hl := q.pop_eq_none_iff.1 h
      exact ⟨hl.symm, hl⟩
  | case2 q v q' h ih =>
      exact ⟨by rw [toList_of_pop h, ih.1], ih.2⟩

end Queue

end RingQueue
