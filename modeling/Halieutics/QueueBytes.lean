/-
**The queue of `src/service/package.c`, byte by byte.**

`RingQueue` has slots; the C program has bytes, and finds the slot `i` at the offset `i * sz`.  Its
indices and offsets are of type `int`, so a product that does not fit has no defined value — and the
product that comes first is the size of the buffer, `cap * sz`.  As long as that one fits everything
else does, every access is inside the buffer, and the bytes are the slots of a ring queue.

A new buffer has bytes that nobody has written.  When the buffer grows, the slot at the old tail is
copied with the others although nothing is in it yet, and then gets the new element.

Main definitions:

* `Halieutics.QueueBytes.int` — the value of an expression of type `int`, if it has one;
* `Halieutics.QueueBytes.load`, `Halieutics.QueueBytes.store` — `memcpy` out of and into a buffer;
* `Halieutics.QueueBytes.queueInit`, `Halieutics.QueueBytes.queuePush`,
  `Halieutics.QueueBytes.queuePop`, `Halieutics.QueueBytes.queueSize`,
  `Halieutics.QueueBytes.queueEmpty` — the functions;
* `Halieutics.QueueBytes.Rep` — the bytes are those of the slots;
* `Halieutics.QueueBytes.fifo` — what a queue is for.

Main results:

* `Halieutics.QueueBytes.copyLoop_spec` — **what the loop copies when the buffer grows**;
* `Halieutics.QueueBytes.Rep.push`, `Halieutics.QueueBytes.Rep.pop`,
  `Halieutics.QueueBytes.Rep.size` — the functions do what `RingQueue` does;
* `Halieutics.QueueBytes.exec_fifo` — **every sequence of pushes and pops is that of a list**;
* `Halieutics.QueueBytes.init_overflows` — elements that are too large for the first buffer.
-/

import Halieutics.RingQueue

set_option relaxedAutoImplicit false
set_option autoImplicit false

namespace Halieutics.QueueBytes

/-! ### Numbers and bytes -/

/-- The value of an expression of type `int`: none, if it does not fit. -/
def int (x : ℤ) : Option ℤ := if -2 ^ 31 ≤ x ∧ x < 2 ^ 31 then some x else none

/-- `memcpy` of `n` bytes out of a buffer, at an offset; none, if they are not all in it. -/
def load (buf : List UInt8) (off n : ℤ) : Option (List UInt8) :=
  if 0 ≤ off ∧ 0 ≤ n ∧ off + n ≤ buf.length then some ((buf.drop off.toNat).take n.toNat) else none

/-- `memcpy` into a buffer, at an offset. -/
def store (buf : List UInt8) (off : ℤ) (v : List UInt8) : Option (List UInt8) :=
  if 0 ≤ off ∧ off + v.length ≤ buf.length then
    some (buf.take off.toNat ++ v ++ buf.drop (off.toNat + v.length))
  else none

/-- What `skynet_malloc` finds in the memory. -/
abbrev Heap := (n : ℕ) → Vector UInt8 n

/-- `skynet_malloc`. -/
def malloc (heap : Heap) (n : ℤ) : Option (List UInt8) :=
  if 0 ≤ n then some (heap n.toNat).toList else none

/-! ### The functions -/

/-- `struct queue`. -/
structure Queue where
  cap : ℤ
  sz : ℤ
  head : ℤ
  tail : ℤ
  buffer : List UInt8

/-- **`queue_init`**. -/
def queueInit (heap : Heap) (sz : ℤ) : Option Queue := do
  let n ← int (4 * sz)
  let buffer ← malloc heap n
  return { cap := 4, sz := sz, head := 0, tail := 0, buffer := buffer }

/-- **`queue_empty`**. -/
def queueEmpty (q : Queue) : Bool := q.head == q.tail

/-- **`queue_pop`**; no bytes, if it returns 1. -/
def queuePop (q : Queue) : Option (Queue × Option (List UInt8)) :=
  if q.head = q.tail then some (q, none)
  else do
    let off ← int (q.head * q.sz)
    let result ← load q.buffer off q.sz
    let head ← int (q.head + 1)
    return ({ q with head := if q.cap ≤ head then 0 else head }, some result)

/-- The loop of `queue_push`, with so many rounds to go. -/
def copyLoop (q : Queue) : ℕ → ℤ → ℤ → List UInt8 → Option (List UInt8)
  | 0, _, _, tmp => some tmp
  | rounds + 1, i, head, tmp => do
      let dst ← int (i * q.sz)
      let src ← int (head * q.sz)
      let v ← load q.buffer src q.sz
      let tmp ← store tmp dst v
      let head ← int (head + 1)
      let i ← int (i + 1)
      copyLoop q rounds i (if q.cap ≤ head then 0 else head) tmp

/-- **`queue_push`**. -/
def queuePush (heap : Heap) (q : Queue) (value : List UInt8) : Option Queue := do
  let off ← int (q.tail * q.sz)
  let tail ← int (q.tail + 1)
  let tail := if q.cap ≤ tail then 0 else tail
  let v ← load value 0 q.sz
  if q.head = tail then
    -- `assert(q->sz > 0)`
    if 0 < q.sz then
      let cap ← int (q.cap * 2)
      let n ← int (cap * q.sz)
      let tmp ← malloc heap n
      let tmp ← copyLoop q q.cap.toNat 0 q.head tmp
      let slot ← int ((q.cap - 1) * q.sz)
      let tmp ← store tmp slot v
      return { q with head := 0, tail := q.cap, cap := cap, buffer := tmp }
    else none
  else
    let buffer ← store q.buffer off v
    return { q with tail := tail, buffer := buffer }

/-- **`queue_size`**. -/
def queueSize (q : Queue) : Option ℤ :=
  if q.tail < q.head then do
    let n ← int (q.tail + q.cap)
    int (n - q.head)
  else int (q.tail - q.head)

/-! ### Sequences -/

/-- A push of an element of `sz` bytes, or a pop. -/
inductive Op (sz : ℕ) where
  | push (v : Vector UInt8 sz)
  | pop

section Sequences

variable {sz : ℕ}

/-- **The functions, one after the other**, with what the pops return. -/
def exec (heap : Heap) : Queue → List (Op sz) → Option (Queue × List (Option (List UInt8)))
  | q, [] => some (q, [])
  | q, .push v :: ops => (queuePush heap q v.toList).bind fun q => exec heap q ops
  | q, .pop :: ops =>
      (queuePop q).bind fun r => (exec heap r.1 ops).map fun s => (s.1, r.2 :: s.2)

/-- **What a queue is for**: the elements that are left, and what the pops return. -/
def fifo : List (List UInt8) → List (Op sz) → List (List UInt8) × List (Option (List UInt8))
  | l, [] => (l, [])
  | l, .push v :: ops => fifo (l ++ [v.toList]) ops
  | [], .pop :: ops => ((fifo [] ops).1, none :: (fifo [] ops).2)
  | v :: l, .pop :: ops => ((fifo l ops).1, some v :: (fifo l ops).2)

/-- The sequence with slots instead of bytes. -/
def slots (q : RingQueue.Queue (List UInt8)) : List (Op sz) → RingQueue.Queue (List UInt8)
  | [] => q
  | .push v :: ops => slots (q.push v.toList) ops
  | .pop :: ops =>
      match q.pop with
      | none => slots q ops
      | some (_, q) => slots q ops

end Sequences

/-! ### Values in range -/

theorem int_natCast {n : ℕ} (h : n < 2 ^ 31) : int (n : ℤ) = some (n : ℤ) := by
  rw [int, if_pos]
  omega

theorem malloc_natCast (heap : Heap) (n : ℕ) : malloc heap (n : ℤ) = some (heap n).toList := by
  rw [malloc, if_pos (Int.natCast_nonneg n), Int.toNat_natCast]

/-! ### Slots of a buffer -/

/-- The bytes of a slot. -/
def slot (buf : List UInt8) (sz i : ℕ) : List UInt8 := (buf.drop (i * sz)).take sz

section Slots

variable {buf buf' v : List UInt8} {sz i j n : ℕ}

/-- Slots inside a buffer of `n` slots. -/
theorem slot_end_le (sz : ℕ) (hi : i < n) : i * sz + sz ≤ n * sz := by
  calc i * sz + sz = (i + 1) * sz := (Nat.succ_mul i sz).symm
    _ ≤ n * sz := Nat.mul_le_mul_right sz hi

theorem length_slot (hlen : buf.length = n * sz) (hi : i < n) : (slot buf sz i).length = sz := by
  have hle := slot_end_le sz hi
  rw [slot, List.length_take, List.length_drop]
  omega

theorem load_slot (hlen : buf.length = n * sz) (hi : i < n) :
    load buf ((i * sz : ℕ) : ℤ) (sz : ℤ) = some (slot buf sz i) := by
  have hle := slot_end_le sz hi
  rw [load, if_pos (by omega), Int.toNat_natCast, Int.toNat_natCast]
  rfl

theorem load_all (hv : v.length = sz) : load v 0 (sz : ℤ) = some v := by
  rw [load, if_pos (by omega), Int.toNat_natCast]
  simp [← hv]

/-- **Storing a slot.** -/
theorem store_slot (hlen : buf.length = n * sz) (hi : i < n) (hv : v.length = sz) :
    ∃ buf', store buf ((i * sz : ℕ) : ℤ) v = some buf' ∧ buf'.length = n * sz ∧
      slot buf' sz i = v ∧ ∀ j, j ≠ i → slot buf' sz j = slot buf sz j := by
  have hle := slot_end_le sz hi
  have htake : (buf.take (i * sz)).length = i * sz := by
    rw [List.length_take]
    omega
  refine ⟨buf.take (i * sz) ++ v ++ buf.drop (i * sz + v.length), ?_, ?_, ?_, fun j hj => ?_⟩
  · rw [store, if_pos (by omega), Int.toNat_natCast]
  · rw [List.length_append, List.length_append, htake, List.length_drop]
    omega
  · rw [slot, List.append_assoc, List.drop_left' htake, List.take_left' hv]
  · rcases Nat.lt_or_gt_of_ne hj with hlt | hgt
    · -- the slot lies in front of the new bytes
      have hend : j * sz + sz ≤ i * sz := slot_end_le sz hlt
      rw [slot, slot, List.append_assoc, List.drop_append_of_le_length (by omega),
        List.take_append_of_le_length (by rw [List.length_drop]; omega), List.drop_take,
        List.take_take, min_eq_left (by omega)]
    · have hbegin : i * sz + sz ≤ j * sz := slot_end_le sz hgt
      have hlong : (buf.take (i * sz) ++ v).length = i * sz + sz := by
        rw [List.length_append, htake, hv]
      rw [slot, slot, List.drop_append, List.drop_eq_nil_of_le (by omega), List.nil_append,
        List.drop_drop, hlong, hv]
      congr 2
      omega

end Slots

/-! ### The loop of `queue_push` -/

/-- **What the loop copies when the buffer grows**: the slots from `head` on, one after the
other. -/
theorem copyLoop_spec {c : Queue} {sz n m : ℕ} (hsz : c.sz = sz) (hpos : 0 < sz) (hcap : c.cap = n)
    (hbuf : c.buffer.length = n * sz) (hnm : n ≤ m) (hrange : m * sz < 2 ^ 31) {rounds i head : ℕ}
    {tmp : List UInt8} (hi : i + rounds ≤ n) (hhead : head < n) (htmp : tmp.length = m * sz) :
    ∃ tmp', copyLoop c rounds i head tmp = some tmp' ∧ tmp'.length = m * sz ∧
      (∀ j < i, slot tmp' sz j = slot tmp sz j) ∧
      ∀ k < rounds, slot tmp' sz (i + k) = slot c.buffer sz ((head + k) % n) := by
  induction rounds generalizing i head tmp with
  | zero => exact ⟨tmp, rfl, htmp, fun _ _ => rfl, fun k hk => absurd hk (Nat.not_lt_zero k)⟩
  | succ rounds ih =>
      have hle : n ≤ n * sz := Nat.le_mul_of_pos_right n hpos
      have hnsz : n * sz ≤ m * sz := Nat.mul_le_mul_right sz hnm
      have hdst : int (i * c.sz) = some ((i * sz : ℕ) : ℤ) := by
        have := slot_end_le sz (by omega : i < n)
        rw [hsz, ← Nat.cast_mul]
        exact int_natCast (by omega)
      have hsrc : int (head * c.sz) = some ((head * sz : ℕ) : ℤ) := by
        have := slot_end_le sz hhead
        rw [hsz, ← Nat.cast_mul]
        exact int_natCast (by omega)
      have hload : load c.buffer ((head * sz : ℕ) : ℤ) c.sz = some (slot c.buffer sz head) := by
        rw [hsz]
        exact load_slot hbuf hhead
      obtain ⟨tmp₁, hstore, hlen, hself, hother⟩ :=
        store_slot htmp (by omega : i < m) (length_slot hbuf hhead)
      have hnext : int ((head : ℤ) + 1) = some ((head + 1 : ℕ) : ℤ) :=
        int_natCast (n := head + 1) (by omega)
      have hi' : int ((i : ℤ) + 1) = some ((i + 1 : ℕ) : ℤ) := int_natCast (n := i + 1) (by omega)
      -- the next slot to copy
      have hwrap : (if c.cap ≤ ((head + 1 : ℕ) : ℤ) then 0 else ((head + 1 : ℕ) : ℤ)) =
          (((head + 1) % n : ℕ) : ℤ) := by
        rw [hcap]
        by_cases hlast : n ≤ head + 1
        · rw [if_pos (by omega), show head + 1 = n by omega, Nat.mod_self]
          rfl
        · rw [if_neg (by omega), Nat.mod_eq_of_lt (by omega)]
      obtain ⟨tmp', hloop, hlen', hkept, hcopied⟩ :=
        ih (by omega : i + 1 + rounds ≤ n) (Nat.mod_lt (head + 1) (by omega)) hlen
      refine ⟨tmp', ?_, hlen', fun j hj => ?_, fun k hk => ?_⟩
      · rw [copyLoop]
        simp only [Option.bind_eq_bind, hdst, hsrc, hload, hstore, hnext, hi', hwrap,
          Option.bind_some, hloop]
      · exact (hkept j (by omega)).trans (hother j (by omega))
      · cases k with
        | zero =>
            rw [Nat.add_zero, Nat.add_zero, Nat.mod_eq_of_lt hhead]
            exact (hkept i (Nat.lt_succ_self i)).trans hself
        | succ k =>
            have hk' := hcopied k (by omega)
            rw [Nat.mod_add_mod] at hk'
            rw [show i + (k + 1) = i + 1 + k by omega, hk',
              show head + (k + 1) = head + 1 + k by omega]

/-! ### The functions and the slots -/

/-- **The bytes are those of the slots**: the slots with elements have their bytes, and the size of
the buffer is a number of type `int`. -/
structure Rep (c : Queue) (sz : ℕ) (q : RingQueue.Queue (List UInt8)) : Prop where
  sz_eq : c.sz = sz
  pos : 0 < sz
  cap : c.cap = q.cap
  head : c.head = q.head
  tail : c.tail = q.tail
  length : c.buffer.length = q.cap * sz
  range : q.cap * sz < 2 ^ 31
  doubled : ∃ k, q.cap = 2 ^ k
  slots : ∀ k < q.size,
    slot c.buffer sz ((q.head + k) % q.cap) = q.buffer ((q.head + k) % q.cap)

section Rep

variable {c : Queue} {sz : ℕ} {q : RingQueue.Queue (List UInt8)} (heap : Heap)

theorem Rep.cap_lt (h : Rep c sz q) : q.cap < 2 ^ 31 :=
  (Nat.le_mul_of_pos_right q.cap h.pos).trans_lt h.range

theorem Rep.offset (h : Rep c sz q) {i : ℕ} (hi : i < q.cap) :
    int ((i : ℤ) * c.sz) = some ((i * sz : ℕ) : ℤ) := by
  have hle := slot_end_le sz hi
  have hrange := h.range
  rw [h.sz_eq, ← Nat.cast_mul]
  exact int_natCast (by omega)

/-- The index after `i`. -/
theorem Rep.after (h : Rep c sz q) {i : ℕ} (hi : i < q.cap) :
    int ((i : ℤ) + 1) = some ((i + 1 : ℕ) : ℤ) ∧
      (if c.cap ≤ ((i + 1 : ℕ) : ℤ) then 0 else ((i + 1 : ℕ) : ℤ)) = (q.next i : ℤ) := by
  have hcap := h.cap_lt
  refine ⟨int_natCast (n := i + 1) (by omega), ?_⟩
  rw [h.cap, RingQueue.Queue.next]
  by_cases hlast : q.cap ≤ i + 1
  · rw [if_pos (by omega), if_pos hlast]
    rfl
  · rw [if_neg (by omega), if_neg hlast]

/-- **`queue_pop` takes the oldest element.** -/
theorem Rep.pop (h : Rep c sz q) :
    (q.pop = none → queuePop c = some (c, none)) ∧
      ∀ v q', q.pop = some (v, q') → ∃ c', queuePop c = some (c', some v) ∧ Rep c' sz q' := by
  have heq : c.head = c.tail ↔ q.head = q.tail := by
    rw [h.head, h.tail]
    exact Int.natCast_inj
  constructor
  · intro hpop
    have hmeet : q.head = q.tail := by
      by_contra hne
      rw [RingQueue.Queue.pop, if_neg hne] at hpop
      exact Option.some_ne_none _ hpop
    rw [queuePop, if_pos (heq.2 hmeet)]
  · intro v q' hpop
    have hne : q.head ≠ q.tail := by
      intro hmeet
      rw [RingQueue.Queue.pop, if_pos hmeet] at hpop
      cases hpop
    have hsize := q.size_next_head hne
    rw [RingQueue.Queue.pop, if_neg hne] at hpop
    obtain ⟨rfl, rfl⟩ := Prod.mk.inj (Option.some_inj.1 hpop)
    have hload : load c.buffer ((q.head * sz : ℕ) : ℤ) c.sz = some (q.buffer q.head) := by
      have hfirst := h.slots 0 (by omega)
      rw [Nat.add_zero, Nat.mod_eq_of_lt q.head_lt] at hfirst
      rw [h.sz_eq, load_slot h.length q.head_lt, hfirst]
    obtain ⟨hafter, hnext⟩ := h.after q.head_lt
    refine ⟨{ c with head := q.next q.head }, ?_, ?_⟩
    · rw [queuePop, if_neg fun hmeet => hne (heq.1 hmeet), h.head]
      simp only [Option.bind_eq_bind, h.offset q.head_lt, hload, hafter, hnext, Option.bind_some]
      rfl
    · refine ⟨h.sz_eq, h.pos, h.cap, rfl, h.tail, h.length, h.range, h.doubled, fun k hk => ?_⟩
      have hk' := h.slots (k + 1) (by omega)
      simp only at hk ⊢
      rwa [q.next_eq_mod q.head_lt, Nat.mod_add_mod,
        show q.head + 1 + k = q.head + (k + 1) by omega]

/-- **`queue_push` appends**, if the buffer it needs is not too large. -/
theorem Rep.push (h : Rep c sz q) {v : List UInt8} (hv : v.length = sz)
    (hrange : (q.push v).cap * sz < 2 ^ 31) :
    ∃ c', queuePush heap c v = some c' ∧ Rep c' sz (q.push v) := by
  have hload : load v 0 c.sz = some v := by
    rw [h.sz_eq]
    exact load_all hv
  obtain ⟨hafter, hnext⟩ := h.after q.tail_lt
  have heq : c.head = (q.next q.tail : ℤ) ↔ q.head = q.next q.tail := by
    rw [h.head]
    exact Int.natCast_inj
  by_cases hfull : q.head = q.next q.tail
  · -- the buffer grows
    have hpush : q.push v = q.grow v := by rw [RingQueue.Queue.push, if_pos hfull]
    have hcap := q.head_lt
    have hsize := q.size_of_full hfull
    rw [hpush] at hrange ⊢
    have hle : q.cap * 2 ≤ q.cap * 2 * sz := Nat.le_mul_of_pos_right _ h.pos
    have hrange' : q.cap * 2 * sz < 2 ^ 31 := hrange
    have hdouble : int (c.cap * 2) = some ((q.cap * 2 : ℕ) : ℤ) := by
      rw [h.cap]
      exact int_natCast (n := q.cap * 2) (by omega)
    have hbytes : int (((q.cap * 2 : ℕ) : ℤ) * c.sz) = some ((q.cap * 2 * sz : ℕ) : ℤ) := by
      rw [h.sz_eq, ← Nat.cast_mul]
      exact int_natCast hrange'
    obtain ⟨tmp, hcopy, hlen, -, hcopied⟩ :=
      copyLoop_spec (m := q.cap * 2) (i := 0) h.sz_eq h.pos h.cap
      h.length (by omega) hrange' (Nat.zero_add q.cap).le q.head_lt
      (heap (q.cap * 2 * sz)).length_toList
    have hlast : int ((c.cap - 1) * c.sz) = some (((q.cap - 1) * sz : ℕ) : ℤ) := by
      rw [h.cap, show (q.cap : ℤ) - 1 = ((q.cap - 1 : ℕ) : ℤ) by omega]
      exact h.offset (by omega)
    obtain ⟨buf, hstore, hlen', hself, hother⟩ :=
      store_slot hlen (by omega : q.cap - 1 < q.cap * 2) hv
    refine ⟨{ c with head := 0, tail := c.cap, cap := (q.cap * 2 : ℕ), buffer := buf }, ?_, ?_⟩
    · have hrounds : c.cap.toNat = q.cap := by rw [h.cap, Int.toNat_natCast]
      have hzero : copyLoop c q.cap 0 c.head (heap (q.cap * 2 * sz)).toList = some tmp := by
        rw [h.head]
        exact hcopy
      rw [queuePush, h.tail]
      simp only [Option.bind_eq_bind, h.offset q.tail_lt, hafter, hnext, hload, Option.bind_some,
        if_pos (heq.2 hfull), if_pos (show 0 < c.sz by rw [h.sz_eq]; exact_mod_cast h.pos), hdouble,
        hbytes, malloc_natCast, hrounds, hzero, hlast, hstore]
      rfl
    · obtain ⟨e, he⟩ := h.doubled
      refine ⟨h.sz_eq, h.pos, rfl, rfl, h.cap, hlen', hrange', ⟨e + 1, ?_⟩, fun k hk => ?_⟩
      · show q.cap * 2 = 2 ^ (e + 1)
        rw [he, Nat.pow_succ]
      · have hk' : k < q.cap := by
          have hgrown : (q.grow v).size = q.cap := by
            simp [RingQueue.Queue.size, RingQueue.Queue.grow]
          omega
        show slot buf sz ((0 + k) % (q.cap * 2)) =
          Function.update (fun i => q.buffer ((q.head + i) % q.cap)) (q.cap - 1) v
            ((0 + k) % (q.cap * 2))
        rw [Nat.zero_add, Nat.mod_eq_of_lt (by omega)]
        by_cases hkl : k = q.cap - 1
        · rw [hkl, hself, Function.update_self]
        · have hold := hcopied k hk'
          rw [Nat.zero_add] at hold
          rw [hother k hkl, hold, Function.update_of_ne hkl, h.slots k (by omega)]
  · have hpush : (q.push v).cap = q.cap ∧ (q.push v).head = q.head ∧
      (q.push v).tail = q.next q.tail ∧
        (q.push v).buffer = Function.update q.buffer q.tail v := by
      rw [RingQueue.Queue.push, if_neg hfull]
      exact ⟨rfl, rfl, rfl, rfl⟩
    obtain ⟨hcap, hhead, htail, hbuffer⟩ := hpush
    obtain ⟨buf, hstore, hlen, hself, hother⟩ := store_slot h.length q.tail_lt hv
    refine ⟨{ c with tail := q.next q.tail, buffer := buf }, ?_, ?_⟩
    · rw [queuePush, h.tail]
      simp only [Option.bind_eq_bind, h.offset q.tail_lt, hafter, hnext, hload, Option.bind_some,
        if_neg fun hmeet => hfull (heq.1 hmeet), hstore]
      rfl
    · refine ⟨h.sz_eq, h.pos, h.cap.trans (by rw [hcap]),
        h.head.trans (by rw [hhead]), by rw [htail],
        by rw [hcap]; exact hlen, by rw [hcap]; exact h.range, by rw [hcap]; exact h.doubled,
        fun k hk => ?_⟩
      rw [q.size_push_of_room v hfull] at hk
      rw [hcap, hhead, hbuffer]
      show slot buf sz _ = _
      rcases Nat.lt_succ_iff_lt_or_eq.1 hk with hk | rfl
      · have hne := q.slot_ne_tail hk
        rw [hother _ hne, Function.update_of_ne hne, h.slots k hk]
      · rw [q.head_add_size, hself, Function.update_self]

/-- **`queue_size` is the number of elements.** -/
theorem Rep.size (h : Rep c sz q) : queueSize c = some (q.size : ℤ) := by
  have hcap := h.cap_lt
  have hh := q.head_lt
  have ht := q.tail_lt
  have hsum : q.tail + q.cap < 2 ^ 31 := by
    obtain ⟨k, hk⟩ := h.doubled
    have hk31 : k < 31 := (Nat.pow_lt_pow_iff_right (by decide : 1 < 2)).1 (hk ▸ hcap)
    have hle : 2 ^ k ≤ 2 ^ 30 := Nat.pow_le_pow_right (by decide) (by omega)
    omega
  rw [queueSize, RingQueue.Queue.size, h.tail, h.head, h.cap]
  by_cases hlt : q.tail < q.head
  · have hadd : int ((q.tail : ℤ) + (q.cap : ℤ)) = some ((q.tail + q.cap : ℕ) : ℤ) :=
      int_natCast hsum
    rw [if_pos (by omega), if_pos hlt, hadd]
    rw [Option.bind_eq_bind, Option.bind_some,
      show ((q.tail + q.cap : ℕ) : ℤ) - q.head = ((q.tail + q.cap - q.head : ℕ) : ℤ) by omega]
    exact int_natCast (by omega)
  · rw [if_neg (by omega), if_neg hlt,
      show (q.tail : ℤ) - q.head = ((q.tail - q.head : ℕ) : ℤ) by omega]
    exact int_natCast (by omega)

end Rep

/-! ### Sequences of pushes and pops -/

/-- The elements of a queue, from the oldest on. -/
def contents (q : Queue) : List (List UInt8) :=
  (List.range ((queueSize q).getD 0).toNat).map fun k =>
    slot q.buffer q.sz.toNat ((q.head.toNat + k) % q.cap.toNat)

/-- A new queue has room. -/
theorem initSlots_pos : 0 < 4 := by decide

/-- The slots of a new queue. -/
def initSlots : RingQueue.Queue (List UInt8) := RingQueue.Queue.init 4 initSlots_pos

section Runs

variable {c : Queue} {sz : ℕ} {q : RingQueue.Queue (List UInt8)}

theorem Rep.contents_eq (h : Rep c sz q) : contents c = q.toList := by
  rw [contents, h.size, Option.getD_some, Int.toNat_natCast, RingQueue.Queue.toList,
    h.sz_eq, h.head,
    h.cap, Int.toNat_natCast, Int.toNat_natCast, Int.toNat_natCast]
  exact List.map_congr_left fun k hk => h.slots k (List.mem_range.1 hk)

theorem Rep.empty_iff (h : Rep c sz q) : queueEmpty c = true ↔ q.toList = [] := by
  rw [← q.empty_iff, queueEmpty, RingQueue.Queue.empty, h.head, h.tail, beq_iff_eq, beq_iff_eq]
  exact Int.natCast_inj

theorem rep_init (heap : Heap) (hpos : 0 < sz) (hrange : 4 * sz < 2 ^ 31) :
    ∃ c, queueInit heap sz = some c ∧ Rep c sz initSlots := by
  have hbytes : int (4 * (sz : ℤ)) = some ((4 * sz : ℕ) : ℤ) := int_natCast (n := 4 * sz) hrange
  refine ⟨⟨4, sz, 0, 0, (heap (4 * sz)).toList⟩, ?_, rfl, hpos, rfl, rfl, rfl, ?_, hrange,
    ⟨2, rfl⟩, ?_⟩
  · rw [queueInit]
    simp only [Option.bind_eq_bind, hbytes, malloc_natCast, Option.bind_some]
    rfl
  · exact Vector.length_toList
  · exact fun k hk => absurd hk (Nat.not_lt_zero k)

theorem cap_le_push (q : RingQueue.Queue (List UInt8)) (v : List UInt8) :
    q.cap ≤ (q.push v).cap := by
  rw [RingQueue.Queue.push]
  split
  · exact Nat.le_mul_of_pos_right q.cap (by decide)
  · exact le_rfl

theorem cap_of_pop {q q' : RingQueue.Queue (List UInt8)} {v : List UInt8}
    (h : q.pop = some (v, q')) :
    q'.cap = q.cap := by
  rw [RingQueue.Queue.pop] at h
  split at h
  · cases h
  · rw [← (Prod.mk.inj (Option.some_inj.1 h)).2]

/-- The capacity only grows. -/
theorem cap_le_slots (q : RingQueue.Queue (List UInt8)) (ops : List (Op sz)) :
    q.cap ≤ (slots q ops).cap := by
  induction ops generalizing q with
  | nil => exact le_rfl
  | cons op ops ih =>
      cases op with
      | push v => exact (cap_le_push q v.toList).trans (ih _)
      | pop =>
          rw [slots]
          cases hpop : q.pop with
          | none => exact ih q
          | some r => exact (cap_of_pop (v := r.1) hpop).ge.trans (ih r.2)

/-- **What one operation does, a sequence does.** -/
theorem Rep.exec (heap : Heap) (h : Rep c sz q) (ops : List (Op sz))
    (hrange : (QueueBytes.slots q ops).cap * sz < 2 ^ 31) :
    ∃ c', QueueBytes.exec heap c ops = some (c', (fifo q.toList ops).2) ∧
      Rep c' sz (QueueBytes.slots q ops) ∧
      (QueueBytes.slots q ops).toList = (fifo q.toList ops).1 := by
  induction ops generalizing c q with
  | nil => exact ⟨c, rfl, h, rfl⟩
  | cons op ops ih =>
      cases op with
      | push v =>
          have hpush : (q.push v.toList).cap * sz < 2 ^ 31 :=
            (Nat.mul_le_mul_right sz (cap_le_slots _ ops)).trans_lt hrange
          obtain ⟨c₁, hc₁, h₁⟩ := h.push heap Vector.length_toList hpush
          obtain ⟨c', hc', h', hlist⟩ := ih h₁ hrange
          rw [RingQueue.Queue.toList_push] at hc' hlist
          refine ⟨c', ?_, h', hlist⟩
          rw [QueueBytes.exec, hc₁, Option.bind_some]
          exact hc'
      | pop =>
          rw [QueueBytes.slots] at hrange ⊢
          rw [QueueBytes.exec]
          cases hpop : q.pop with
          | none =>
              rw [hpop] at hrange
              obtain ⟨c', hc', h', hlist⟩ := ih h hrange
              rw [h.pop.1 hpop, Option.bind_some, hc', (q.pop_eq_none_iff).1 hpop]
              rw [(q.pop_eq_none_iff).1 hpop] at hlist
              exact ⟨c', rfl, h', hlist⟩
          | some r =>
              obtain ⟨v, q₁⟩ := r
              rw [hpop] at hrange
              obtain ⟨c₁, hc₁, h₁⟩ := h.pop.2 v q₁ hpop
              obtain ⟨c', hc', h', hlist⟩ := ih h₁ hrange
              rw [hc₁, Option.bind_some, hc', RingQueue.Queue.toList_of_pop hpop]
              exact ⟨c', rfl, h', hlist⟩

end Runs

/-- **Every sequence of pushes and pops is that of a list**, as long as the size of the buffer is a
number of type `int`: every function has a result, the pops return the elements in the order of the
pushes and fail exactly when none is left, the indices stay inside the buffer, and what is left, and
how much, is what is left of the list. -/
theorem exec_fifo (heap : Heap) {sz : ℕ} (hsz : 0 < sz) (ops : List (Op sz))
    (hrange : (slots initSlots ops).cap * sz < 2 ^ 31) :
    ∃ q₀ q, queueInit heap sz = some q₀ ∧ exec heap q₀ ops = some (q, (fifo [] ops).2) ∧
      q.cap = (slots initSlots ops).cap ∧ 0 ≤ q.head ∧ q.head < q.cap ∧ 0 ≤ q.tail ∧
      q.tail < q.cap ∧
      contents q = (fifo [] ops).1 ∧ queueSize q = some ((fifo [] ops).1.length : ℤ) ∧
      (queueEmpty q = true ↔ (fifo [] ops).1 = []) := by
  obtain ⟨q₀, hinit, h₀⟩ := rep_init heap hsz
    ((Nat.mul_le_mul_right sz (cap_le_slots initSlots ops)).trans_lt hrange)
  obtain ⟨q, hq, h, hlist⟩ := h₀.exec heap ops hrange
  have hnew : initSlots.toList = [] := RingQueue.Queue.toList_init 4 (by decide)
  rw [hnew] at hq hlist
  refine ⟨q₀, q, hinit, hq, h.cap, ?_, ?_, ?_, ?_, ?_, ?_, ?_⟩
  · rw [h.head]
    exact Int.natCast_nonneg _
  · rw [h.head, h.cap]
    exact_mod_cast (slots initSlots ops).head_lt
  · rw [h.tail]
    exact Int.natCast_nonneg _
  · rw [h.tail, h.cap]
    exact_mod_cast (slots initSlots ops).tail_lt
  · rw [h.contents_eq, hlist]
  · rw [h.size, ← RingQueue.Queue.length_toList, hlist]
  · rw [h.empty_iff, hlist]

/-- A push and two pops. -/
theorem exec_fifo_once :
    ∃ q₀ q, queueInit (fun n => Vector.replicate n 0) ((1 : ℕ) : ℤ) = some q₀ ∧
      exec (fun n => Vector.replicate n 0) q₀ [Op.push #v[7], Op.pop, Op.pop] =
        some (q, (fifo [] [Op.push #v[7], Op.pop, Op.pop]).2) ∧
      q.cap = (slots initSlots [Op.push #v[7], Op.pop, Op.pop]).cap ∧
      0 ≤ q.head ∧ q.head < q.cap ∧ 0 ≤ q.tail ∧ q.tail < q.cap ∧
      contents q = (fifo [] [Op.push #v[7], Op.pop, Op.pop]).1 ∧
      queueSize q = some ((fifo [] [Op.push #v[7], Op.pop, Op.pop]).1.length : ℤ) ∧
      (queueEmpty q = true ↔ (fifo [] [Op.push #v[7], Op.pop, Op.pop]).1 = []) :=
  exec_fifo (fun n => Vector.replicate n 0) (by decide) [Op.push #v[7], Op.pop, Op.pop] (by decide)

/-- **Elements that are too large for the first buffer**: the capacity is 4, and the number of bytes
has no value of type `int`. -/
theorem init_overflows : (slots initSlots ([] : List (Op (2 ^ 29)))).cap < 2 ^ 31 ∧
    queueInit (fun n => Vector.replicate n 0) ((2 ^ 29 : ℕ) : ℤ) = none := by
  refine ⟨by decide, ?_⟩
  have hbytes : int (4 * ((2 ^ 29 : ℕ) : ℤ)) = none := by
    rw [int, if_neg (by decide)]
  rw [queueInit, Option.bind_eq_bind, hbytes]
  rfl

end Halieutics.QueueBytes
