/-
**The round of the gates: `assign_counter` in `service/login.lua`.**

The function that `assign_counter` returns keeps an index into the list of gates of an app on a
platform.  A call moves it to the next gate and from there on around the list, until it has found a
gate with room or is back where it began.  The index is put back to 1 in two places, and the loop
looks at it only after a gate has been inspected.

The place in the list stands for the gate, since every gate of the list is a table of its own; the
counters may be lowered between two calls.

Main definitions:

* `Halieutics.Login.Round` — the `repeat` loop, with the indices it inspects;
* `Halieutics.Login.Closure` — the list of gates and the index, which is never behind the list;
* `Halieutics.Login.Closure.call` — **a call of the function**;
* `Halieutics.Login.Closure.Op`, `Halieutics.Login.Closure.run` — calls and logouts;
* `Halieutics.Login.Closure.Assigns` — **what a call does**.

Main results:

* `Halieutics.Login.round_loop` — the loop ends after at most one round;
* `Halieutics.Login.next_eq_find?` — **the gate chosen is the first free one in the order of the
  round**;
* `Halieutics.Login.Closure.assigns_run` — what a call does after calls and logouts of any number;
* `Halieutics.Login.assignGate_eq_find?` — what that means for `assign_gate`.
-/

import Halieutics.Login

set_option relaxedAutoImplicit false
set_option autoImplicit false

namespace Halieutics.Login

open LuaTable

/-! ### The loop -/

/-- **`repeat … until src == idx`**, from the index `idx` on: the indices it inspects, the index it
ends with and the gate it returns. -/
inductive Round (c : Counter) (free : ℕ → Bool) (src : ℕ) : ℕ → List ℕ → ℕ → Option ℕ → Prop where
  | take {idx g : ℕ} (hg : c.gates[idx - 1]? = some g) (hfree : free g = true) :
      Round c free src idx [idx] idx (some g)
  | stop {idx g : ℕ} (hg : c.gates[idx - 1]? = some g) (hfull : free g = false)
      (hsrc : c.after idx = src) : Round c free src idx [idx] (c.after idx) none
  | next {idx g idx' : ℕ} {seen : List ℕ} {o : Option ℕ} (hg : c.gates[idx - 1]? = some g)
      (hfull : free g = false) (hsrc : c.after idx ≠ src)
      (t : Round c free src (c.after idx) seen idx' o) :
      Round c free src idx (idx :: seen) idx' o

/-- The index after so many gates of the round. -/
def Counter.nth (c : Counter) (k : ℕ) : ℕ := (c.idx + k) % c.gates.length + 1

section Indices

variable {c : Counter}

theorem nth_le (hn : c.gates ≠ []) (k : ℕ) : c.nth k ≤ c.gates.length :=
  Nat.mod_lt _ (List.length_pos_iff.2 hn)

theorem after_nth (hn : c.gates ≠ []) (k : ℕ) : c.after (c.nth k) = c.nth (k + 1) := by
  have hlt := Nat.mod_lt (c.idx + k) (List.length_pos_iff.2 hn)
  have hnext : c.nth (k + 1) = ((c.idx + k) % c.gates.length + 1) % c.gates.length + 1 := by
    rw [Counter.nth, Nat.mod_add_mod, Nat.add_assoc]
  rw [hnext, Counter.after, Counter.nth]
  split
  · rename_i hwrap
    rw [show (c.idx + k) % c.gates.length + 1 = c.gates.length by omega, Nat.mod_self]
  · rename_i hroom
    rw [Nat.mod_eq_of_lt (by omega : (c.idx + k) % c.gates.length + 1 < c.gates.length)]

/-- The round begins just after the index. -/
theorem after_idx (h : c.idx ≤ c.gates.length) : c.after c.idx = c.nth 0 := by
  have hfirst : c.nth 0 = c.idx % c.gates.length + 1 := rfl
  rw [hfirst, Counter.after]
  split
  · rename_i hwrap
    rw [Nat.le_antisymm h (Nat.le_of_lt_succ hwrap), Nat.mod_self]
  · rename_i hroom
    rw [Nat.mod_eq_of_lt (by omega : c.idx < c.gates.length)]

/-- The gates of a round are different ones. -/
theorem nth_inj {j k : ℕ} (hj : j < c.gates.length) (hk : k < c.gates.length)
    (h : c.nth j = c.nth k) : j = k := by
  have hmod : c.idx + j ≡ c.idx + k [MOD c.gates.length] := Nat.succ_injective h
  exact (Nat.ModEq.add_left_cancel' c.idx hmod).eq_of_lt_of_lt hj hk

theorem nth_length : c.nth c.gates.length = c.nth 0 := by
  rw [Counter.nth, Nat.add_mod_right]
  rfl

/-- The gate at an index of the round. -/
theorem gates_nth {k : ℕ} (hk : k < c.gates.length) :
    c.gates[c.nth k - 1]? = (c.gates.rotate c.idx)[k]? := by
  rw [List.getElem?_rotate hk, Counter.nth, Nat.add_sub_cancel, Nat.add_comm k]

end Indices

section Loop

variable {c : Counter} {free : ℕ → Bool} {src rounds idx g : ℕ} (hg : c.gates[idx - 1]? = some g)
include hg

theorem loop_take (hfree : free g = true) :
    c.loop free src (rounds + 1) idx = (idx, some g) := by
  rw [Counter.loop, hg]
  exact if_pos hfree

theorem loop_stop (hfull : free g = false) (hsrc : c.after idx = src) :
    c.loop free src (rounds + 1) idx = (c.after idx, none) := by
  rw [Counter.loop, hg]
  exact (if_neg (by simp [hfull])).trans (if_pos hsrc)

theorem loop_next (hfull : free g = false) (hsrc : c.after idx ≠ src) :
    c.loop free src (rounds + 1) idx = c.loop free src rounds (c.after idx) := by
  rw [Counter.loop, hg]
  exact (if_neg (by simp [hfull])).trans (if_neg hsrc)

end Loop

/-- **The loop ends after at most one round**, with the first free gate of the rest of the round. -/
theorem round_loop {c : Counter} (hn : c.gates ≠ []) (free : ℕ → Bool) {rounds k : ℕ}
    (hk : k + (rounds + 1) = c.gates.length) :
    ∃ m o, k + m ≤ c.gates.length ∧ ∃ idx ≤ c.gates.length,
      c.loop free (c.nth 0) (rounds + 1) (c.nth k) = (idx, o) ∧
      Round c free (c.nth 0) (c.nth k) ((List.range' k m).map c.nth) idx o ∧
      o = ((c.gates.rotate c.idx).drop k).find? free := by
  induction rounds generalizing k with
  | zero =>
      have hlt : k < (c.gates.rotate c.idx).length := by
        rw [List.length_rotate]
        omega
      have hg := (gates_nth (by omega : k < c.gates.length)).trans (List.getElem?_eq_getElem hlt)
      have hrest : (c.gates.rotate c.idx).drop (k + 1) = [] :=
        List.drop_eq_nil_of_le (by rw [List.length_rotate]; omega)
      rw [List.drop_eq_getElem_cons hlt, hrest]
      generalize (c.gates.rotate c.idx)[k] = g at hg ⊢
      cases hfree : free g with
      | true =>
          exact ⟨1, _, by omega, _, nth_le hn k, loop_take hg hfree, Round.take hg hfree,
            (List.find?_cons_of_pos hfree).symm⟩
      | false =>
          -- the round is over
          have hback : c.after (c.nth k) = c.nth 0 := by
            rw [after_nth hn, show k + 1 = c.gates.length by omega, nth_length]
          refine ⟨1, _, by omega, _, ?_, loop_stop hg hfree hback, Round.stop hg hfree hback, ?_⟩
          · rw [hback]
            exact nth_le hn 0
          · rw [List.find?_cons_of_neg (by simp [hfree])]
            rfl
  | succ rounds ih =>
      have hlt : k < (c.gates.rotate c.idx).length := by
        rw [List.length_rotate]
        omega
      have hg := (gates_nth (by omega : k < c.gates.length)).trans (List.getElem?_eq_getElem hlt)
      rw [List.drop_eq_getElem_cons hlt]
      generalize (c.gates.rotate c.idx)[k] = g at hg ⊢
      cases hfree : free g with
      | true =>
          exact ⟨1, _, by omega, _, nth_le hn k, loop_take hg hfree, Round.take hg hfree,
            (List.find?_cons_of_pos hfree).symm⟩
      | false =>
          have hon : c.after (c.nth k) ≠ c.nth 0 := by
            rw [after_nth hn]
            exact fun heq => absurd (nth_inj (by omega) (by omega) heq) (Nat.succ_ne_zero k)
          obtain ⟨m, o, hm, idx, hidx, hloop, hround, ho⟩ := ih (k := k + 1) (by omega)
          rw [← after_nth hn k] at hloop hround
          refine ⟨m + 1, o, by omega, idx, hidx, (loop_next hg hfree hon).trans hloop, ?_, ?_⟩
          · rw [List.range'_succ, List.map_cons]
            exact Round.next hg hfree hon hround
          · rw [List.find?_cons_of_neg (by simp [hfree])]
            exact ho

/-- **The gate chosen is the first free one in the order of the round**, which begins just after the
index; the loop ends, and inspects no gate twice. -/
theorem next_eq_find? {c : Counter} (hn : c.gates ≠ []) (h : c.idx ≤ c.gates.length)
    (free : ℕ → Bool) :
    (c.next free).2 = (c.gates.rotate c.idx).find? free ∧ (c.next free).1.idx ≤ c.gates.length ∧
      ∃ seen, Round c free (c.after c.idx) (c.after c.idx) seen (c.next free).1.idx
      (c.next free).2 ∧
        seen.Nodup ∧ ∀ i ∈ seen, 1 ≤ i ∧ i ≤ c.gates.length := by
  obtain ⟨rounds, hrounds⟩ := Nat.exists_eq_succ_of_ne_zero (List.length_pos_iff.2 hn).ne'
  obtain ⟨m, o, hm, idx, hidx, hloop, hround, ho⟩ :=
    round_loop hn free (k := 0) ((Nat.zero_add _).trans hrounds.symm)
  have hnext : c.next free = ({ c with idx := idx }, o) := by
    rw [Counter.next, after_idx h, hrounds, hloop]
  rw [hnext, after_idx h]
  refine ⟨ho.trans (by rw [List.drop_zero]), hidx, _, hround, ?_, fun i hi => ?_⟩
  · refine List.Nodup.map_on (fun j hj k hk heq => ?_) List.nodup_range'
    rw [List.mem_range'_1] at hj hk
    exact nth_inj (by omega) (by omega) heq
  · obtain ⟨k, -, rfl⟩ := List.mem_map.1 hi
    exact ⟨Nat.succ_pos _, nth_le hn k⟩

/-! ### Calls and logouts -/

/-- What the function that `assign_counter` returns keeps: the gates, and the index into them. -/
structure Closure where
  a : List GateConf
  idx : ℕ := 0
  nonempty : a ≠ []
  idx_le : idx ≤ a.length

namespace Closure

variable (c : Closure)

/-- A gate is known by its place. -/
def counter : Counter := ⟨List.range c.a.length, c.idx⟩

/-- `g.client < g.maxclient`. -/
def free (i : ℕ) : Bool := c.a[i]?.any fun g => g.client < g.maxclient

/-- Changing the counter of a gate. -/
def addClient (i : ℕ) (n : ℤ) : Closure where
  a := c.a.modify i fun g => { g with client := g.client + n }
  idx := c.idx
  nonempty := fun h => c.nonempty (List.length_eq_zero_iff.1 (by
    rw [← List.length_modify, h, List.length_nil]))
  idx_le := by
    rw [List.length_modify]
    exact c.idx_le

theorem counter_gates_ne : c.counter.gates ≠ [] := by
  rw [counter, ne_eq, List.range_eq_nil, List.length_eq_zero_iff]
  exact c.nonempty

theorem counter_idx_le : c.counter.idx ≤ c.counter.gates.length := by
  rw [counter, List.length_range]
  exact c.idx_le

/-- The index after a call. -/
def moved : Closure where
  a := c.a
  idx := (c.counter.next c.free).1.idx
  nonempty := c.nonempty
  idx_le := by
    have h := (next_eq_find? c.counter_gates_ne c.counter_idx_le c.free).2.1
    rwa [counter, List.length_range] at h

/-- **A call of the function that `assign_counter` returns.** -/
def call : Closure × Option ℕ :=
  match (c.counter.next c.free).2 with
  | none => (c.moved, none)
  | some i => (c.moved.addClient i 1, some i)

/-- A call, or a logout from a gate. -/
inductive Op where
  | call
  | logout (i : ℕ)

def step : Op → Closure
  | .call => c.call.1
  | .logout i => c.addClient i (-1)

/-- Calls and logouts, one after the other. -/
def run (c : Closure) (ops : List Op) : Closure := ops.foldl step c

/-- **What a call does**: the loop comes to an end and inspects no gate twice; a gate is returned
exactly if some gate has room, namely the first one that has in cyclic order from just after the
index; its counter goes up by one, and no other changes; and it does not go above `maxclient`. -/
structure Assigns : Prop where
  ends : ∃ seen, Round c.counter c.free (c.counter.after c.idx) (c.counter.after c.idx) seen
    c.call.1.idx
    c.call.2 ∧ seen.Nodup ∧ ∀ i ∈ seen, 1 ≤ i ∧ i ≤ c.a.length
  isSome_iff : c.call.2.isSome = true ↔ ∃ g ∈ c.a, g.client < g.maxclient
  first : c.call.2 = ((List.range c.a.length).rotate c.idx).find? c.free
  raises : ∀ i, c.call.1.a[i]? =
    if c.call.2 = some i then c.a[i]?.map fun g => { g with client := g.client + 1 } else c.a[i]?
  bounded : ∀ i g, c.call.2 = some i → c.call.1.a[i]? = some g → g.client ≤ g.maxclient

theorem call_snd : c.call.2 = (c.counter.next c.free).2 := by
  rw [call]
  split <;> simp_all

theorem call_idx : c.call.1.idx = (c.counter.next c.free).1.idx := by
  rw [call]
  split <;> rfl

theorem call_getElem? (i : ℕ) : c.call.1.a[i]? =
    if c.call.2 = some i then c.a[i]?.map fun g => { g with client := g.client + 1 }
    else c.a[i]? := by
  rw [c.call_snd, call]
  cases h : (c.counter.next c.free).2 with
  | none => rfl
  | some j =>
      show (c.a.modify j _)[i]? = _
      rw [List.getElem?_modify]
      by_cases hji : j = i <;> simp [hji]

theorem free_iff {i : ℕ} : c.free i = true ↔ ∃ g, c.a[i]? = some g ∧ g.client < g.maxclient := by
  rw [free]
  cases c.a[i]? <;> simp

theorem assigns : c.Assigns := by
  obtain ⟨hfind, -, seen, hround, hnodup, hseen⟩ :=
    next_eq_find? c.counter_gates_ne c.counter_idx_le c.free
  rw [← call_snd] at hfind hround
  rw [← call_idx] at hround
  refine ⟨⟨seen, hround, hnodup, fun i hi => ?_⟩, ?_, hfind, c.call_getElem?, fun i g hi hg => ?_⟩
  · have hle := hseen i hi
    rwa [counter, List.length_range] at hle
  · rw [hfind, List.find?_isSome]
    simp only [List.mem_rotate, free_iff]
    constructor
    · rintro ⟨i, -, g, hg, hlt⟩
      exact ⟨g, List.mem_of_getElem? hg, hlt⟩
    · rintro ⟨g, hg, hlt⟩
      obtain ⟨i, hi⟩ := List.getElem?_of_mem hg
      exact ⟨i, List.mem_range.2 (List.getElem?_eq_some_iff.1 hi).1, g, hi, hlt⟩
  · rw [call_getElem?, if_pos hi] at hg
    obtain ⟨g', hg', rfl⟩ := Option.map_eq_some_iff.1 hg
    obtain ⟨g, hfree, hlt⟩ := c.free_iff.1 (List.find?_some (hfind ▸ hi))
    obtain rfl := Option.some_inj.1 (hfree.symm.trans hg')
    exact Int.add_one_le_of_lt hlt

/-- **What a call does after calls and logouts of any number**, from any place of the index. -/
theorem assigns_run (c : Closure) (ops : List Op) : (c.run ops).Assigns := (c.run ops).assigns

end Closure

/-- **What that means for `assign_gate`.** -/
theorem assignGate_eq_find? {s : Server} {app platform : String} {c : Counter}
    (hc : s.gateCounter.lookup (app ++ "." ++ platform) = some c) (hn : c.gates ≠ [])
    (h : c.idx ≤ c.gates.length) :
    (assignGate s app platform).2 = (c.gates.rotate c.idx).find? s.free := by
  rw [← (next_eq_find? hn h s.free).1, assignGate]
  simp only [hc]
  split
  · rename_i hnone
    exact hnone.symm
  · rename_i g hsome
    exact hsome.symm

end Halieutics.Login
