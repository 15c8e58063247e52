/-
**Blocks of memory.**

A block is a list of cells.  Reading from it and writing to it, at an offset, have no value where
they leave the block.  What is at an offset of a block is a relation, and a write leaves alone what
is before and behind it.

Main definitions:

* `Blocks.load`, `Blocks.store` — reading and writing;
* `Blocks.At` — **what is at an offset**.

Main results:

* `Blocks.exists_store` — **a write inside the block**, and what it leaves alone;
* `Blocks.at_append` — two things behind each other.
-/

import Mathlib.Data.List.Basic

set_option relaxedAutoImplicit false
set_option autoImplicit false

namespace Blocks

variable {α : Type} {b b' : List α} {i j n : ℕ} {u v : List α}

/-- Reading `n` cells. -/
def load (b : List α) (i n : ℕ) : Option (List α) :=
  if i + n ≤ b.length then some ((b.drop i).take n) else none

/-- Writing cells. -/
def store (b : List α) (i : ℕ) (v : List α) : Option (List α) :=
  if i + v.length ≤ b.length then some (b.take i ++ v ++ b.drop (i + v.length)) else none

/-- **The cells `v` are at the offset `i`.** -/
def At (b : List α) (i : ℕ) (v : List α) :
    Prop := i + v.length ≤ b.length ∧ (b.drop i).take v.length = v

theorem load_eq_some_iff : load b i n = some v ↔ v.length = n ∧ At b i v := by
  unfold load At
  constructor
  · intro h
    split at h
    · rename_i hle
      obtain rfl := Option.some_inj.1 h
      have hlen : ((b.drop i).take n).length = n := by
        rw [List.length_take, List.length_drop]
        omega
      exact ⟨hlen, by rw [hlen]; exact hle, by rw [hlen]⟩
    · cases h
  · rintro ⟨rfl, hle, htake⟩
    rw [if_pos hle, htake]

theorem at_nil (h : i ≤ b.length) : At b i [] := ⟨h, rfl⟩

theorem at_self (b : List α) : At b 0 b := ⟨Nat.le_of_eq (Nat.zero_add _), List.take_length⟩

/-- What is at an offset, cell by cell. -/
theorem at_iff_getElem? : At b i v ↔ i + v.length ≤ b.length ∧ ∀ k < v.length,
    b[i + k]? = v[k]? := by
  refine and_congr_right fun hle => ⟨fun h k hk => ?_, fun h => List.ext_getElem? fun k => ?_⟩
  · have hcell : ((b.drop i).take v.length)[k]? = v[k]? := by rw [h]
    rw [List.getElem?_take, if_pos hk, List.getElem?_drop] at hcell
    exact hcell
  · rw [List.getElem?_take]
    split
    · rename_i hk
      rw [List.getElem?_drop, h k hk]
    · rename_i hk
      rw [List.getElem?_eq_none (by omega)]

/-- **Two things behind each other.** -/
theorem at_append : At b i (u ++ v) ↔ At b i u ∧ At b (i + u.length) v := by
  simp only [at_iff_getElem?, List.length_append]
  constructor
  · rintro ⟨hle, h⟩
    refine ⟨⟨by omega, fun k hk => ?_⟩, by omega, fun k hk => ?_⟩
    · rw [h k (by omega), List.getElem?_append_left hk]
    · rw [Nat.add_assoc, h (u.length + k) (by omega), List.getElem?_append_right (by omega),
        Nat.add_sub_cancel_left]
  · rintro ⟨⟨hu, h⟩, hv, h'⟩
    refine ⟨by omega, fun k hk => ?_⟩
    rcases Nat.lt_or_ge k u.length with hk' | hk'
    · rw [h k hk', List.getElem?_append_left hk']
    · rw [List.getElem?_append_right hk', ← h' (k - u.length) (by omega)]
      congr 1
      omega

/-- **A write inside the block**, and what it leaves alone. -/
theorem exists_store (h : i + v.length ≤ b.length) :
    ∃ b', store b i v = some b' ∧ b'.length = b.length ∧ At b' i v ∧
    ∀ j u, At b j u → j + u.length ≤ i ∨ i + v.length ≤ j → At b' j u := by
  have hlen : (b.take i).length = i := by
    rw [List.length_take]
    omega
  have htotal : (b.take i ++ v ++ b.drop (i + v.length)).length = b.length := by
    rw [List.length_append, List.length_append, hlen, List.length_drop]
    omega
  refine ⟨_, if_pos h, htotal, ?_, fun j u hu hout => ?_⟩
  · have hat := (at_append (i := 0) (u := b.take i ++ v) (v := b.drop (i + v.length))).1 (at_self _)
    have hat := (at_append.1 hat.1).2
    rw [Nat.zero_add, hlen] at hat
    exact hat
  · rw [at_iff_getElem?] at hu ⊢
    refine ⟨by rw [htotal]; exact hu.1, fun k hk => ?_⟩
    rw [← hu.2 k hk]
    rcases hout with hout | hout
    · rw [List.getElem?_append_left (by rw [List.length_append, hlen]; omega),
        List.getElem?_append_left (by rw [hlen]; omega), List.getElem?_take, if_pos (by omega)]
    · rw [List.getElem?_append_right (by rw [List.length_append, hlen]; omega),
        List.length_append, hlen,
        List.getElem?_drop]
      congr 1
      omega

theorem At.take (h : At b 0 v) : b.take v.length = v := h.2

end Blocks
