/-
**Binary search, and arrays that are kept sorted.**

The usual search of a C program keeps the first and the last index at which the element may be; the
last one is `-1` in an empty array.  What is there is known through the comparison with the element
only: first the lesser ones, then perhaps the element, then the greater ones.  An insertion moves
what is behind up by one, from the end, or copies both parts into a larger array; a removal moves
what is kept to the front.

Main definitions:

* `BinarySearch.search` — **the search**;
* `BinarySearch.shift`, `BinarySearch.copy` — what an insertion moves;
* `BinarySearch.Ascending` — first the lesser ones, then the greater ones.

Main results:

* `BinarySearch.search_spec` — **the index of the element, or where it belongs**;
* `BinarySearch.getD_shift`, `BinarySearch.getD_copy` — where everything is afterwards.
-/

import Mathlib.Data.List.Basic
import Mathlib.Data.Int.Notation
import Mathlib.Data.Nat.Notation
import Mathlib.Tactic.Common

set_option relaxedAutoImplicit false
set_option autoImplicit false

namespace BinarySearch

/-! ### The search -/

/-- What is found: the index of the element, or where it belongs. -/
inductive Result where
  | found (i : ℕ)
  | missing (i : ℕ)

/-- **The search** between two indices, for so many rounds at most. -/
def search (cmp : ℕ → Ordering) : ℕ → ℕ → ℤ → Result
  | 0, first, _ => .missing first
  | rounds + 1, first, last =>
      if (first : ℤ) ≤ last then
        let mid := ((first + last) / 2).toNat
        match cmp mid with
        | .eq => .found mid
        | .lt => search cmp rounds (mid + 1) last
        | .gt => search cmp rounds first (mid - 1)
      else .missing first

/-- First the lesser ones, then the greater ones, of `n`. -/
structure Ascending (cmp : ℕ → Ordering) (n : ℕ) : Prop where
  below : ∀ i j, i < j → j < n → cmp j ≠ .gt → cmp i = .lt
  above : ∀ i j, i < j → j < n → cmp i ≠ .lt → cmp j = .gt

/-- The element is there, or belongs there. -/
def Result.Right (cmp : ℕ → Ordering) (n : ℕ) : Result → Prop
  | .found i => i < n ∧ cmp i = .eq
  | .missing b => b ≤ n ∧ (∀ i < b, cmp i = .lt) ∧ ∀ i, b ≤ i → i < n → cmp i = .gt

/-- What is left of the search lies between what is known. -/
theorem search_between {cmp : ℕ → Ordering} {n : ℕ} (h : Ascending cmp n) (rounds : ℕ) :
    ∀ (first : ℕ) (last : ℤ), last < n → first ≤ last + 1 → last + 1 - first < rounds →
      (∀ i < first, cmp i = .lt) → (∀ i : ℕ, last < i → i < n → cmp i = .gt) →
      (search cmp rounds first last).Right cmp n := by
  induction rounds with
  | zero =>
      intro first last _ _ hr
      omega
  | succ rounds ih =>
      intro first last hn hle hr hlow hhigh
      rw [search]
      split_ifs with hmore
      · -- the middle lies between the two
        obtain ⟨mid, hmid⟩ : ∃ mid : ℕ, ((first + last) / 2).toNat = mid := ⟨_, rfl⟩
        have hbetween : first ≤ mid ∧ (mid : ℤ) ≤ last := by omega
        dsimp only
        rw [hmid]
        cases hcmp : cmp mid with
        | eq => exact ⟨by omega, hcmp⟩
        | lt =>
            refine ih (mid + 1) last hn (by omega) (by omega) (fun i hi => ?_) hhigh
            rcases Nat.lt_or_eq_of_le (Nat.le_of_lt_succ hi) with hi | rfl
            · exact h.below i mid hi (by omega) (by rw [hcmp]; decide)
            · exact hcmp
        | gt =>
            refine ih first (mid - 1) (by omega) (by omega) (by omega) hlow (fun i hi hin => ?_)
            rcases Nat.lt_or_eq_of_le (show mid ≤ i by omega) with hi | rfl
            · exact h.above mid i hi hin (by rw [hcmp]; decide)
            · exact hcmp
      · exact ⟨by omega, hlow, fun i hi hin => hhigh i (by omega) hin⟩

/-- **The index of the element, or where it belongs.** -/
theorem search_spec {cmp : ℕ → Ordering} {n : ℕ} (h : Ascending cmp n) :
    (search cmp (n + 1) 0 (n - 1)).Right cmp n :=
  search_between h (n + 1) 0 (n - 1) (by omega) (by omega) (by omega)
    (fun i hi => absurd hi (Nat.not_lt_zero i))
    fun i hi hin => by omega

/-! ### Moving -/

variable {α : Type}

/-- `n` elements from `first` on are moved up by one, the last one first. -/
def shift (first : ℕ) : ℕ → List (Option α) → List (Option α)
  | 0, l => l
  | n + 1, l => shift first n (l.set (first + n + 1) (l.getD (first + n) none))

/-- `n` elements from `first` on are copied, each so many places further. -/
def copy (source : List (Option α)) (off first : ℕ) : ℕ → List (Option α) → List (Option α)
  | 0, l => l
  | n + 1, l => copy source off (first + 1) n (l.set (first + off) (source.getD first none))

@[simp] theorem length_shift (first n : ℕ) (l : List (Option α)) :
    (shift first n l).length = l.length := by
  induction n generalizing l with
  | zero => rfl
  | succ n ih => rw [shift, ih, List.length_set]

@[simp] theorem length_copy (source : List (Option α)) (off first n : ℕ) (l : List (Option α)) :
    (copy source off first n l).length = l.length := by
  induction n generalizing first l with
  | zero => rfl
  | succ n ih => rw [copy, ih, List.length_set]

theorem getD_set (l : List (Option α)) (i : ℕ) (a : Option α) (k : ℕ) :
    (l.set i a).getD k none = if i = k ∧ k < l.length then a else l.getD k none := by
  rw [List.getD_eq_getElem?_getD, List.getElem?_set, List.getD_eq_getElem?_getD]
  by_cases hik : i = k
  · subst hik
    by_cases hk : i < l.length
    · rw [if_pos rfl, if_pos hk, if_pos ⟨rfl, hk⟩]
      rfl
    · rw [if_pos rfl, if_neg hk, if_neg fun h => hk h.2,
        List.getElem?_eq_none (Nat.le_of_not_lt hk)]
  · rw [if_neg hik, if_neg fun h => hik h.1]

/-- Where everything is after it has been moved. -/
theorem getD_shift (first n : ℕ) (l : List (Option α)) (h : first + n < l.length) (k : ℕ) :
    (shift first n l).getD k none = if first < k ∧ k ≤ first + n then l.getD (k - 1) none
    else l.getD k none := by
  induction n generalizing l with
  | zero =>
      rw [shift, if_neg (by omega)]
  | succ n ih =>
      rw [shift, ih _ (by rw [List.length_set]; omega), getD_set, getD_set]
      by_cases hk : first < k ∧ k ≤ first + n
      · rw [if_pos hk, if_neg (by omega), if_pos (by omega)]
      · rw [if_neg hk]
        by_cases hlast : first + n + 1 = k
        · subst hlast
          rw [if_pos ⟨rfl, by omega⟩, if_pos (by omega)]
          rfl
        · rw [if_neg (by omega), if_neg (by omega)]

/-- And after it has been copied. -/
theorem getD_copy (source : List (Option α)) (off n : ℕ) :
    ∀ (first : ℕ) (l : List (Option α)), first + off + n ≤ l.length → ∀ k,
      (copy source off first n l).getD k none =
        if first + off ≤ k ∧ k < first + off + n then source.getD (k - off) none
        else l.getD k none := by
  induction n with
  | zero =>
      intro first l _ k
      rw [copy, if_neg (by omega)]
  | succ n ih =>
      intro first l h k
      rw [copy, ih (first + 1) _ (by rw [List.length_set]; omega), getD_set]
      by_cases hfirst : first + off = k
      · subst hfirst
        rw [if_neg (by omega), if_pos ⟨rfl, by omega⟩, if_pos (by omega), Nat.add_sub_cancel]
      · by_cases hk : first + 1 + off ≤ k ∧ k < first + 1 + off + n
        · rw [if_pos hk, if_pos (by omega)]
        · rw [if_neg hk, if_neg (by omega), if_neg (by omega)]

end BinarySearch
