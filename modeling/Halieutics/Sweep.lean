/-
**Sweeping a list that grows.**

A common pattern of programs that keep a list of open items: walk the list from its first entry,
settle the entries that satisfy a test, collect the others, and put the collected list in the place
of the old one at the end.  The walk may be interrupted between two entries, and new entries may be
appended meanwhile.

This module says what keeps such a program honest: `Sweep.Books` relates the items ever recorded,
those settled and those on the list, and `Sweep.Swept` does so while a walk is under way.  As long
as there is at most one walk, and nothing is appended after its last entry, no item is settled twice
and none is forgotten.

Main definitions:

* `Sweep.Books` — every recorded item is settled or on the list, and nothing occurs twice;
* `Sweep.Clear` — in addition, no settled item is on the list;
* `Sweep.Swept` — in addition, the settled items on the list are those a walk has just settled.

Main results:

* `Sweep.Clear.start`, `Sweep.Swept.keep`, `Sweep.Swept.settle`, `Sweep.Swept.finish` — **a walk
  from its beginning to its end**;
* `Sweep.Clear.append`, `Sweep.Swept.append` — a new item.
-/

import Mathlib

set_option relaxedAutoImplicit false
set_option autoImplicit false

namespace Sweep

variable {α : Type}

/-- Every recorded item is settled or on the list, and nothing is settled or listed twice. -/
structure Books (rec settled list : List α) : Prop where
  list_nodup : list.Nodup
  settled_nodup : settled.Nodup
  list_rec : list ⊆ rec
  settled_rec : settled ⊆ rec
  covered : ∀ c ∈ rec, c ∈ settled ∨ c ∈ list

/-- No settled item is on the list. -/
structure Clear (rec settled list : List α) : Prop extends Books rec settled list where
  disjoint : ∀ c ∈ settled, c ∉ list

/-- **A walk for the items that satisfy `sel` is under way**: it has dealt with the first `n`
entries of the list, settled those that satisfy `sel` and collected the others in `kept`. -/
structure Swept (sel : α → Bool) (n : ℕ) (kept : List α) (rec settled list : List α) : Prop
    extends Books rec settled list where
  le_length : n ≤ list.length
  kept_eq : kept = (list.take n).filter fun c => !sel c
  settled_of : ∀ c ∈ list.take n, sel c = true → c ∈ settled
  of_settled : ∀ c ∈ settled, c ∈ list → c ∈ list.take n ∧ sel c = true

variable {sel : α → Bool} {n : ℕ} {kept rec settled list : List α} {c : α}

/-- A walk begins. -/
theorem Clear.start (h : Clear rec settled list) (sel : α → Bool) :
    Swept sel 0 [] rec settled list where
  toBooks := h.toBooks
  le_length := Nat.zero_le _
  kept_eq := by simp
  settled_of := by simp
  of_settled := fun c hc hl => absurd hl (h.disjoint c hc)

/-- The entry at the index of a walk has not been dealt with. -/
theorem Swept.not_mem_take (h : Swept sel n kept rec settled list) (hc : list[n]? = some c) :
    c ∉ list.take n := by
  intro hmem
  obtain ⟨i, hi, hic⟩ := List.getElem_of_mem hmem
  rw [List.length_take] at hi
  rw [List.getElem_take] at hic
  obtain ⟨hn, hnc⟩ := List.getElem?_eq_some_iff.1 hc
  have := (List.Nodup.getElem_inj_iff h.list_nodup).1 (hic.trans hnc.symm)
  omega

theorem take_succ_of_getElem? (hc : list[n]? = some c) :
    list.take (n + 1) = list.take n ++ [c] := by
  rw [List.take_add_one, hc]
  rfl

/-- An entry is collected. -/
theorem Swept.keep (h : Swept sel n kept rec settled list) (hc : list[n]? = some c)
    (hs : sel c = false) : Swept sel (n + 1) (kept ++ [c]) rec settled list where
  toBooks := h.toBooks
  le_length := (List.getElem?_eq_some_iff.1 hc).1
  kept_eq := by
    rw [take_succ_of_getElem? hc, List.filter_append, ← h.kept_eq]
    simp [hs]
  settled_of := by
    intro x hx hsx
    rw [take_succ_of_getElem? hc, List.mem_append, List.mem_singleton] at hx
    rcases hx with hx | rfl
    · exact h.settled_of x hx hsx
    · rw [hs] at hsx; exact absurd hsx (by simp)
  of_settled := by
    intro x hx hl
    rw [take_succ_of_getElem? hc]
    exact ⟨List.mem_append_left _ (h.of_settled x hx hl).1, (h.of_settled x hx hl).2⟩

/-- An entry is settled. -/
theorem Swept.settle (h : Swept sel n kept rec settled list) (hc : list[n]? = some c)
    (hs : sel c = true) : Swept sel (n + 1) kept rec (c :: settled) list where
  list_nodup := h.list_nodup
  settled_nodup := by
    refine List.nodup_cons.2 ⟨fun hmem => ?_, h.settled_nodup⟩
    exact h.not_mem_take hc (h.of_settled c hmem (List.mem_of_getElem? hc)).1
  list_rec := h.list_rec
  settled_rec := List.cons_subset.2 ⟨h.list_rec (List.mem_of_getElem? hc), h.settled_rec⟩
  covered := fun x hx => (h.covered x hx).imp_left (List.mem_cons_of_mem c)
  le_length := (List.getElem?_eq_some_iff.1 hc).1
  kept_eq := by
    rw [take_succ_of_getElem? hc, List.filter_append, ← h.kept_eq]
    simp [hs]
  settled_of := by
    intro x hx hsx
    rw [take_succ_of_getElem? hc, List.mem_append, List.mem_singleton] at hx
    rcases hx with hx | rfl
    · exact List.mem_cons_of_mem _ (h.settled_of x hx hsx)
    · exact List.mem_cons_self
  of_settled := by
    intro x hx hl
    rw [take_succ_of_getElem? hc]
    rcases List.mem_cons.1 hx with rfl | hx
    · exact ⟨by simp, hs⟩
    · exact ⟨List.mem_append_left _ (h.of_settled x hx hl).1, (h.of_settled x hx hl).2⟩

/-- **A walk ends**: the collected list takes the place of the old one. -/
theorem Swept.finish (h : Swept sel n kept rec settled list) (hn : list.length ≤ n) :
    Clear rec settled kept := by
  have hkept : kept = list.filter fun c => !sel c := by rw [h.kept_eq, List.take_of_length_le hn]
  have htake : list.take n = list := List.take_of_length_le hn
  refine { list_nodup := ?_, settled_nodup := h.settled_nodup, list_rec := ?_,
           settled_rec := h.settled_rec, covered := ?_, disjoint := ?_ }
  · rw [hkept]; exact h.list_nodup.filter _
  · rw [hkept]; exact fun x hx => h.list_rec (List.mem_of_mem_filter hx)
  · intro x hx
    rcases h.covered x hx with hs | hl
    · exact Or.inl hs
    · cases hsel : sel x with
      | true => exact Or.inl (h.settled_of x (by rwa [htake]) hsel)
      | false => exact Or.inr (by rw [hkept]; simp [hl, hsel])
  · intro x hx hk
    rw [hkept, List.mem_filter] at hk
    have := (h.of_settled x hx hk.1).2
    simp [this] at hk

/-- A new item is put on the list. -/
theorem Books.append (h : Books rec settled list) (hc : c ∉ rec) :
    Books (c :: rec) settled (list ++ [c]) where
  list_nodup := by
    refine List.nodup_append.2 ⟨h.list_nodup, List.nodup_singleton _, ?_⟩
    intro a ha b hb hab
    rw [List.mem_singleton] at hb
    exact hc (by rw [← hb, ← hab]; exact h.list_rec ha)
  settled_nodup := h.settled_nodup
  list_rec := by
    intro x hx
    rcases List.mem_append.1 hx with hx | hx
    · exact List.mem_cons_of_mem _ (h.list_rec hx)
    · exact List.mem_cons.2 (Or.inl (List.mem_singleton.1 hx))
  settled_rec := fun x hx => List.mem_cons_of_mem _ (h.settled_rec hx)
  covered := by
    intro x hx
    rcases List.mem_cons.1 hx with rfl | hx
    · exact Or.inr (by simp)
    · exact (h.covered x hx).imp_right (List.mem_append_left _)

theorem Clear.append (h : Clear rec settled list) (hc : c ∉ rec) :
    Clear (c :: rec) settled (list ++ [c]) where
  toBooks := h.toBooks.append hc
  disjoint := by
    intro x hx hl
    rcases List.mem_append.1 hl with hl | hl
    · exact h.disjoint x hx hl
    · rw [List.mem_singleton.1 hl] at hx
      exact hc (h.settled_rec hx)

/-- A new item is put on the list while a walk is under way. -/
theorem Swept.append (h : Swept sel n kept rec settled list) (hc : c ∉ rec) :
    Swept sel n kept (c :: rec) settled (list ++ [c]) where
  toBooks := h.toBooks.append hc
  le_length := by rw [List.length_append]; exact Nat.le_add_right_of_le h.le_length
  kept_eq := by rw [List.take_append_of_le_length h.le_length]; exact h.kept_eq
  settled_of := by rw [List.take_append_of_le_length h.le_length]; exact h.settled_of
  of_settled := by
    intro x hx hl
    rw [List.take_append_of_le_length h.le_length]
    rcases List.mem_append.1 hl with hl | hl
    · exact h.of_settled x hx hl
    · rw [List.mem_singleton.1 hl] at hx
      exact absurd (h.settled_rec hx) hc

end Sweep
