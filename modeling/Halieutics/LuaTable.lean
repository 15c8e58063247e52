/-
**Lua tables.**

A Lua table used as a dictionary is a finite map with at most one value for a key; Mathlib's
association lists without repeated keys are exactly that, and their list of entries is one of the
orders in which `pairs` may visit the table.  This module adds what a program does with such a
table besides looking up, inserting and erasing: taking its values, counting them, and changing
every value in place.

Main definitions:

* `LuaTable.Table` — a dictionary;
* `LuaTable.vals` — its values, in the order of `pairs`;
* `LuaTable.mapVals` — changing every value in place.

Main results:

* `LuaTable.lookup_insert_eq`, `LuaTable.lookup_erase_eq` — reading after writing, as one rewrite;
* `LuaTable.mem_vals` — a value occurs exactly if some key has it;
* `LuaTable.entries_insert`, `LuaTable.entries_perm_erase` — what writing and erasing a key do to
  the entries, and `LuaTable.vals_insert`, `LuaTable.vals_perm_erase` — to the values.
-/

import Mathlib

set_option relaxedAutoImplicit false
set_option autoImplicit false

namespace LuaTable

/-- A Lua table used as a dictionary. -/
abbrev Table (κ β : Type) := AList fun _ : κ => β

variable {κ β γ : Type}

/-- The values of a table, in the order of `pairs`. -/
def vals (t : Table κ β) : List β := t.entries.map fun e => e.2

/-- Changing every value in place. -/
def mapVals (f : β → γ) (t : Table κ β) : Table κ γ :=
  ⟨t.entries.map fun e => ⟨e.1, f e.2⟩, by
    have h : (t.entries.map fun e => (⟨e.1, f e.2⟩ : Sigma fun _ : κ => γ)).keys
        = t.entries.keys := by simp [List.keys, Function.comp_def]
    rw [List.NodupKeys, h]
    exact t.nodupKeys⟩

@[simp] theorem vals_empty : vals (∅ : Table κ β) = [] := rfl

@[simp] theorem vals_mapVals (f : β → γ) (t : Table κ β) : vals (mapVals f t) = (vals t).map f := by
  simp [vals, mapVals]

variable [DecidableEq κ]

theorem lookup_insert_eq (t : Table κ β) (k k' : κ) (v : β) :
    (t.insert k v).lookup k' = if k' = k then some v else t.lookup k' := by
  by_cases h : k' = k
  · rw [if_pos h, h, AList.lookup_insert]
  · rw [if_neg h, AList.lookup_insert_ne h]

theorem lookup_erase_eq (t : Table κ β) (k k' : κ) :
    (t.erase k).lookup k' = if k' = k then none else t.lookup k' := by
  by_cases h : k' = k
  · rw [if_pos h, h, AList.lookup_erase]
  · rw [if_neg h, AList.lookup_erase_ne h]

/-- A value occurs in a table exactly if some key has it. -/
theorem mem_vals {t : Table κ β} {v : β} : v ∈ vals t ↔ ∃ k, t.lookup k = some v := by
  constructor
  · intro h
    obtain ⟨e, he, rfl⟩ := List.mem_map.1 h
    exact ⟨e.1, AList.mem_lookup_iff.2 he⟩
  · rintro ⟨k, hk⟩
    exact List.mem_map.2 ⟨⟨k, v⟩, AList.mem_lookup_iff.1 hk, rfl⟩

/-- Writing a fresh key adds one value. -/
theorem vals_insert {t : Table κ β} {k : κ} {v : β} (h : t.lookup k = none) :
    vals (t.insert k v) = v :: vals t := by
  rw [vals, AList.entries_insert_of_notMem (AList.lookup_eq_none.1 h)]
  rfl

/-- Writing a key moves its entry to the front. -/
theorem entries_insert (t : Table κ β) (k : κ) (v : β) :
    (t.insert k v).entries = ⟨k, v⟩ :: (t.erase k).entries := rfl

/-- Erasing a key removes its entry. -/
theorem entries_perm_erase {t : Table κ β} {k : κ} {v : β} (h : t.lookup k = some v) :
    t.entries.Perm (⟨k, v⟩ :: (t.erase k).entries) := by
  have he : (⟨k, v⟩ : Sigma fun _ : κ => β) ∈ t.entries := AList.mem_lookup_iff.1 h
  obtain ⟨b, l₁, l₂, hn, hl, hk⟩ := List.exists_of_kerase (List.mem_keys_of_mem he)
  have hb : (⟨k, b⟩ : Sigma fun _ : κ => β) ∈ t.entries := by rw [hl]; simp
  have hbv : b = v := by
    have := AList.mem_lookup_iff.2 hb
    rw [Option.mem_def, h, Option.some_inj] at this
    exact this.symm
  subst hbv
  have hers : (t.erase k).entries = l₁ ++ l₂ := hk
  rw [hl, hers]
  exact List.perm_middle

/-- Erasing a key that is not there does nothing. -/
theorem entries_erase_of_none {t : Table κ β} {k : κ} (h : t.lookup k = none) :
    (t.erase k).entries = t.entries :=
  List.kerase_of_notMem_keys (AList.lookup_eq_none.1 h)

/-- Erasing a key removes its value. -/
theorem vals_perm_erase {t : Table κ β} {k : κ} {v : β} (h : t.lookup k = some v) :
    (vals t).Perm (v :: vals (t.erase k)) :=
  (entries_perm_erase h).map _

theorem lookup_isSome_iff_mem_keys {t : Table κ β} {k : κ} :
    (t.lookup k).isSome ↔ k ∈ t.keys := by
  rw [AList.lookup_isSome, AList.mem_keys]

end LuaTable
