/-
**The names of services: `skynet-src/skynet_handle.c`.**

The storage of handles keeps the names in an array sorted by `strcmp`, in which
`skynet_handle_findname` and `_insert_name` search; `_insert_name_before` moves what is behind the
new name, into an array of twice the size when this one is full; `skynet_handle_retire` moves the
names that are kept to the front.

Main definitions:

* `Halieutics.SkynetHandle.Storage` — **the storage**, as far as names are concerned;
* `Halieutics.SkynetHandle.namehandle`, `Halieutics.SkynetHandle.findname`,
  `Halieutics.SkynetHandle.retire` — **what is done with it**;
* `Halieutics.SkynetHandle.Names` — what it is for: a handle for each name.

Main results:

* `Halieutics.SkynetHandle.findname_run` — **a name is found until its service has ended**.
-/

import Mathlib.Tactic.Ring
import Mathlib.Order.Compare
import Mathlib.Logic.Function.Basic
import Halieutics.BinarySearch

set_option relaxedAutoImplicit false
set_option autoImplicit false

namespace Halieutics.SkynetHandle

open BinarySearch

variable {ν : Type}

/-! ### The storage -/

/-- `struct handle_name`. -/
structure HandleName (ν : Type) where
  name : ν
  handle : ℕ

/-- **`struct handle_storage`**; what has not been written in the array is `none`. -/
structure Storage (ν : Type) where
  nameCap : ℕ := 2
  nameCount : ℕ := 0
  name : List (Option (HandleName ν)) := [none, none]

/-- `MAX_SLOT_SIZE`. -/
def maxSlotSize : ℕ := 0x40000000

/-- **`_insert_name_before`**; `none` when the assertion fails. -/
def insertNameBefore (s : Storage ν) (name : ν) (handle before : ℕ) : Option (Storage ν) :=
  if s.nameCap ≤ s.nameCount then
    let cap := s.nameCap * 2
    if cap ≤ maxSlotSize then
      let n := copy s.name 0 0 before (List.replicate cap none)
      let n := copy s.name 1 before (s.nameCount - before) n
      some ⟨cap, s.nameCount + 1, n.set before (some ⟨name, handle⟩)⟩
    else none
  else
    let n := shift before (s.nameCount - before) s.name
    some { s with nameCount := s.nameCount + 1, name := n.set before (some ⟨name, handle⟩) }

/-- The loop of `skynet_handle_retire`, from the index `i` on, with the names kept before `j`. -/
def retireLoop (handle : ℕ) : ℕ → ℕ → ℕ → List (Option (HandleName ν)) →
    List (Option (HandleName ν)) × ℕ
  | 0, _, j, l => (l, j)
  | rounds + 1, i, j, l =>
      if (l.getD i none).any fun e => e.handle = handle then retireLoop handle rounds (i + 1) j l
      else retireLoop handle rounds (i + 1) (j + 1) (if i ≠ j then l.set j (l.getD i none) else l)

/-- **`skynet_handle_retire`**, when the handle is registered. -/
def retire (s : Storage ν) (handle : ℕ) : Storage ν :=
  { s with
    name := (retireLoop handle s.nameCount 0 0 s.name).1
    nameCount := (retireLoop handle s.nameCount 0 0 s.name).2 }

/-! ### Where the names are -/

theorem getElem?_inserted (l : List (HandleName ν)) (e : HandleName ν) {b : ℕ}
    (hb : b ≤ l.length) (k : ℕ) :
    (l.take b ++ e :: l.drop b)[k]? = if k < b then l[k]? else if k = b then some e
    else l[k - 1]? := by
  have hlen : (l.take b).length = b := List.length_take_of_le hb
  rcases Nat.lt_trichotomy k b with hk | hk | hk
  · rw [if_pos hk, List.getElem?_append_left (hlen.symm ▸ hk), List.getElem?_take_of_lt hk]
  · rw [if_neg (by omega), if_pos hk, List.getElem?_append_right (by omega), hlen, hk, Nat.sub_self,
      List.getElem?_cons_zero]
  · obtain ⟨m, rfl⟩ := Nat.exists_eq_add_of_lt hk
    rw [if_neg (by omega), if_neg (by omega), List.getElem?_append_right (by omega), hlen,
      show b + m + 1 - b = m + 1 by omega, List.getElem?_cons_succ, List.getElem?_drop,
      Nat.add_sub_cancel]

/-- The names that are kept are at the front, and the others where they were. -/
theorem retireLoop_spec (handle : ℕ) (l : List (HandleName ν)) (rounds : ℕ) :
    ∀ (i j : ℕ) (n : List (Option (HandleName ν))), i + rounds = l.length → l.length ≤ n.length →
      ((l.take i).filter fun e => e.handle ≠ handle).length = j → (∀ k < j, n.getD k none =
        ((l.take i).filter fun e => e.handle ≠ handle)[k]?) →
        (∀ k, i ≤ k → k < l.length → n.getD k none = l[k]?) →
      (retireLoop handle rounds i j n).1.length = n.length ∧
        (retireLoop handle rounds i j n).2 = (l.filter fun e => e.handle ≠ handle).length ∧
        ∀ k < (l.filter fun e => e.handle ≠ handle).length,
          (retireLoop handle rounds i j n).1.getD k none =
          (l.filter fun e => e.handle ≠ handle)[k]? := by
  induction rounds with
  | zero =>
      intro i j n hi hn hj hfront _
      rw [List.take_of_length_le (by omega)] at hj hfront
      rw [retireLoop]
      exact ⟨rfl, hj.symm, fun k hk => hfront k (hj ▸ hk)⟩
  | succ rounds ih =>
      intro i j n hi hn hj hfront hback
      have hil : i < l.length := by omega
      have hji : j ≤ i := by
        have := List.length_filter_le (fun e => e.handle ≠ handle) (l.take i)
        rw [hj, List.length_take] at this
        omega
      have htake : l.take (i + 1) = l.take i ++ [l[i]] := List.take_succ_eq_append_getElem hil
      have hread : n.getD i none = some l[i] := by
        rw [hback i (Nat.le_refl i) hil, List.getElem?_eq_getElem hil]
      rw [retireLoop, hread]
      by_cases hdrop : l[i].handle = handle
      · have hfilter : ((l.take (i + 1)).filter fun e => e.handle ≠ handle) =
            (l.take i).filter fun e => e.handle ≠ handle := by
          rw [htake, List.filter_append, List.filter_singleton]
          simp [hdrop]
        rw [if_pos (by simp [hdrop])]
        refine ih (i + 1) j n (by omega) hn (hfilter ▸ hj) (hfilter ▸ hfront) fun k hk hkl =>
          hback k (by omega) hkl
      · have hfilter : ((l.take (i + 1)).filter fun e => e.handle ≠ handle) =
            ((l.take i).filter fun e => e.handle ≠ handle) ++ [l[i]] := by
          rw [htake, List.filter_append, List.filter_singleton]
          simp [hdrop]
        rw [if_neg (by simp [hdrop])]
        have hset : ∀ k, (if i ≠ j then n.set j (some l[i]) else n).getD k none =
            if j = k then some l[i] else n.getD k none := by
          intro k
          by_cases hij : i = j
          · rw [if_neg (not_not.mpr hij)]
            by_cases hk : j = k
            · rw [if_pos hk, ← hk, ← hij, hread]
            · rw [if_neg hk]
          · rw [if_pos hij, getD_set]
            by_cases hk : j = k
            · rw [if_pos ⟨hk, by omega⟩, if_pos hk]
            · rw [if_neg (by omega), if_neg hk]
        have hlen : (if i ≠ j then n.set j (some l[i]) else n).length = n.length := by
          split_ifs
          · exact List.length_set
          · rfl
        have h' := ih (i + 1) (j + 1) (if i ≠ j then n.set j (some l[i]) else n)
          (by omega) (by omega)
          (by rw [hfilter, List.length_append, hj]; rfl) (fun k hk => ?_) (fun k hk hkl => ?_)
        · rwa [hlen] at h'
        · rw [hset, hfilter]
          by_cases hkj : j = k
          · rw [if_pos hkj, ← hkj, List.getElem?_append_right (by omega), hj, Nat.sub_self]
            rfl
          · rw [if_neg hkj, List.getElem?_append_left (by omega), hfront k (by omega)]
        · rw [hset, if_neg (by omega), hback k (by omega) hkl]

section Order

variable [LinearOrder ν]

/-- `strcmp` of the name at an index. -/
def strcmp (s : Storage ν) (name : ν) (i : ℕ) :
    Ordering := (s.name.getD i none).elim .gt fun n => compare n.name name

/-- **`skynet_handle_findname`**. -/
def findname (s : Storage ν) (name : ν) : ℕ :=
  match search (strcmp s name) (s.nameCount + 1) 0 (s.nameCount - 1) with
  | .found i => (s.name.getD i none).elim 0 HandleName.handle
  | .missing _ => 0

/-- **`skynet_handle_namehandle`**: `_insert_name`, with whether the name is new. -/
def namehandle (s : Storage ν) (handle : ℕ) (name : ν) : Option (Storage ν × Bool) :=
  match search (strcmp s name) (s.nameCount + 1) 0 (s.nameCount - 1) with
  | .found _ => some (s, false)
  | .missing first => (insertNameBefore s name handle first).map fun s => (s, true)

/-! ### What it is for -/

/-- A handle for each name. -/
abbrev Names (ν : Type) := ν → Option ℕ

/-- What is done with the storage. -/
inductive Op (ν : Type) where
  | name (handle : ℕ) (name : ν)
  | retire (handle : ℕ)

/-- A name is given once; it ends with its service. -/
def Names.after (m : Names ν) : Op ν → Names ν
  | .name handle name => if (m name).isSome then m else Function.update m name (some handle)
  | .retire handle => fun name => if m name = some handle then none else m name

/-- Whether a name is new. -/
def Names.answer (m : Names ν) : Op ν → Bool
  | .name _ name => (m name).isNone
  | .retire _ => true

/-- One operation on the storage, with its answer. -/
def exec (s : Storage ν) : Op ν → Option (Storage ν × Bool)
  | .name handle name => namehandle s handle name
  | .retire handle => some (retire s handle, true)

/-- **A run**, with its answers. -/
def run (s : Storage ν) : List (Op ν) → Option (Storage ν × List Bool)
  | [] => some (s, [])
  | o :: os => (exec s o).bind fun out => (run out.1 os).map fun rest => (rest.1, out.2 :: rest.2)

/-- The names after a run, and the answers. -/
def Names.run (m : Names ν) : List (Op ν) → Names ν × List Bool
  | [] => (m, [])
  | o :: os => (((m.after o).run os).1, m.answer o :: ((m.after o).run os).2)

/-! ### The sorted array -/

/-- **The array holds these names**, in their order. -/
structure Rep (s : Storage ν) (l : List (HandleName ν)) : Prop where
  cap : s.name.length = s.nameCap
  two : ∃ k, s.nameCap = 2 ^ k
  count : s.nameCount = l.length
  le : l.length ≤ s.nameCap
  entry : ∀ i < l.length, s.name.getD i none = l[i]?
  sorted : l.Pairwise fun a b => a.name < b.name

theorem strcmp_eq {s : Storage ν} {l : List (HandleName ν)} (h : Rep s l) (name : ν) {i : ℕ}
    (hi : i < l.length) :
    strcmp s name i = compare l[i].name name := by
  rw [strcmp, h.entry i hi, List.getElem?_eq_getElem hi]
  rfl

theorem Rep.ascending {s : Storage ν} {l : List (HandleName ν)} (h : Rep s l) (name : ν) :
    Ascending (strcmp s name) l.length := by
  have hlt : ∀ i j (hi : i < l.length) (hj : j < l.length), i < j → l[i].name < l[j].name :=
    fun i j hi hj hij =>
    List.pairwise_iff_getElem.mp h.sorted i j hi hj hij
  constructor
  · intro i j hij hj hcmp
    have hi : i < l.length := Nat.lt_trans hij hj
    rw [strcmp_eq h name hj, Ne, compare_gt_iff_gt, not_lt] at hcmp
    rw [strcmp_eq h name hi, compare_lt_iff_lt]
    exact lt_of_lt_of_le (hlt i j hi hj hij) hcmp
  · intro i j hij hj hcmp
    have hi : i < l.length := Nat.lt_trans hij hj
    rw [strcmp_eq h name hi, Ne, compare_lt_iff_lt, not_lt] at hcmp
    rw [strcmp_eq h name hj, compare_gt_iff_gt]
    exact lt_of_le_of_lt hcmp (hlt i j hi hj hij)

/-- What the search finds. -/
theorem Rep.searched {s : Storage ν} {l : List (HandleName ν)} (h : Rep s l) (name : ν) :
    (∃ i, ∃ hi : i < l.length,
    search (strcmp s name) (s.nameCount + 1) 0 (s.nameCount - 1) = .found i ∧
        l[i].name = name) ∨
      ∃ b, search (strcmp s name) (s.nameCount + 1) 0 (s.nameCount - 1) = .missing b ∧
      b ≤ l.length ∧
        (∀ e ∈ l.take b, e.name < name) ∧ ∀ e ∈ l.drop b, name < e.name := by
  have hright := search_spec (h.ascending name)
  rw [← h.count] at hright
  cases hres : search (strcmp s name) (s.nameCount + 1) 0 (s.nameCount - 1) with
  | found i =>
      rw [hres] at hright
      have hi : i < l.length := h.count ▸ hright.1
      refine .inl ⟨i, hi, rfl, ?_⟩
      rw [← compare_eq_iff_eq, ← strcmp_eq h name hi]
      exact hright.2
  | missing b =>
      rw [hres] at hright
      obtain ⟨hb, hlow, hhigh⟩ := hright
      rw [h.count] at hb hhigh
      refine .inr ⟨b, rfl, hb, fun e he => ?_, fun e he => ?_⟩
      · obtain ⟨i, hi, rfl⟩ := List.getElem_of_mem he
        rw [List.length_take] at hi
        have hlt := hlow i (by omega)
        rw [strcmp_eq h name (by omega), compare_lt_iff_lt] at hlt
        rwa [List.getElem_take]
      · obtain ⟨i, hi, rfl⟩ := List.getElem_of_mem he
        rw [List.length_drop] at hi
        have hgt := hhigh (b + i) (by omega) (by omega)
        rw [strcmp_eq h name (by omega), compare_gt_iff_gt] at hgt
        rwa [List.getElem_drop]

/-! ### Insertion -/

/-- A name is written where it belongs, when the others have made room. -/
theorem Rep.write {s : Storage ν} {l : List (HandleName ν)} (h : Rep s l) {name : ν} {handle b : ℕ}
    (hb : b ≤ l.length)
    (hlow : ∀ e ∈ l.take b, e.name < name) (hhigh : ∀ e ∈ l.drop b, name < e.name) {cap : ℕ}
    {n : List (Option (HandleName ν))} (hlen : n.length = cap) (htwo : ∃ k, cap = 2 ^ k)
    (hcap : l.length < cap)
    (hfront : ∀ k < b, n.getD k none = s.name.getD k none)
    (hback : ∀ k, b < k → k ≤ l.length → n.getD k none = s.name.getD (k - 1) none) :
    Rep ⟨cap, s.nameCount + 1, n.set b (some ⟨name, handle⟩)⟩
    (l.take b ++ ⟨name, handle⟩ :: l.drop b) := by
  have hlength : (l.take b ++ ⟨name, handle⟩ :: l.drop b).length = l.length + 1 := by
    rw [List.length_append, List.length_cons, List.length_take_of_le hb, List.length_drop]
    omega
  constructor
  · rw [List.length_set]
    exact hlen
  · exact htwo
  · rw [hlength, h.count]
  · rw [hlength]
    exact hcap
  · intro k hk
    rw [hlength] at hk
    rw [getD_set, getElem?_inserted l _ hb]
    rcases Nat.lt_trichotomy k b with hkb | hkb | hkb
    · rw [if_neg (by omega), if_pos hkb, hfront k hkb, h.entry k (by omega)]
    · rw [if_pos ⟨hkb.symm, by omega⟩, if_neg (by omega), if_pos hkb]
    · rw [if_neg (by omega), if_neg (by omega), if_neg (by omega), hback k hkb (by omega),
        h.entry (k - 1) (by omega)]
  · rw [List.pairwise_append]
    refine ⟨h.sorted.sublist (List.take_sublist b l), ?_, ?_⟩
    · rw [List.pairwise_cons]
      exact ⟨hhigh, h.sorted.sublist (List.drop_sublist b l)⟩
    · intro e he e' he'
      rcases List.mem_cons.mp he' with rfl | he'
      · exact hlow e he
      · exact (hlow e he).trans (hhigh e' he')

/-- **`_insert_name_before` inserts the name.** -/
theorem Rep.insert {s s' : Storage ν} {l : List (HandleName ν)} (h : Rep s l) {name : ν}
    {handle b : ℕ}
    (hb : b ≤ l.length) (hlow : ∀ e ∈ l.take b, e.name < name)
    (hhigh : ∀ e ∈ l.drop b, name < e.name)
    (hs : insertNameBefore s name handle b = some s') :
    Rep s' (l.take b ++ ⟨name, handle⟩ :: l.drop b) := by
  have hcount := h.count
  have hcap := h.cap
  have hle := h.le
  obtain ⟨k, htwo⟩ := h.two
  have hpos : 0 < 2 ^ k := Nat.two_pow_pos k
  rw [insertNameBefore] at hs
  dsimp only at hs
  split_ifs at hs with hfull hmax
  · -- into an array of twice the size
    cases hs
    refine h.write hb hlow hhigh (by rw [length_copy, length_copy, List.length_replicate])
      ⟨k + 1, by
      rw [htwo, pow_succ]⟩ (by omega) ?_ ?_
    · intro i hi
      rw [getD_copy _ _ _ _ _ (by rw [length_copy, List.length_replicate]; omega),
        if_neg (by omega),
        getD_copy _ _ _ _ _ (by rw [List.length_replicate]; omega), if_pos (by omega), Nat.sub_zero]
    · intro i hi hil
      rw [getD_copy _ _ _ _ _ (by rw [length_copy, List.length_replicate]; omega),
        if_pos (by omega)]
  · cases hs
    refine h.write hb hlow hhigh (by rw [length_shift, hcap]) ⟨k, htwo⟩ (by omega) ?_ ?_
    · intro i hi
      rw [getD_shift _ _ _ (by omega), if_neg (by omega)]
    · intro i hi hil
      rw [getD_shift _ _ _ (by omega), if_pos (by omega)]

/-! ### Removal -/

/-- **`skynet_handle_retire` keeps the names of the other services.** -/
theorem Rep.retire {s : Storage ν} {l : List (HandleName ν)} (h : Rep s l) (handle : ℕ) :
    Rep (retire s handle) (l.filter fun e => e.handle ≠ handle) := by
  have hloop := retireLoop_spec handle l s.nameCount 0 0 s.name (by rw [h.count, Nat.zero_add]) (by
    rw [h.cap]
    exact h.le) rfl (fun k hk => absurd hk (Nat.not_lt_zero k)) (fun k _ hk => h.entry k hk)
  obtain ⟨hlen, hcount, hentry⟩ := hloop
  constructor
  · exact hlen.trans h.cap
  · exact h.two
  · exact hcount
  · exact Nat.le_trans (List.length_filter_le _ _) h.le
  · exact hentry
  · exact h.sorted.sublist List.filter_sublist

/-! ### The names -/

/-- **The storage holds these names**, for these handles. -/
structure Holds (s : Storage ν) (l : List (HandleName ν)) (m : Names ν) : Prop extends Rep s l where
  named : ∀ name handle, ⟨name, handle⟩ ∈ l ↔ m name = some handle

theorem holds_init : Holds (ν := ν) {} [] fun _ => none where
  cap := rfl
  two := ⟨1, rfl⟩
  count := rfl
  le := Nat.zero_le _
  entry _ hi := absurd hi (Nat.not_lt_zero _)
  sorted := List.Pairwise.nil
  named _ _ := by simp

/-- The search finds the handle of the name, or where the name belongs. -/
theorem Holds.searched {s : Storage ν} {l : List (HandleName ν)} {m : Names ν} (h : Holds s l m)
    (name : ν) :
    (∃ i, ∃ hi : i < l.length,
    search (strcmp s name) (s.nameCount + 1) 0 (s.nameCount - 1) = .found i ∧
        m name = some l[i].handle) ∨
      ∃ b, search (strcmp s name) (s.nameCount + 1) 0 (s.nameCount - 1) = .missing b ∧
      b ≤ l.length ∧
        (∀ e ∈ l.take b, e.name < name) ∧ (∀ e ∈ l.drop b, name < e.name) ∧ m name = none := by
  rcases h.toRep.searched name with ⟨i, hi, hres, hname⟩ | ⟨b, hres, hb, hlow, hhigh⟩
  · refine .inl ⟨i, hi, hres, ?_⟩
    rw [← h.named, ← hname]
    exact List.getElem_mem hi
  · refine .inr ⟨b, hres, hb, hlow, hhigh, ?_⟩
    rw [Option.eq_none_iff_forall_ne_some]
    intro handle hm
    have hmem : ⟨name, handle⟩ ∈ l := (h.named name handle).mpr hm
    rw [← List.take_append_drop b l, List.mem_append] at hmem
    rcases hmem with hmem | hmem
    · exact lt_irrefl name (hlow _ hmem)
    · exact lt_irrefl name (hhigh _ hmem)

/-- **`skynet_handle_findname` finds the handle of the name.** -/
theorem Holds.findname {s : Storage ν} {l : List (HandleName ν)} {m : Names ν} (h : Holds s l m)
    (name : ν) :
    findname s name = (m name).getD 0 := by
  rw [SkynetHandle.findname]
  rcases h.searched name with ⟨i, hi, hres, hm⟩ | ⟨b, hres, _, _, _, hm⟩
  · rw [hres, hm]
    dsimp only
    rw [h.entry i hi, List.getElem?_eq_getElem hi]
    rfl
  · rw [hres, hm]
    rfl

/-- The assertion of `_insert_name_before` holds as long as there are not that many names. -/
theorem Rep.insertNameBefore_isSome {s : Storage ν} {l : List (HandleName ν)}
    (h : Rep s l) (name : ν)
    (handle before : ℕ) (hl : l.length < maxSlotSize) :
    (insertNameBefore s name handle before).isSome := by
  rw [insertNameBefore]
  dsimp only
  split_ifs with hfull hmax
  · rfl
  · -- a power of two below the greatest one
    obtain ⟨k, htwo⟩ := h.two
    have hcount := h.count
    have hk : 2 ^ k < 2 ^ 30 := by
      rw [maxSlotSize] at hl
      omega
    have hk : 2 ^ (k + 1) ≤ 2 ^ 30 :=
      Nat.pow_le_pow_right (by decide) ((Nat.pow_lt_pow_iff_right (by decide)).mp hk)
    rw [htwo, maxSlotSize, ← pow_succ] at hmax
    exact absurd hk hmax
  · rfl

/-- **The assertion fails in no operation, as long as there are not that many names.** -/
theorem Holds.exec_isSome {s : Storage ν} {l : List (HandleName ν)} {m : Names ν}
    (h : Holds s l m) (o : Op ν)
    (hl : l.length < maxSlotSize) : (exec s o).isSome := by
  cases o with
  | name handle name =>
      rw [exec, namehandle]
      rcases h.searched name with ⟨i, _, hres, _⟩ | ⟨b, hres, _⟩
      · rw [hres]
        rfl
      · rw [hres]
        dsimp only
        rw [Option.isSome_map]
        exact h.insertNameBefore_isSome name handle b hl
  | retire handle => rfl

/-- A new name is held. -/
theorem Holds.insert {s s' : Storage ν} {l : List (HandleName ν)} {m : Names ν}
    (h : Holds s l m) {name : ν}
    {handle b : ℕ} (hb : b ≤ l.length) (hlow : ∀ e ∈ l.take b, e.name < name)
    (hhigh : ∀ e ∈ l.drop b, name < e.name)
    (hm : m name = none) (hs : insertNameBefore s name handle b = some s') :
    Holds s' (l.take b ++ ⟨name, handle⟩ :: l.drop b) (Function.update m name (some handle)) where
  toRep := h.toRep.insert hb hlow hhigh hs
  named other x := by
    have hmem : (⟨other, x⟩ : HandleName ν) ∈ l.take b ++ ⟨name, handle⟩ :: l.drop b ↔
        (⟨other, x⟩ : HandleName ν) = ⟨name, handle⟩ ∨ ⟨other, x⟩ ∈ l := by
      conv_rhs => rw [← List.take_append_drop b l]
      rw [List.mem_append, List.mem_cons, List.mem_append, or_left_comm]
    rw [hmem, h.named, HandleName.mk.injEq]
    by_cases hother : other = name
    · rw [hother, hm, Function.update_self, Option.some.injEq]
      simp [eq_comm]
    · rw [Function.update_of_ne hother]
      simp [hother]

/-- The names of the others are still held. -/
theorem Holds.retire {s : Storage ν} {l : List (HandleName ν)} {m : Names ν} (h : Holds s l m)
    (handle : ℕ) :
    Holds (retire s handle) (l.filter fun e => e.handle ≠ handle) (m.after (.retire handle)) where
  toRep := h.toRep.retire handle
  named name x := by
    rw [List.mem_filter, decide_eq_true_iff, h.named, Names.after]
    dsimp only
    split_ifs with hm
    · rw [hm]
      simp [eq_comm]
    · refine ⟨And.left, fun hx => ⟨hx, ?_⟩⟩
      rintro rfl
      exact hm hx

/-- **One operation does to the storage what it does to the names.** -/
theorem Holds.exec {s s' : Storage ν} {l : List (HandleName ν)} {m : Names ν}
    (h : Holds s l m) {o : Op ν}
    {answer : Bool} (hs : exec s o = some (s', answer)) :
    answer = m.answer o ∧ ∃ l', l'.length ≤ l.length + 1 ∧ Holds s' l' (m.after o) := by
  cases o with
  | name handle name =>
      rw [SkynetHandle.exec, namehandle] at hs
      rw [Names.answer, Names.after]
      rcases h.searched name with ⟨i, _, hres, hm⟩ | ⟨b, hres, hb, hlow, hhigh, hm⟩
      · rw [hres] at hs
        cases hs
        rw [hm]
        exact ⟨rfl, l, Nat.le_succ _, h⟩
      · rw [hres] at hs
        obtain ⟨s₁, hs₁, hs⟩ := Option.map_eq_some_iff.mp hs
        cases hs
        rw [hm]
        refine ⟨rfl, _, ?_, h.insert hb hlow hhigh hm hs₁⟩
        rw [List.length_append, List.length_cons, List.length_take_of_le hb, List.length_drop]
        omega
  | retire handle =>
      cases hs
      exact ⟨rfl, _, Nat.le_succ_of_le (List.length_filter_le _ _), h.retire handle⟩

/-- A run of operations, from any storage. -/
theorem Holds.run {l : List (HandleName ν)} {m : Names ν} (os : List (Op ν)) :
    ∀ {s : Storage ν}, Holds s l m → (l.length + os.length ≤ maxSlotSize → (run s os).isSome) ∧
      ∀ s' answers, run s os = some (s', answers) →
        answers = (m.run os).2 ∧ ∃ l', Holds s' l' (m.run os).1 := by
  induction os generalizing l m with
  | nil =>
      intro s h
      refine ⟨fun _ => rfl, ?_⟩
      rintro s' answers hs
      cases hs
      exact ⟨rfl, l, h⟩
  | cons o os ih =>
      intro s h
      constructor
      · intro hl
        rw [List.length_cons] at hl
        obtain ⟨⟨s₁, a⟩, hs₁⟩ := Option.isSome_iff_exists.mp (h.exec_isSome o (by omega))
        obtain ⟨_, l₁, hl₁, h₁⟩ := h.exec hs₁
        rw [SkynetHandle.run, hs₁, Option.bind_some, Option.isSome_map]
        exact (ih h₁).1 (by omega)
      · intro s' answers hs
        rw [SkynetHandle.run, Option.bind_eq_some_iff] at hs
        obtain ⟨⟨s₁, a⟩, hs₁, hs⟩ := hs
        obtain ⟨⟨s₂, rest⟩, hs₂, hs⟩ := Option.map_eq_some_iff.mp hs
        cases hs
        obtain ⟨ha, l₁, _, h₁⟩ := h.exec hs₁
        obtain ⟨hrest, hlast⟩ := (ih h₁).2 s₂ rest hs₂
        refine ⟨?_, hlast⟩
        rw [Names.run, ← ha, ← hrest]

/-- **A name is found until its service has ended**, whatever else is named and ends; and the
assertion holds as long as there have not been that many operations. -/
theorem findname_run (os : List (Op ν)) :
    (os.length ≤ maxSlotSize → (run {} os).isSome) ∧ ∀ s answers, run {} os = some (s, answers) →
      answers = (Names.run (fun _ => none) os).2 ∧
        ∀ name, findname s name = ((Names.run (fun _ => none) os).1 name).getD 0 := by
  obtain ⟨hsome, hspec⟩ := holds_init.run os
  refine ⟨fun hos => hsome (by rwa [List.length_nil, Nat.zero_add]), fun s answers hs => ?_⟩
  obtain ⟨hanswers, l, h⟩ := hspec s answers hs
  exact ⟨hanswers, h.findname⟩

/-- Three names, found where `strcmp` puts them, and one service has ended. -/
example : (run {} [.name 7 30, .name 8 10, .name 7 20, .name 9 10, .retire 8]).map
      (fun out => (out.2, [10, 20, 30].map (findname out.1))) =
    some ([true, true, true, false, true], [0, 7, 7]) := by decide

end Order

end Halieutics.SkynetHandle
