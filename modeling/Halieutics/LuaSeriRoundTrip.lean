/-
**What is packed is what is unpacked.**

A table comes back with the entries of its array first and the others behind them, in the order of
the old table: `rebuilt`.  Reading consumes exactly the bytes of a value, whatever follows them
(`unpackOne_encode`), by induction on the depth; in a table each `lua_rawset` finds a key that is
not there yet.  The new table holds the same entries as the old one, in another order and with their
own tables built anew (`same_rebuilt`).

Main definitions:

* `Halieutics.LuaSeri.rebuilt` — **what a value becomes**;
* `Halieutics.LuaSeri.Same` — the same up to the order of entries.

Main results:

* `Halieutics.LuaSeri.unpackOne_encode` — **a value is read back**, and no byte more;
* `Halieutics.LuaSeri.luaseriUnpack_luaseriPack` — **what is packed is unpacked**, or packing was an
  error.
-/

import Mathlib.Data.List.Perm.Basic
import Mathlib.Data.List.Nodup
import Mathlib.Data.Nat.Find
import Mathlib.Data.List.Forall2
import Halieutics.LuaSeriPack

set_option relaxedAutoImplicit false
set_option autoImplicit false

namespace Halieutics.LuaSeri

open LittleEndian

/-! ### Reading numbers and strings -/

theorem rbRead_append (p s : List UInt8) : rbRead (p ++ s) p.length = some (.ok (p, s)) := by
  rw [rbRead, if_neg (by rw [List.length_append]; omega), List.take_left, List.drop_left]

theorem rbRead_bytes (k n : ℕ) (s : List UInt8) :
    rbRead (bytes k n ++ s) k = some (.ok (bytes k n, s)) := by
  have h := rbRead_append (bytes k n) s
  rwa [length_bytes] at h

/-- The type and what is behind it. -/
theorem combineType_toNat {t c : ℕ} (ht : t < 8) (hc : c < 32) :
    (combineType t c).toNat &&& 7 = t ∧ (combineType t c).toNat >>> 3 = c := by
  have hval : (combineType t c).toNat = c * 8 + t := by
    rw [combineType, Nat.or_comm, ← Nat.shiftLeft_add_eq_or_of_lt ht c, Nat.shiftLeft_eq,
      UInt8.toNat_ofNat']
    omega
  rw [hval]
  constructor
  · rw [show (7 : ℕ) = 2 ^ 3 - 1 from rfl, Nat.and_two_pow_sub_one_eq_mod]
    omega
  · rw [Nat.shiftRight_eq_div_pow]
    omega

theorem unpackOne_cons {t c : ℕ} (ht : t < 8) (hc : c < 32) (rounds : ℕ) (s : List UInt8) :
    unpackOne (rounds + 1) (combineType t c :: s) = pushValue (unpackOne rounds) rounds s c t := by
  obtain ⟨h₁, h₂⟩ := combineType_toNat ht hc
  have hread : rbRead (combineType t c :: s) 1 = some (.ok ([combineType t c], s)) :=
    rbRead_append [_] s
  have hval : value [combineType t c] = (combineType t c).toNat := by simp [value]
  rw [unpackOne, hread, Result.then, hval, h₁, h₂]

theorem cookie_cases (v : BitVec 64) :
    cookie v = 0 ∨ cookie v = 1 ∨ cookie v = 2 ∨ cookie v = 4 ∨ cookie v = 6 := by
  rw [cookie]
  split_ifs <;> simp

/-- **An integer is read back.** -/
theorem getInteger_cookie (v : BitVec 64) (s : List UInt8) :
    getInteger (bytes (width (cookie v)) v.toNat ++ s) (cookie v) = some (.ok (v, s)) := by
  have hlt := v.isLt
  have hint := BitVec.toInt_eq_toNat_cond v
  have hdword : v = (v.truncate 32).signExtend 64 →
      getInteger (bytes 4 v.toNat ++ s) 4 = some (.ok (v, s)) := by
    intro h
    rw [getInteger, rbRead_bytes, Result.then, value_bytes]
    have hlow : BitVec.ofNat 32 (v.toNat % 256 ^ 4) = v.truncate 32 := by
      apply BitVec.eq_of_toNat_eq
      rw [BitVec.toNat_ofNat, BitVec.truncate_eq_setWidth, BitVec.toNat_setWidth]
      omega
    rw [hlow, ← h]
  rw [cookie]
  split_ifs with h₀ h₁ h₂ h₃ h₄
  · subst h₀
    rfl
  · rw [width, if_pos rfl, getInteger, rbRead_bytes, Result.then, value_bytes,
      Nat.mod_eq_of_lt (by omega),
      BitVec.ofNat_toNat, BitVec.setWidth_eq]
  · exact hdword (not_not.mp h₁)
  · have hsmall : v.toNat < 256 ^ 1 := by
      split_ifs at hint <;> omega
    rw [show width 1 = 1 from rfl, getInteger, rbRead_bytes, Result.then, value_bytes,
      Nat.mod_eq_of_lt hsmall,
      BitVec.ofNat_toNat, BitVec.setWidth_eq]
  · have hsmall : v.toNat < 256 ^ 2 := by
      split_ifs at hint <;> omega
    rw [show width 2 = 2 from rfl, getInteger, rbRead_bytes, Result.then, value_bytes,
      Nat.mod_eq_of_lt hsmall,
      BitVec.ofNat_toNat, BitVec.setWidth_eq]
  · exact hdword (not_not.mp h₁)

theorem getBuffer_append {p : List UInt8} (hp : p.length < 2 ^ 31) (s : List UInt8) :
    getBuffer (p ++ s) p.length = some (.ok (.string p, s)) := by
  rw [getBuffer, if_pos hp, rbRead_append, Result.then]

theorem unpackOne_integer (rounds : ℕ) (v : BitVec 64) (s : List UInt8) :
    unpackOne (rounds + 1) (encodeInteger v ++ s) = some (.ok (.integer v, s)) := by
  have hc : cookie v < 32 ∧ cookie v ≠ 8 := by
    rcases cookie_cases v with h | h | h | h | h <;> rw [h] <;> decide
  rw [encodeInteger, List.cons_append, unpackOne_cons (by decide) hc.1, pushValue, if_neg hc.2,
    getInteger_cookie,
    Result.then]

theorem unpackOne_string (rounds : ℕ) {p : List UInt8} (hp : p.length < 2 ^ 31) (s : List UInt8) :
    unpackOne (rounds + 1) (encodeString p ++ s) = some (.ok (.string p, s)) := by
  rw [encodeString]
  split_ifs with h₁ h₂
  · rw [List.cons_append, unpackOne_cons (by decide) h₁, pushValue, getBuffer_append hp]
  · rw [List.cons_append, unpackOne_cons (by decide) (by decide), pushValue, if_pos rfl,
      List.append_assoc,
      rbRead_bytes, Result.then, value_bytes, Nat.mod_eq_of_lt (show p.length < 256 ^ 2 from h₂),
      getBuffer_append hp]
  · rw [List.cons_append, unpackOne_cons (by decide) (by decide), pushValue, if_neg (by decide),
      if_neg (by decide),
      List.append_assoc, rbRead_bytes, Result.then, value_bytes, Nat.mod_eq_of_lt (by omega),
      getBuffer_append hp]

/-- **The size of an array is read back.** -/
theorem unpackOne_size (rounds : ℕ) {n : ℕ} (hn : n < 2 ^ 31) (s : List UInt8) :
    unpackOne (rounds + 1) (encodeSize n ++ s) =
      (unpackArray (unpackOne rounds) n 1 [] s).then fun t s =>
        (unpackHash (unpackOne rounds) rounds t s).then fun t s => some (.ok (.table t, s)) := by
  rw [encodeSize]
  split_ifs with h
  · have hc : cookie (BitVec.ofNat 64 n) < 32 ∧ cookie (BitVec.ofNat 64 n) ≠ 8 := by
      rcases cookie_cases (BitVec.ofNat 64 n) with h | h | h | h | h <;> rw [h] <;> decide
    obtain ⟨h₁, h₂⟩ := combineType_toNat (t := 2) (by decide) hc.1
    have hsize : ((BitVec.ofNat 64 n).truncate 32).toInt.toNat = n := by
      rw [BitVec.truncate_eq_setWidth, BitVec.toInt_setWidth, BitVec.toNat_ofNat,
        Nat.mod_eq_of_lt (by omega),
        Int.bmod_eq_of_le (by omega) (by omega), Int.toNat_natCast]
    have hread : rbRead (encodeInteger (BitVec.ofNat 64 n) ++ s) 1 =
        some (.ok ([combineType 2 (cookie (BitVec.ofNat 64 n))],
          bytes (width (cookie (BitVec.ofNat 64 n))) (BitVec.ofNat 64 n).toNat ++ s)) :=
            rbRead_append [_] _
    have hval : ∀ x : UInt8, value [x] = x.toNat := by simp [value]
    rw [List.cons_append, unpackOne_cons (by decide) (by decide), pushValue, unpackTable,
      arraySize, if_pos rfl,
      hread]
    simp only [Result.then, hval, h₁, h₂]
    rw [if_neg (by simp [hc.2]), getInteger_cookie]
    simp only [hsize]
  · rw [List.cons_append, unpackOne_cons (by decide) (by omega), pushValue, unpackTable, arraySize,
      if_neg (by omega), List.nil_append, Result.then]

/-! ### What a value becomes -/

/-- An entry of an array. -/
def element (t : Table) (i : ℕ) : Option (Value × Value) :=
  t.find? fun e => rawEq e.1 (.integer (BitVec.ofNat 64 i))

/-- The entries of an array, by index. -/
def inside (n : ℕ) (t : Table) : Table := (List.range' 1 n).filterMap (element t)

theorem rawgeti_eq_element (t : Table) (i : ℕ) :
    rawgeti t i = match element t i with | some e => e.2 | none => .nil := rfl

theorem element_eq_some {t : Table} {i : ℕ} {e : Value × Value} (h : element t i = some e) :
    e ∈ t ∧ e.1 = .integer (BitVec.ofNat 64 i) :=
  ⟨List.mem_of_find?_eq_some h,
    rawEq_integer.mp (List.find?_some (p := fun e : Value × Value => rawEq e.1 _) h)⟩

section Rebuilt

variable (rawlen : Table → ℕ)

/-- **What a value becomes**: in each table the array is first. -/
def rebuilt : ℕ → Value → Value
  | d + 1, .table t =>
      .table
        ((inside (rawlen t) t ++ others (rawlen t) t).map fun e => (rebuilt d e.1, rebuilt d e.2))
  | _, v => v

/-- An entry. -/
def rebuiltEntry (d : ℕ) (e : Value × Value) :
    Value × Value := (rebuilt rawlen d e.1, rebuilt rawlen d e.2)

end Rebuilt

variable {rawlen : Table → ℕ}

@[simp] theorem isNil_rebuilt (d : ℕ) (v : Value) : (rebuilt rawlen d v).isNil = v.isNil := by
  cases d <;> cases v <;> rfl

@[simp] theorem rebuilt_integer (d : ℕ) (n : BitVec 64) :
    rebuilt rawlen d (.integer n) = .integer n := by
  cases d <;> rfl

theorem isNil_iff {v : Value} : v.isNil = true ↔ v = .nil := by
  cases v <;> simp [Value.isNil]

/-- The same keys are the same. -/
theorem rawEq_rebuilt (d : ℕ) (k k' : Value) :
    rawEq (rebuilt rawlen d k) (rebuilt rawlen d k') = rawEq k k' := by
  cases d with
  | zero => rfl
  | succ d => cases k <;> cases k' <;> rfl

theorem rawEq_comm (k k' : Value) : rawEq k k' = rawEq k' k := by
  cases k <;> cases k' <;> first | rfl | exact Bool.beq_comm

/-- And stored as they are. -/
theorem tableKey_rebuilt {d : ℕ} {k : Value} (h : tableKey k = .ok k) :
    tableKey (rebuilt rawlen d k) = .ok (rebuilt rawlen d k) := by
  cases d with
  | zero => exact h
  | succ d =>
      cases k with
      | table t => rfl
      | _ => exact h

/-! ### Reading a table -/

/-- The key is not there. -/
def Fresh (t : Table) (k : Value) : Prop := ∀ e ∈ t, rawEq e.1 k = false

theorem rawset_fresh {t : Table} {k v : Value} (ht : Fresh t k) (hk : tableKey k = .ok k) :
    rawset t k v = .ok (if v.isNil then t else t ++ [(k, v)]) := by
  rw [rawset, hk]
  dsimp only
  by_cases hv : v.isNil = true
  · have hkeep : (t.filter fun e => !rawEq e.1 k) = t := by
      rw [List.filter_eq_self]
      intro e he
      rw [ht e he]
      rfl
    rw [if_pos hv, if_pos hv, hkeep]
  · have hany : ¬ (t.any fun e => rawEq e.1 k) = true := by
      rw [List.any_eq_true]
      rintro ⟨e, he, h⟩
      rw [ht e he] at h
      cases h
    rw [if_neg hv, if_neg hany, if_neg hv]

/-- **The elements are read back**, from the index `i` on, when each of them is. -/
theorem unpackArray_encode {d : ℕ} {t : Table} (hvalues : ∀ e ∈ t, ¬ e.2.isNil = true)
    {u : List UInt8 → Result Value}
    (s : List UInt8) (n : ℕ) :
    ∀ (i : ℕ) (t' : Table), i + n < 2 ^ 32 →
      (∀ j ∈ List.range' i n, ∀ s, u (encode rawlen d (rawgeti t j) ++ s) =
        some (.ok (rebuilt rawlen d (rawgeti t j), s))) →
      (∀ e ∈ t', ∃ j < i, e.1 = .integer (BitVec.ofNat 64 j)) →
      unpackArray u n i t'
      (((List.range' i n).flatMap fun j => encode rawlen d (rawgeti t j)) ++ s) =
        some
        (.ok (t' ++ ((List.range' i n).filterMap (element t)).map (rebuiltEntry rawlen d), s)) := by
  induction n with
  | zero =>
      intro i t' _ _ _
      rw [unpackArray]
      simp
  | succ n ih =>
      intro i t' hi hu ht'
      have hfresh : Fresh t' (.integer (BitVec.ofNat 64 i)) := by
        intro e he
        obtain ⟨j, hj, hk⟩ := ht' e he
        rw [← Bool.not_eq_true, rawEq_integer, hk]
        intro h
        injection h with h
        have h := congrArg BitVec.toNat h
        rw [BitVec.toNat_ofNat, BitVec.toNat_ofNat, Nat.mod_eq_of_lt (by omega),
          Nat.mod_eq_of_lt (by omega)] at h
        omega
      rw [List.range'_succ, List.flatMap_cons, List.append_assoc, unpackArray, hu i (by simp)]
      simp only [Result.then, rawset_fresh hfresh rfl, isNil_rebuilt]
      have hnext : ∀ j ∈ List.range' (i + 1) n, ∀ s, u (encode rawlen d (rawgeti t j) ++ s) =
          some (.ok (rebuilt rawlen d (rawgeti t j), s)) := by
        intro j hj
        exact hu j (by rw [List.range'_succ]; exact List.mem_cons_of_mem _ hj)
      cases hfind : element t i with
      | none =>
          have hnil : (rawgeti t i).isNil = true := by rw [rawgeti_eq_element, hfind]; rfl
          rw [if_pos hnil, ih (i + 1) t' (by omega) hnext, List.filterMap_cons_none hfind]
          intro e he
          obtain ⟨j, hj, hk⟩ := ht' e he
          exact ⟨j, by omega, hk⟩
      | some e =>
          have hval : rawgeti t i = e.2 := by rw [rawgeti_eq_element, hfind]
          obtain ⟨hmem, hkey⟩ := element_eq_some hfind
          have hentry : (Value.integer (BitVec.ofNat 64 i), rebuilt rawlen d e.2) =
            rebuiltEntry rawlen d e := by
            rw [rebuiltEntry, hkey, rebuilt_integer]
          rw [hval, if_neg (hvalues e hmem), hentry, ih (i + 1) _ (by omega) hnext,
            List.filterMap_cons_some hfind, List.map_cons, List.append_assoc, List.singleton_append]
          intro e' he'
          rcases List.mem_append.mp he' with he' | he'
          · obtain ⟨j, hj, hk⟩ := ht' e' he'
            exact ⟨j, by omega, hk⟩
          · refine ⟨i, Nat.lt_succ_self i, ?_⟩
            rw [List.mem_singleton.mp he', ← hentry]

/-- **The other entries are read back**, when each of them is, up to the `nil` behind them. -/
theorem unpackHash_encode {d : ℕ} {u : List UInt8 → Result Value} (s : List UInt8)
    (hnil : u (0 :: s) = some (.ok (.nil, s))) (l : Table) :
    ∀ (rounds : ℕ) (t' : Table), l.length < rounds →
      (∀ e ∈ l, tableKey e.1 = .ok e.1 ∧ ¬ e.2.isNil = true) →
      (∀ e ∈ l, ∀ s, u (encode rawlen d e.1 ++ s) = some (.ok (rebuilt rawlen d e.1, s)) ∧
        u (encode rawlen d e.2 ++ s) = some (.ok (rebuilt rawlen d e.2, s))) →
      l.Pairwise (fun e e' => rawEq e.1 e'.1 = false) →
      (∀ e ∈ l, Fresh t' (rebuilt rawlen d e.1)) →
      unpackHash u rounds t'
      ((l.flatMap fun e => encode rawlen d e.1 ++ encode rawlen d e.2) ++ 0 :: s) =
        some (.ok (t' ++ l.map (rebuiltEntry rawlen d), s)) := by
  induction l with
  | nil =>
      intro rounds t' hr _ _ _ _
      obtain ⟨rounds, rfl⟩ := Nat.exists_eq_add_of_lt hr
      rw [List.flatMap_nil, List.nil_append, unpackHash, hnil]
      simp [Result.then, Value.isNil]
  | cons e l ih =>
      intro rounds t' hr hstored hu hpair hfresh
      obtain ⟨rounds, rfl⟩ : ∃ k,
        rounds = k + 1 := ⟨rounds - 1, by rw [List.length_cons] at hr; omega⟩
      rw [List.pairwise_cons] at hpair
      obtain ⟨hkey, hvalue⟩ := hstored e List.mem_cons_self
      have hne : ¬ e.1.isNil = true := by
        intro h
        rw [isNil_iff.mp h] at hkey
        cases hkey
      have hread := hu e List.mem_cons_self
      have hlater : ∀ e' ∈ l, Fresh (t' ++ [rebuiltEntry rawlen d e]) (rebuilt rawlen d e'.1) := by
        intro e' he' a ha
        rcases List.mem_append.mp ha with ha | ha
        · exact hfresh e' (List.mem_cons_of_mem _ he') a ha
        · rw [List.mem_singleton.mp ha, rebuiltEntry, rawEq_rebuilt]
          exact hpair.1 e' he'
      have hset : rawset t' (rebuilt rawlen d e.1) (rebuilt rawlen d e.2) =
        .ok (t' ++ [rebuiltEntry rawlen d e]) := by
        rw [rawset_fresh (hfresh e List.mem_cons_self) (tableKey_rebuilt hkey),
          if_neg (by rwa [isNil_rebuilt]), rebuiltEntry]
      rw [List.flatMap_cons, List.append_assoc, List.append_assoc, unpackHash, (hread _).1]
      simp only [Result.then]
      rw [if_neg (by rwa [isNil_rebuilt]), (hread _).2]
      simp only [hset]
      rw [ih rounds _ (by rw [List.length_cons] at hr; omega)
        (fun e' he' => hstored e' (List.mem_cons_of_mem _ he'))
        (fun e' he' => hu e' (List.mem_cons_of_mem _ he')) hpair.2 hlater, List.map_cons,
        List.append_assoc,
        List.singleton_append]

/-! ### Reading a value -/

/-- Nothing is written with no byte. -/
theorem encode_length_pos {d : ℕ} {v : Value} (h : fits d v = true) :
    0 < (encode rawlen d v).length := by
  cases d with
  | zero => cases h
  | succ d =>
      cases v with
      | string s =>
          rw [encode, encodeString]
          split_ifs <;> exact Nat.succ_pos _
      | table t =>
          rw [encode, List.length_append]
          exact Nat.succ_pos _
      | other type => cases h
      | _ => exact Nat.succ_pos _

/-- The entries are no more than their bytes. -/
theorem length_le_flatMap {α : Type} {f : α → List UInt8} {l : List α}
    (h : ∀ a ∈ l, 0 < (f a).length) :
    l.length ≤ (l.flatMap f).length := by
  induction l with
  | nil => exact Nat.le_refl 0
  | cons a l ih =>
      have ha := h a List.mem_cons_self
      have hl := ih fun a' ha' => h a' (List.mem_cons_of_mem _ ha')
      rw [List.flatMap_cons, List.length_append, List.length_cons]
      omega

theorem length_mem_flatMap {α : Type} {f : α → List UInt8} {l : List α} {a : α} (h : a ∈ l) :
    (f a).length ≤ (l.flatMap f).length := by
  obtain ⟨l₁, l₂, rfl⟩ := List.append_of_mem h
  rw [List.flatMap_append, List.flatMap_cons, List.length_append, List.length_append]
  omega

/-- It is read back, and no byte more. -/
def ReadBack (rawlen : Table → ℕ) (d : ℕ) (v : Value) : Prop :=
  ∀ (rounds : ℕ) (s : List UInt8), (encode rawlen d v).length ≤ rounds →
    unpackOne rounds (encode rawlen d v ++ s) = some (.ok (rebuilt rawlen d v, s))

/-- The keys of the other entries are no index of the array. -/
theorem fresh_inside {n : ℕ} (hn : n < 2 ^ 31) (t : Table) (d : ℕ) {e : Value × Value}
    (he : e ∈ others n t) :
    Fresh ((inside n t).map (rebuiltEntry rawlen d)) (rebuilt rawlen d e.1) := by
  intro a ha
  obtain ⟨a', ha', rfl⟩ := List.mem_map.mp ha
  obtain ⟨i, hi, hfind⟩ :=
    List.mem_filterMap.mp (show a' ∈ (List.range' 1 n).filterMap (element t) from ha')
  rw [rebuiltEntry, rawEq_rebuilt, rawEq_comm, (element_eq_some hfind).2, ← Bool.not_eq_true,
    rawEq_integer]
  intro hkey
  have hout := (List.mem_filter.mp he).2
  rw [(inArray_iff hn).mpr ⟨i, hi, hkey⟩] at hout
  cases hout

/-- **A table is read back**, when what it holds is. -/
theorem ReadBack.table (hr : RawLen rawlen) {d : ℕ} {t : Table}
    (once : t.Pairwise fun e e' => rawEq e.1 e'.1 = false)
    (stored : ∀ e ∈ t, tableKey e.1 = .ok e.1 ∧ e.2 ≠ .nil)
    (hfits : ∀ e ∈ t, fits d e.1 = true)
    (harray : ∀ j ∈ List.range' 1 (rawlen t), ReadBack rawlen d (rawgeti t j))
    (hhash : ∀ e ∈ t, ReadBack rawlen d e.1 ∧ ReadBack rawlen d e.2) :
    ReadBack rawlen (d + 1) (.table t) := by
  intro rounds s hrounds
  have hlt := hr.lt t
  have hsize : 0 < (encodeSize (rawlen t)).length := by
    rw [encodeSize]
    split_ifs <;> exact Nat.succ_pos _
  have hmem : ∀ e ∈ others (rawlen t) t, e ∈ t := fun e he => List.mem_of_mem_filter he
  have hcount := length_le_flatMap (f := fun e => encode rawlen d e.1 ++ encode rawlen d e.2)
    (l := others (rawlen t) t) fun e he => by
      rw [List.length_append]
      exact Nat.add_pos_left (encode_length_pos (hfits e (hmem e he))) _
  rw [encode] at hrounds ⊢
  simp only [List.length_append, List.length_singleton] at hrounds
  obtain ⟨k, rfl⟩ : ∃ k, rounds = k + 1 + 1 := ⟨rounds - 2, by omega⟩
  -- what the array and the other entries take is shorter than the table
  have hread : ∀ j ∈ List.range' 1 (rawlen t), ∀ s,
    unpackOne (k + 1) (encode rawlen d (rawgeti t j) ++ s) =
      some (.ok (rebuilt rawlen d (rawgeti t j), s)) := by
    intro j hj s
    have hlen := length_mem_flatMap (f := fun j => encode rawlen d (rawgeti t j)) hj
    exact harray j hj (k + 1) s (by omega)
  have hentry : ∀ e ∈ others (rawlen t) t, ∀ s,
      unpackOne (k + 1) (encode rawlen d e.1 ++ s) = some (.ok (rebuilt rawlen d e.1, s)) ∧
        unpackOne (k + 1) (encode rawlen d e.2 ++ s) = some (.ok (rebuilt rawlen d e.2, s)) := by
    intro e he s
    have hlen := length_mem_flatMap (f := fun e => encode rawlen d e.1 ++ encode rawlen d e.2) he
    rw [List.length_append] at hlen
    exact ⟨(hhash e (hmem e he)).1 (k + 1) s (by omega),
      (hhash e (hmem e he)).2 (k + 1) s (by omega)⟩
  have hend : unpackOne (k + 1) (0 :: s) = some (.ok (.nil, s)) :=
    unpackOne_cons (t := 0) (c := 0) (by decide) (by decide) k s
  rw [List.append_assoc, List.append_assoc, List.append_assoc, unpackOne_size (k + 1) hlt,
    unpackArray_encode (d := d) (fun e he => mt isNil_iff.mp (stored e he).2) _ _ 1 []
    (by omega) hread
      (fun e he => by cases he), List.nil_append, Result.then, List.singleton_append, ← inside,
    unpackHash_encode s hend _ (k + 1) _ (by omega)
      (fun e he => ⟨(stored e (hmem e he)).1, mt isNil_iff.mp (stored e (hmem e he)).2⟩) hentry
      (once.sublist List.filter_sublist) (fun e he => fresh_inside hlt t d he), Result.then,
      ← List.map_append]
  rfl

/-- A number of 64 bits. -/
theorem ofNat_value_bytes (n : BitVec 64) : BitVec.ofNat 64 (value (bytes 8 n.toNat)) = n := by
  rw [value_bytes, Nat.mod_eq_of_lt (show n.toNat < 256 ^ 8 from n.isLt), BitVec.ofNat_toNat,
    BitVec.setWidth_eq]

/-- A value that is no table is read back. -/
theorem unpackOne_scalar {d : ℕ} {v : Value} (hv : Proper v) (hfit : fits (d + 1) v = true)
    (ht : ∀ t, v ≠ .table t)
    (k : ℕ) (s : List UInt8) :
    unpackOne (k + 1) (encode rawlen (d + 1) v ++ s) =
    some (.ok (rebuilt rawlen (d + 1) v, s)) := by
  cases hv with
  | nil => exact unpackOne_cons (t := 0) (c := 0) (by decide) (by decide) k s
  | boolean b =>
      rw [encode, List.singleton_append, unpackOne_cons (by decide) (by cases b <;> decide),
        pushValue]
      cases b <;> rfl
  | integer n => exact unpackOne_integer k n s
  | real r =>
      rw [encode, List.cons_append, unpackOne_cons (by decide) (by decide), pushValue, if_pos rfl,
        rbRead_bytes,
        Result.then, ofNat_value_bytes]
      rfl
  | pointer p =>
      rw [encode, List.cons_append, show (3 : UInt8) = combineType 3 0 from rfl,
        unpackOne_cons (by decide) (by decide), pushValue, rbRead_bytes, Result.then,
        ofNat_value_bytes]
      rfl
  | string h => exact unpackOne_string k h s
  | other type => cases hfit
  | @table t => exact absurd rfl (ht t)

/-- **A value is read back**, and no byte more. -/
theorem unpackOne_encode (hr : RawLen rawlen) {d : ℕ} {v : Value} (hv : Proper v)
    (hfit : fits d v = true) :
    ReadBack rawlen d v := by
  induction d generalizing v with
  | zero => cases hfit
  | succ d ih =>
      by_cases ht : ∀ t, v ≠ .table t
      · intro rounds s hrounds
        have hpos : 0 < (encode rawlen (d + 1) v).length := encode_length_pos hfit
        obtain ⟨k, rfl⟩ : ∃ k, rounds = k + 1 := ⟨rounds - 1, by omega⟩
        exact unpackOne_scalar hv hfit ht k s
      · obtain ⟨t, ht⟩ := not_forall_not.mp ht
        subst ht
        obtain ⟨once, stored, keys, values⟩ := hv.entries
        have hfits : ∀ e ∈ t, fits d e.1 = true ∧ fits d e.2 = true := by
          intro e he
          have := List.all_eq_true.mp hfit e he
          rwa [Bool.and_eq_true] at this
        have harray : ∀ j, Proper (rawgeti t j) := by
          intro j
          rcases rawgeti_cases t j with hnil | ⟨e, he, -, hval⟩
          · rw [hnil]
            exact .nil
          · rw [hval]
            exact values e he
        exact ReadBack.table hr once stored (fun e he => (hfits e he).1)
          (fun j hj => ih (harray j) (hr.fits_rawgeti hfits hj))
          (fun e he => ⟨ih (keys e he) (hfits e he).1, ih (values e he) (hfits e he).2⟩)

/-! ### The same table -/

/-- **The same up to the order of entries.** -/
inductive Same : Value → Value → Prop
  | refl (v : Value) : Same v v
  /-- the entries, each with what it became -/
  | table {t : Table} (pairs : List ((Value × Value) × (Value × Value)))
    (keys : ∀ p ∈ pairs, Same p.1.1 p.2.1)
      (values : ∀ p ∈ pairs, Same p.1.2 p.2.2) (old : (pairs.map Prod.fst).Perm t) :
      Same (.table t) (.table (pairs.map Prod.snd))

/-- The array holds the entries whose keys are its indices. -/
theorem inside_perm {n : ℕ} (hn : n < 2 ^ 31) {t : Table}
    (once : t.Pairwise fun e e' => rawEq e.1 e'.1 = false) :
    (inside n t).Perm (t.filter fun e => inArray n e.1) := by
  have hinside : (inside n t).Nodup := by
    rw [inside, List.Nodup, List.pairwise_filterMap]
    refine List.Pairwise.imp_of_mem ?_ (List.nodup_range' (s := 1) (n := n))
    intro i j hi hj hij e he e' he' heq
    subst heq
    have hk := (element_eq_some he).2.symm.trans (element_eq_some he').2
    injection hk with hk
    have hk := congrArg BitVec.toNat hk
    have hi := List.mem_range'_1.mp hi
    have hj := List.mem_range'_1.mp hj
    rw [BitVec.toNat_ofNat, BitVec.toNat_ofNat, Nat.mod_eq_of_lt (by omega),
      Nat.mod_eq_of_lt (by omega)] at hk
    exact hij hk
  have hfilter : (t.filter fun e => inArray n e.1).Nodup := by
    refine List.Pairwise.imp_of_mem ?_ (once.sublist List.filter_sublist)
    intro e e' he _ hne heq
    subst heq
    obtain ⟨i, -, hk⟩ := (inArray_iff hn).mp (List.mem_filter.mp he).2
    rw [hk, rawEq_integer.mpr rfl] at hne
    cases hne
  rw [List.perm_ext_iff_of_nodup hinside hfilter]
  intro e
  rw [inside, List.mem_filterMap, List.mem_filter]
  constructor
  · rintro ⟨i, hi, hfind⟩
    obtain ⟨hmem, hk⟩ := element_eq_some hfind
    exact ⟨hmem, (inArray_iff hn).mpr ⟨i, hi, hk⟩⟩
  · rintro ⟨hmem, hin⟩
    obtain ⟨i, hi, hk⟩ := (inArray_iff hn).mp hin
    exact ⟨i, hi, rawgeti_eq once hmem hk⟩

/-- **The new table is the old one.** -/
theorem same_rebuilt (hr : RawLen rawlen) {d : ℕ} {v : Value} (hv : Proper v) :
    Same v (rebuilt rawlen d v) := by
  induction d generalizing v with
  | zero => exact .refl v
  | succ d ih =>
      by_cases ht : ∀ t, v ≠ .table t
      · have hsame : rebuilt rawlen (d + 1) v = v := by
          cases v with
          | table t => exact absurd rfl (ht t)
          | _ => rfl
        rw [hsame]
        exact .refl v
      · obtain ⟨t, ht⟩ := not_forall_not.mp ht
        subst ht
        obtain ⟨once, -, keys, values⟩ := hv.entries
        have hperm : (inside (rawlen t) t ++ others (rawlen t) t).Perm t :=
          ((inside_perm (hr.lt t) once).append_right _).trans (List.filter_append_perm _ t)
        have hsame := Same.table (t := t)
          ((inside (rawlen t) t ++ others (rawlen t) t).map fun e => (e, rebuiltEntry rawlen d e))
          (fun p hp => by
            obtain ⟨e, he, rfl⟩ := List.mem_map.mp hp
            exact ih (keys e (hperm.mem_iff.mp he))) (fun p hp => by
            obtain ⟨e, he, rfl⟩ := List.mem_map.mp hp
            exact ih (values e (hperm.mem_iff.mp he))) (by
            rw [List.map_map, show (Prod.fst ∘ fun e => (e, rebuiltEntry rawlen d e)) = id from rfl,
              List.map_id]
            exact hperm)
        rw [List.map_map] at hsame
        exact hsame

/-! ### Packing and unpacking -/

theorem unpackAll_encode (hr : RawLen rawlen) {rounds : ℕ} (vs : List Value) :
    ∀ (k : ℕ) (ws : List Value), vs.length < k → (∀ v ∈ vs, Proper v ∧ fits 33 v = true) →
      (vs.flatMap (encode rawlen 33)).length ≤ rounds →
      unpackAll rounds k ws (vs.flatMap (encode rawlen 33)) =
      some (.ok (ws ++ vs.map (rebuilt rawlen 33))) := by
  induction vs with
  | nil =>
      intro k ws hk _ _
      obtain ⟨k, rfl⟩ := Nat.exists_eq_add_of_lt hk
      rw [List.flatMap_nil, unpackAll, if_pos rfl, List.map_nil, List.append_nil]
  | cons v vs ih =>
      intro k ws hk hv hlen
      obtain ⟨k, rfl⟩ : ∃ k', k = k' + 1 := ⟨k - 1, by rw [List.length_cons] at hk; omega⟩
      obtain ⟨hproper, hfit⟩ := hv v List.mem_cons_self
      have hpos : 0 < (encode rawlen 33 v).length := encode_length_pos hfit
      rw [List.flatMap_cons, List.length_append] at hlen
      rw [List.length_cons] at hk
      have hne : ¬ encode rawlen 33 v ++ vs.flatMap (encode rawlen 33) = [] := by
        intro h
        rw [(List.append_eq_nil_iff.mp h).1] at hpos
        cases hpos
      rw [List.flatMap_cons, unpackAll, if_neg hne,
        unpackOne_encode hr hproper hfit rounds _ (by omega)]
      dsimp only
      rw [ih k _ (by omega) (fun v' h => hv v' (List.mem_cons_of_mem _ h)) (by omega),
        List.map_cons,
        List.append_assoc, List.singleton_append]

/-- **What is packed is unpacked**: packing values is an error if one of them does not fit, else it
gives bytes from which unpacking makes the same values again; as long as the bytes are fewer than
`2 ^ 31`. -/
theorem luaseriUnpack_luaseriPack (hr : RawLen rawlen) (vs : List Value) (hv : ∀ v ∈ vs, Proper v)
    (hlen : (vs.flatMap (encode rawlen 33)).length < 2 ^ 31) :
    (vs.all (fits 33) = false ∧ ∃ e, luaseriPack rawlen vs = some (.error e)) ∨
      (vs.all (fits 33) = true ∧ ∃ s ws, luaseriPack rawlen vs = some (.ok s) ∧
      luaseriUnpack s = some (.ok ws) ∧
        List.Forall₂ Same vs ws) := by
  have hwrites := Writes.foldlM (f := packOne rawlen 33)
    (fun v h => packOne_spec hr (d := 33) (hv v h)) {}
    WriteBlock.good_empty
    (by rw [show WriteBlock.content {} = [] from rfl, List.length_nil, Nat.zero_add]; exact hlen)
  dsimp only at hwrites
  rcases hwrites with ⟨hfit, b, hb, hgood, hcontent⟩ | ⟨hfit, e, he⟩
  · refine .inr ⟨hfit, vs.flatMap (encode rawlen 33), vs.map (rebuilt rawlen 33), ?_, ?_, ?_⟩
    · rw [show WriteBlock.content {} = [] from rfl, List.nil_append] at hcontent
      rw [luaseriPack, hb]
      dsimp only
      rw [hgood.len, WriteBlock.content, seri_blocks hgood.full hgood.current, Option.map_some,
        ← WriteBlock.content, hcontent]
    · have hfit := List.all_eq_true.mp hfit
      have hcount := length_le_flatMap (f := encode rawlen 33) fun v h =>
        encode_length_pos (hfit v h)
      exact unpackAll_encode hr vs _ [] (Nat.lt_succ_of_le hcount) (fun v h => ⟨hv v h, hfit v h⟩)
        (Nat.le_succ _)
    · rw [List.forall₂_map_right_iff, List.forall₂_same]
      exact fun v h => same_rebuilt hr (hv v h)
  · refine .inl ⟨hfit, e, ?_⟩
    rw [luaseriPack, he]

/-- How many elements are there in a row, from the first on. -/
def border (t : Table) : ℕ :=
  Nat.findGreatest (fun n => ∀ i < n, (rawgeti t (i + 1)).isNil = false) (min t.length (2 ^ 31 - 1))

theorem rawLen_border : RawLen border where
  lt t := by
    have := Nat.findGreatest_le (P := fun n => ∀ i < n, (rawgeti t (i + 1)).isNil = false)
      (min t.length (2 ^ 31 - 1))
    rw [border]
    omega
  border t := by
    have hspec : ∀ i < border t, (rawgeti t (i + 1)).isNil = false :=
      Nat.findGreatest_spec (P := fun n => ∀ i < n, (rawgeti t (i + 1)).isNil = false)
        (Nat.zero_le _)
        fun i hi => absurd hi (Nat.not_lt_zero i)
    rcases Nat.eq_zero_or_pos (border t) with h | h
    · exact .inl h
    · right
      have hlast := hspec (border t - 1) (by omega)
      rw [Nat.sub_add_cancel h] at hlast
      intro hnil
      rw [hnil] at hlast
      cases hlast

/-- A table with an element and a table in it. -/
theorem luaseriUnpack_luaseriPack_nested :
    ∃ s ws, luaseriPack border [.integer 7, .table [(.integer 1, .string [117, 105, 100]),
        (.boolean true, .table [(.string [120], .integer 300)])]] = some (.ok s) ∧
      luaseriUnpack s = some (.ok ws) ∧
      List.Forall₂ Same [.integer 7, .table [(.integer 1, .string [117, 105, 100]),
        (.boolean true, .table [(.string [120], .integer 300)])]] ws := by
  have hv : ∀ v ∈ [Value.integer 7, .table [(.integer 1, .string [117, 105, 100]),
      (.boolean true, .table [(.string [120], .integer 300)])]], Proper v := by
    have hinner : Proper (.table [(.string [120], .integer 300)]) := by
      refine .table (List.pairwise_singleton _ _) ?_ ?_ ?_ <;> intro e he <;>
        cases List.mem_singleton.mp he
      · exact ⟨rfl, nofun⟩
      · exact .string (by decide)
      · exact .integer 300
    intro v hv
    rcases List.mem_pair.mp hv with rfl | rfl
    · exact .integer 7
    · refine .table (List.pairwise_pair.mpr rfl) ?_ ?_ ?_ <;> intro e he <;>
        rcases List.mem_pair.mp he with rfl | rfl
      · exact ⟨rfl, nofun⟩
      · exact ⟨rfl, nofun⟩
      · exact .integer 1
      · exact .boolean true
      · exact .string (by decide)
      · exact hinner
  rcases luaseriUnpack_luaseriPack rawLen_border _ hv (by decide +kernel) with ⟨h, -⟩ | ⟨-, h⟩
  · exact absurd h (by decide)
  · exact h

end Halieutics.LuaSeri
