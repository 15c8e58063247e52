/-
**What packing writes.**

The blocks of `wb_push` hold the bytes pushed one after another (`wbPush_spec`), and `seri` puts
exactly them together (`seri_blocks`).  So packing a value is described by the bytes it adds:
`encode`, a recursion on how much deeper `pack_one` may go.  A value that is too deep, or holds
something that is no data, `fits` not, and packing it raises.  All this as long as the bytes are
fewer than `2 ^ 31`: `len` is an `int`.

Main definitions:

* `Halieutics.LuaSeri.encode` — **the bytes of a value**;
* `Halieutics.LuaSeri.fits` — it can be packed;
* `Halieutics.LuaSeri.Writes` — what a function writes, or that it raises.

Main results:

* `Halieutics.LuaSeri.packOne_spec` — **packing writes the bytes of a value that fits**, and raises
  when it does not.
-/

import Mathlib.Data.List.Flatten
import Mathlib.Tactic.Common
import Halieutics.LuaSeri

set_option relaxedAutoImplicit false
set_option autoImplicit false

namespace Halieutics.LuaSeri

open LittleEndian

/-! ### Blocks -/

/-- All that is written. -/
def WriteBlock.content (b : WriteBlock) : List UInt8 := b.full.flatten ++ b.current

/-- The blocks before the current one are full, and `len` counts them and it. -/
structure WriteBlock.Good (b : WriteBlock) : Prop where
  full : ∀ c ∈ b.full, c.length = 128
  current : b.current.length ≤ 128
  len : b.len = b.content.length

theorem WriteBlock.good_empty : ({} : WriteBlock).Good := by
  constructor
  · intro c hc
    cases hc
  · exact Nat.zero_le _
  · rfl

/-- A block that has room. -/
theorem WriteBlock.Good.room {b : WriteBlock} (h : b.Good) {b' : WriteBlock}
    (hb : b' = if b.current.length = 128 then
    { b with full := b.full ++ [b.current], current := [] } else b) :
    b'.Good ∧ b'.content = b.content ∧ b'.current.length < 128 := by
  have hc := h.current
  have hl := h.len
  split at hb
  · next hb₀ =>
      subst hb
      have hcont : ({ b with full := b.full ++ [b.current], current := [] } : WriteBlock).content =
        b.content := by
        simp [WriteBlock.content]
      refine ⟨⟨?_, Nat.zero_le _, by rw [hcont]; exact hl⟩, hcont, Nat.zero_lt_succ 127⟩
      intro c hc'
      rcases List.mem_append.mp hc' with hc' | hc'
      · exact h.full c hc'
      · rw [List.mem_singleton.mp hc', hb₀]
  · subst hb
    exact ⟨h, rfl, by omega⟩

/-- Bytes added to a block that has room for them. -/
theorem WriteBlock.Good.add {b : WriteBlock} (h : b.Good) {s : List UInt8}
    (hs : b.current.length + s.length ≤ 128)
    (hlen : b.content.length + s.length < 2 ^ 31) :
    ∃ b', { b with current := b.current ++ s }.count s.length = .ok b' ∧ b'.Good ∧
    b'.content = b.content ++ s := by
  have hcont :
    ({ b with current := b.current ++ s, len := b.len + s.length } : WriteBlock).content =
      b.content ++ s := by
    simp [WriteBlock.content]
  have hcount : { b with current := b.current ++ s }.count s.length =
      .ok { b with current := b.current ++ s, len := b.len + s.length } :=
    if_pos (show b.len + s.length < 2 ^ 31 by rw [h.len]; exact hlen)
  refine ⟨_, hcount, ⟨h.full, ?_, ?_⟩, hcont⟩
  · rw [List.length_append]
    exact hs
  · rw [hcont, List.length_append, ← h.len]

theorem wbPushLoop_spec (rounds : ℕ) :
    ∀ (b : WriteBlock) (buf : List UInt8), buf.length < rounds → b.Good →
      b.content.length + buf.length < 2 ^ 31 →
        ∃ b', wbPushLoop rounds b buf = .ok b' ∧ b'.Good ∧ b'.content = b.content ++ buf := by
  induction rounds with
  | zero =>
      intro b buf h
      omega
  | succ rounds ih =>
      intro b buf hr hb hlen
      rw [wbPushLoop]
      generalize hb' : (if b.current.length = 128 then
        { b with full := b.full ++ [b.current], current := [] } else b) = b'
      obtain ⟨hg, hcont, hroom⟩ := hb.room hb'.symm
      rw [← hcont] at hlen ⊢
      dsimp only
      by_cases hfit : b'.current.length + buf.length ≤ 128
      · rw [if_pos hfit]
        exact hg.add hfit hlen
      · rw [if_neg hfit]
        -- what is copied fills the block, and is not nothing
        have hcopy : (buf.take (128 - b'.current.length)).length = 128 - b'.current.length := by
          rw [List.length_take]
          omega
        obtain ⟨b₁, hadd, hg₁, hcont₁⟩ :=
          hg.add (s := buf.take (128 - b'.current.length)) (by omega) (by omega)
        rw [hcopy] at hadd
        obtain ⟨b₂, hpush, hg₂, hcont₂⟩ := ih b₁ (buf.drop (128 - b'.current.length))
          (by rw [List.length_drop]; omega) hg₁
          (by rw [hcont₁, List.length_append, hcopy, List.length_drop]; omega)
        refine ⟨b₂, ?_, hg₂, ?_⟩
        · rw [hadd]
          exact hpush
        · rw [hcont₂, hcont₁, List.append_assoc, List.take_append_drop]

/-- **`wb_push` adds the bytes.** -/
theorem wbPush_spec {b : WriteBlock} (h : b.Good) {buf : List UInt8}
    (hlen : b.content.length + buf.length < 2 ^ 31) :
    ∃ b', wbPush b buf = .ok b' ∧ b'.Good ∧ b'.content = b.content ++ buf :=
  wbPushLoop_spec (buf.length + 1) b buf (Nat.lt_succ_self _) h hlen

/-- **`seri` puts the blocks together.** -/
theorem seri_blocks {full : List (List UInt8)} {current : List UInt8}
    (hf : ∀ c ∈ full, c.length = 128)
    (hc : current.length ≤ 128) :
    seri (full ++ [current]) (full.flatten ++ current).length = some (full.flatten ++ current) := by
  induction full with
  | nil =>
      rw [List.flatten_nil, List.nil_append, List.nil_append]
      cases hn : current.length with
      | zero => rw [seri, List.eq_nil_of_length_eq_zero hn]
      | succ n =>
          rw [seri]
          by_cases h : 128 ≤ n + 1
          · have : n + 1 - 128 = 0 := by omega
            rw [if_pos h, this, seri, Option.map_some, List.append_nil, List.take_of_length_le hc]
          · rw [if_neg h, List.take_of_length_le (by omega)]
  | cons c full ih =>
      have hlen := hf c List.mem_cons_self
      have hrest := ih fun c' h => hf c' (List.mem_cons_of_mem _ h)
      have hn : ((c :: full).flatten ++ current).length =
        (full.flatten ++ current).length + 127 + 1 := by
        rw [List.flatten_cons, List.append_assoc, List.length_append, hlen]
        omega
      have hsub : (full.flatten ++ current).length + 127 + 1 - 128 =
        (full.flatten ++ current).length := by omega
      rw [hn, List.cons_append, seri, if_pos (by omega), hsub, hrest, Option.map_some,
        List.flatten_cons,
        List.append_assoc, List.take_of_length_le (by omega)]

/-! ### The bytes of a value -/

/-- The type of an integer. -/
def cookie (v : BitVec 64) : ℕ :=
  if v = 0 then 0
  else if v ≠ (v.truncate 32).signExtend 64 then 6
  else if v.toInt < 0 then 4
  else if v.toInt < 0x100 then 1
  else if v.toInt < 0x10000 then 2
  else 4

/-- How many bytes it takes. -/
def width (cookie : ℕ) : ℕ := if cookie = 6 then 8 else cookie

/-- **The bytes of an integer.** -/
def encodeInteger (v : BitVec 64) :
    List UInt8 := combineType 2 (cookie v) :: bytes (width (cookie v)) v.toNat

/-- **The bytes of a string.** -/
def encodeString (s : List UInt8) : List UInt8 :=
  if s.length < 32 then combineType 4 s.length :: s
  else if s.length < 0x10000 then combineType 5 2 :: (bytes 2 s.length ++ s)
  else combineType 5 4 :: (bytes 4 s.length ++ s)

/-- The bytes before the elements of a table. -/
def encodeSize (n : ℕ) : List UInt8 :=
  if 31 ≤ n then combineType 6 31 :: encodeInteger (BitVec.ofNat 64 n) else [combineType 6 n]

/-- The entries that are not in the array. -/
def others (n : ℕ) (t : Table) : Table := t.filter fun e => !inArray n e.1

section Encode

variable (rawlen : Table → ℕ)

/-- **The bytes of a value**, so much deeper. -/
def encode : ℕ → Value → List UInt8
  | 0, _ => []
  | _ + 1, .nil => [0]
  | _ + 1, .boolean b => [combineType 1 (if b then 1 else 0)]
  | _ + 1, .integer v => encodeInteger v
  | _ + 1, .real v => combineType 2 8 :: bytes 8 v.toNat
  | _ + 1, .pointer p => 3 :: bytes 8 p.toNat
  | _ + 1, .string s => encodeString s
  | d + 1, .table t =>
      encodeSize (rawlen t) ++
        ((List.range' 1 (rawlen t)).flatMap fun i => encode d (rawgeti t i)) ++
        ((others (rawlen t) t).flatMap fun e => encode d e.1 ++ encode d e.2) ++ [0]
  | _ + 1, .other _ => []

end Encode

/-- **It can be packed**: nothing in it is too deep or no data. -/
def fits : ℕ → Value → Bool
  | 0, _ => false
  | d + 1, .table t => t.all fun e => fits d e.1 && fits d e.2
  | _ + 1, .other _ => false
  | _ + 1, _ => true

/-! ### What is written -/

/-- **What a function writes**: these bytes, if it fits, and else it raises; as long as they can be
counted. -/
def Writes (f : WriteBlock → Except Stop WriteBlock) (fits : Bool) (s : List UInt8) : Prop :=
  ∀ b : WriteBlock, b.Good → b.content.length + s.length < 2 ^ 31 →
    (fits = true ∧ ∃ b', f b = .ok b' ∧ b'.Good ∧ b'.content = b.content ++ s) ∨
      fits = false ∧ ∃ e, f b = .error (.raise e)

theorem Writes.push (s : List UInt8) : Writes (fun b => wbPush b s) true s :=
  fun _ hb hlen => .inl ⟨rfl, wbPush_spec hb hlen⟩

theorem Writes.raise (message : String) (s : List UInt8) :
    Writes (fun _ => .error (.raise message)) false s :=
  fun _ _ _ => .inr ⟨rfl, message, rfl⟩

theorem Writes.nothing : Writes .ok true [] :=
  fun b hb _ => .inl ⟨rfl, b, rfl, hb, (List.append_nil _).symm⟩

/-- One after the other. -/
theorem Writes.bind {f g : WriteBlock → Except Stop WriteBlock} {x y : Bool} {s s' : List UInt8}
    (hf : Writes f x s)
    (hg : Writes g y s') : Writes (fun b => (f b).bind g) (x && y) (s ++ s') := by
  intro b hb hlen
  rw [List.length_append] at hlen
  dsimp only
  rcases hf b hb (by omega) with ⟨rfl, b₁, h₁, hg₁, hc₁⟩ | ⟨rfl, e, he⟩
  · rw [h₁, Bool.true_and]
    rcases hg b₁ hg₁ (by rw [hc₁, List.length_append]; omega) with
      ⟨rfl, b₂, h₂, hg₂, hc₂⟩ | ⟨rfl, e, he⟩
    · exact .inl ⟨rfl, b₂, h₂, hg₂, by rw [hc₂, hc₁, List.append_assoc]⟩
    · exact .inr ⟨rfl, e, he⟩
  · rw [he]
    exact .inr ⟨rfl, e, rfl⟩

/-- All of a list. -/
theorem Writes.foldlM {α : Type} {f : WriteBlock → α → Except Stop WriteBlock} {x : α → Bool}
    {s : α → List UInt8}
    {l : List α} (h : ∀ a ∈ l, Writes (fun b => f b a) (x a) (s a)) :
    Writes (fun b => l.foldlM f b) (l.all x) (l.flatMap s) := by
  induction l with
  | nil => exact Writes.nothing
  | cons a l ih =>
      have hl := ih fun a' ha' => h a' (List.mem_cons_of_mem _ ha')
      rw [List.flatMap_cons, List.all_cons]
      simp only [List.foldlM_cons]
      exact (h a List.mem_cons_self).bind hl

theorem Writes.pushes (s s' : List UInt8) :
    Writes (fun b => (wbPush b s).bind fun b => wbPush b s') true (s ++ s') :=
  (Writes.push s).bind (Writes.push s')

theorem writes_integer (v : BitVec 64) :
    Writes (fun b => wbInteger b v) true (encodeInteger v) := by
  have h32 : bytes 4 (v.truncate 32).toNat = bytes 4 v.toNat := by
    rw [BitVec.truncate_eq_setWidth, BitVec.toNat_setWidth]
    exact bytes_mod 4 v.toNat
  rw [encodeInteger, cookie]
  simp only [wbInteger]
  split_ifs
  · exact Writes.push _
  · exact Writes.pushes _ _
  · rw [h32]
    exact Writes.pushes _ _
  · exact Writes.pushes _ _
  · exact Writes.pushes _ _
  · exact Writes.pushes _ _

theorem writes_string (s : List UInt8) : Writes (fun b => wbString b s) true (encodeString s) := by
  rw [encodeString]
  simp only [wbString]
  by_cases h₁ : s.length < 32
  · simp only [if_pos h₁]
    by_cases h₂ : 0 < s.length
    · simp only [if_pos h₂]
      exact Writes.pushes [combineType 4 s.length] s
    · simp only [List.eq_nil_of_length_eq_zero (Nat.eq_zero_of_not_pos h₂)]
      exact (Writes.push [combineType 4 0]).bind Writes.nothing
  · simp only [if_neg h₁]
    by_cases h₂ : s.length < 0x10000
    · simp only [if_pos h₂]
      exact (Writes.push [combineType 5 2]).bind (Writes.pushes _ s)
    · simp only [if_neg h₂]
      exact (Writes.push [combineType 5 4]).bind (Writes.pushes _ s)

theorem writes_size (n : ℕ) : Writes (fun b => wbSize b n) true (encodeSize n) := by
  rw [encodeSize]
  simp only [wbSize]
  split_ifs
  · exact (Writes.push [combineType 6 31]).bind (writes_integer _)
  · exact Writes.push _

/-- The entries that are not in the array, one after the other. -/
theorem Writes.others {f : WriteBlock → Value × Value → Except Stop WriteBlock}
    {x : Value × Value → Bool}
    {s : Value × Value → List UInt8} {n : ℕ} {t : Table}
    (h : ∀ e ∈ t, Writes (fun b => f b e) (x e) (s e)) :
    Writes (fun b => t.foldlM (fun b e => if inArray n e.1 then .ok b else f b e) b)
    ((others n t).all x)
      ((others n t).flatMap s) := by
  induction t with
  | nil => exact Writes.nothing
  | cons e t ih =>
      have ht := ih fun e' he' => h e' (List.mem_cons_of_mem _ he')
      simp only [List.foldlM_cons]
      by_cases hn : inArray n e.1 = true
      · rw [LuaSeri.others, List.filter_cons_of_neg (by simp [hn])]
        simp only [if_pos hn]
        exact ht
      · rw [LuaSeri.others, List.filter_cons_of_pos (by simp [hn]), List.flatMap_cons,
          List.all_cons]
        simp only [if_neg hn]
        exact (h e List.mem_cons_self).bind ht

/-! ### Values as Lua keeps them -/

/-- **A value as Lua keeps it**: no key of a table is there twice, and each is stored as it is; a
value that is `nil` is no entry.  The length of a string is an `int`. -/
inductive Proper : Value → Prop
  | nil : Proper .nil
  | boolean (b : Bool) : Proper (.boolean b)
  | integer (n : BitVec 64) : Proper (.integer n)
  | real (r : BitVec 64) : Proper (.real r)
  | pointer (p : BitVec 64) : Proper (.pointer p)
  | string {s : List UInt8} (h : s.length < 2 ^ 31) : Proper (.string s)
  | table {t : Table} (once : t.Pairwise fun e e' => rawEq e.1 e'.1 = false)
      (stored : ∀ e ∈ t, tableKey e.1 = .ok e.1 ∧ e.2 ≠ .nil) (keys : ∀ e ∈ t, Proper e.1)
      (values : ∀ e ∈ t, Proper e.2) : Proper (.table t)
  | other (type : String) : Proper (.other type)

theorem Proper.entries {t : Table} (h : Proper (.table t)) :
    (t.Pairwise fun e e' => rawEq e.1 e'.1 = false) ∧
    (∀ e ∈ t, tableKey e.1 = .ok e.1 ∧ e.2 ≠ .nil) ∧
      (∀ e ∈ t, Proper e.1) ∧ ∀ e ∈ t, Proper e.2 := by
  cases h with
  | table once stored keys values => exact ⟨once, stored, keys, values⟩

/-- An integer is the same key as itself only. -/
theorem rawEq_integer {k : Value} {n : BitVec 64} :
    rawEq k (.integer n) = true ↔ k = .integer n := by
  constructor
  · intro h
    cases k with
    | integer m => rw [eq_of_beq (show (m == n) = true from h)]
    | _ => cases h
  · intro h
    rw [h]
    exact beq_self_eq_true n

/-- The element of an array is the value of the entry with this key. -/
theorem rawgeti_eq {t : Table} (once : t.Pairwise fun e e' => rawEq e.1 e'.1 = false)
    {e : Value × Value} (he : e ∈ t)
    {i : ℕ} (hk : e.1 = .integer (BitVec.ofNat 64 i)) :
    t.find? (fun e => rawEq e.1 (.integer (BitVec.ofNat 64 i))) = some e := by
  induction t with
  | nil => cases he
  | cons e' t ih =>
      rw [List.pairwise_cons] at once
      rw [List.find?_cons]
      rcases List.mem_cons.mp he with rfl | he
      · rw [rawEq_integer.mpr hk]
      · have hne : rawEq e'.1 (.integer (BitVec.ofNat 64 i)) = false := hk ▸ once.1 e he
        rw [hne]
        exact ih once.2 he

/-- A key in the array is its index. -/
theorem inArray_iff {n : ℕ} (hn : n < 2 ^ 31) {k : Value} :
    inArray n k = true ↔ ∃ i ∈ List.range' 1 n, k = .integer (BitVec.ofNat 64 i) := by
  constructor
  · intro h
    cases k with
    | integer x =>
        have hx : 0 < x.toInt ∧ x.toInt ≤ n := of_decide_eq_true h
        have hnat : x.toInt = x.toNat := by
          rw [BitVec.toInt_eq_toNat_cond] at hx ⊢
          have := x.isLt
          split_ifs at hx ⊢ with hs
          · rfl
          · omega
        refine ⟨x.toNat, List.mem_range'_1.mpr (by omega), ?_⟩
        rw [BitVec.ofNat_toNat, BitVec.setWidth_eq]
    | _ => cases h
  · rintro ⟨i, hi, rfl⟩
    have hi := List.mem_range'_1.mp hi
    have hx : (BitVec.ofNat 64 i).toInt = i := by
      rw [BitVec.toInt_ofNat', Int.bmod_eq_of_le (by omega) (by omega)]
    apply decide_eq_true
    rw [hx]
    omega

/-! ### Packing a value -/

/-- What `lua_rawlen` answers is an `int`, and a border of the table: nothing, or its last element
is there. -/
structure RawLen (rawlen : Table → ℕ) : Prop where
  lt : ∀ t, rawlen t < 2 ^ 31
  border : ∀ t, rawlen t = 0 ∨ rawgeti t (rawlen t) ≠ .nil

/-- An element of the array is a value of the table, or `nil`. -/
theorem rawgeti_cases (t : Table) (i : ℕ) :
    rawgeti t i = .nil ∨
      ∃ e ∈ t, rawEq e.1 (.integer (BitVec.ofNat 64 i)) = true ∧ rawgeti t i = e.2 := by
  rw [rawgeti]
  cases h : t.find? fun e => rawEq e.1 (.integer (BitVec.ofNat 64 i)) with
  | none => exact .inl rfl
  | some e =>
      exact .inr ⟨e, List.mem_of_find?_eq_some h,
        List.find?_some (p := fun e : Value × Value => rawEq e.1 _) h, rfl⟩

/-- An element of the array is kept as the values of the table are. -/
theorem Proper.rawgeti {t : Table} (h : Proper (.table t)) (i : ℕ) : Proper (rawgeti t i) := by
  rcases rawgeti_cases t i with hnil | ⟨e, he, -, hval⟩
  · rw [hnil]
    exact .nil
  · rw [hval]
    exact h.entries.2.2.2 e he

section Packing

variable {rawlen : Table → ℕ} (hr : RawLen rawlen)

include hr

/-- What is packed of the array fits, if the entries do. -/
theorem RawLen.fits_rawgeti {d : ℕ} {t : Table} (h : ∀ e ∈ t, fits d e.1 = true ∧ fits d e.2 = true)
    {i : ℕ}
    (hi : i ∈ List.range' 1 (rawlen t)) : fits d (rawgeti t i) = true := by
  rcases rawgeti_cases t i with hnil | ⟨e, he, -, hval⟩
  · -- the table has an element, at the border, and this is not too deep
    have hpos : rawlen t ≠ 0 := by
      intro h0
      rw [h0] at hi
      cases hi
    have hlast := (hr.border t).resolve_left hpos
    obtain ⟨e, he, -⟩ := (rawgeti_cases t (rawlen t)).resolve_left hlast
    rw [hnil]
    cases d with
    | zero => exact (h e he).1
    | succ d => rfl
  · rw [hval]
    exact (h e he).2

/-- **A table fits when its array and its other entries do.** -/
theorem RawLen.fits_table {d : ℕ} {t : Table} (ht : Proper (.table t)) :
    (((List.range' 1 (rawlen t)).all fun i => fits d (rawgeti t i)) &&
      (others (rawlen t) t).all fun e => fits d e.1 && fits d e.2) = fits (d + 1) (.table t) := by
  rw [Bool.eq_iff_iff, Bool.and_eq_true, fits]
  simp only [List.all_eq_true, Bool.and_eq_true]
  constructor
  · rintro ⟨harray, hothers⟩ e he
    by_cases hin : inArray (rawlen t) e.1 = true
    · obtain ⟨i, hi, hk⟩ := (inArray_iff (hr.lt t)).mp hin
      have hfit := harray i hi
      rw [rawgeti, rawgeti_eq ht.entries.1 he hk] at hfit
      refine ⟨?_, hfit⟩
      cases d with
      | zero => cases hfit
      | succ d =>
          rw [hk]
          rfl
    · exact hothers e (List.mem_filter.mpr ⟨he, by simp [hin]⟩)
  · intro h
    exact ⟨fun i hi => hr.fits_rawgeti h hi, fun e he => h e (List.mem_of_mem_filter he)⟩

/-- **Packing writes the bytes of a value that fits**, and raises when it does not. -/
theorem packOne_spec {d : ℕ} {v : Value} (hv : Proper v) :
    Writes (fun b => packOne rawlen d b v) (fits d v) (encode rawlen d v) := by
  induction d generalizing v with
  | zero => exact Writes.raise _ _
  | succ d ih =>
      cases v with
      | nil => exact Writes.push [0]
      | boolean b => exact Writes.push _
      | integer v => exact writes_integer v
      | real v => exact Writes.pushes [combineType 2 8] _
      | pointer p => exact Writes.pushes [3] _
      | string s => exact writes_string s
      | other type => exact Writes.raise _ _
      | table t =>
          obtain ⟨-, -, hkeys, hvalues⟩ := hv.entries
          have harray : Writes _ _
            ((List.range' 1 (rawlen t)).flatMap fun i => encode rawlen d (rawgeti t i)) :=
            Writes.foldlM (f := fun b i => packOne rawlen d b (rawgeti t i)) fun i _ =>
              ih (hv.rawgeti i)
          have hhash : Writes _ _
            ((others (rawlen t) t).flatMap fun e => encode rawlen d e.1 ++ encode rawlen d e.2) :=
            Writes.others
              (f := fun b e => (packOne rawlen d b e.1).bind fun b => packOne rawlen d b e.2)
              fun e he => (ih (hkeys e he)).bind (ih (hvalues e he))
          have hall := (writes_size (rawlen t)).bind (harray.bind (hhash.bind (Writes.push [0])))
          rw [Bool.true_and, Bool.and_true, hr.fits_table hv] at hall
          rw [encode, List.append_assoc, List.append_assoc]
          exact hall

end Packing

end Halieutics.LuaSeri
