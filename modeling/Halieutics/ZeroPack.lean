/-
**Packing words with many zeros.**

A stream of words of eight bytes is packed word by word: a header tells which bytes of the word are
not zero, and these follow.  Words with (almost) no zeros would grow, so a run of up to 256 of them
is stored as it is, behind the header `0xff` and the length of the run less one.  A word begins a
run if none of its bytes is zero, and belongs to a run that has begun if at most two are.

A run costs two bytes more than its words.  Unless it has 256 of them or is the last thing in the
stream, it is ended by a word with at least three zeros, which gives the two bytes back.

Main definitions:

* `ZeroPack.mask`, `ZeroPack.plain`, `ZeroPack.run` — words and runs, packed;
* `ZeroPack.pack`, `ZeroPack.step` — **packing**, with a run that has begun;
* `ZeroPack.Packed` — **the streams, and what they stand for**.

Main results:

* `ZeroPack.packed_pack` — **what is packed stands for the words**;
* `ZeroPack.length_pack_le` — how long it is.
-/

import Mathlib.Data.List.Basic
import Mathlib.Tactic.Ring

set_option relaxedAutoImplicit false
set_option autoImplicit false

namespace ZeroPack

/-! ### Words -/

/-- A word, as its bytes. -/
abbrev Word := List UInt8

/-- The number of bytes that are not zero. -/
def weight (w : Word) : ℕ := (w.filter (· ≠ 0)).length

/-- **The header**: a bit for each byte that is not zero. -/
def mask : Word → ℕ
  | [] => 0
  | b :: w => (if b = 0 then 0 else 1) + 2 * mask w

/-- The bytes of a word, from its header and those that are not zero. -/
def spread : ℕ → ℕ → List UInt8 → Option (Word × List UInt8)
  | 0, _, s => some ([], s)
  | n + 1, h, s =>
      if h % 2 = 1 then
        match s with
        | [] => none
        | b :: s => (spread n (h / 2) s).map fun (w, s) => (b :: w, s)
      else (spread n (h / 2) s).map fun (w, s) => (0 :: w, s)

theorem spread_succ (n h : ℕ) (s : List UInt8) : spread (n + 1) h s =
    if h % 2 = 1 then
      match s with
      | [] => none
      | b :: s => (spread n (h / 2) s).map fun (w, s) => (b :: w, s)
    else (spread n (h / 2) s).map fun (w, s) => (0 :: w, s) := by
  cases s <;> rfl

section Words

variable (w : Word) (s : List UInt8)

theorem mask_lt : mask w < 2 ^ w.length := by
  induction w with
  | nil => exact Nat.one_pos
  | cons b w ih =>
      rw [mask, List.length_cons, Nat.pow_succ]
      split <;> omega

theorem weight_le : weight w ≤ w.length := List.length_filter_le _ _

theorem weight_cons (b : UInt8) : weight (b :: w) = weight w + if b = 0 then 0 else 1 := by
  by_cases hb : b = 0
  · rw [weight, List.filter_cons_of_neg (by simpa using hb), if_pos hb]
    rfl
  · rw [weight, List.filter_cons_of_pos (by simpa using hb), if_neg hb, List.length_cons]
    rfl

/-- The header is full only if no byte is zero. -/
theorem weight_of_mask (h : mask w + 1 = 2 ^ w.length) : weight w = w.length := by
  induction w with
  | nil => rfl
  | cons b w ih =>
      have hlt := mask_lt w
      rw [mask, List.length_cons, Nat.pow_succ] at h
      rw [weight_cons, List.length_cons]
      split at h
      · omega
      · rename_i hb
        rw [if_neg hb, ih (by omega)]

/-- **A word is found again.** -/
theorem spread_mask : spread w.length (mask w) (w.filter (· ≠ 0) ++ s) = some (w, s) := by
  induction w with
  | nil => rfl
  | cons b w ih =>
      by_cases hb : b = 0
      · have hhalf : mask (b :: w) / 2 = mask w := by
          rw [mask, if_pos hb]
          omega
        have heven : ¬ mask (b :: w) % 2 = 1 := by
          rw [mask, if_pos hb]
          omega
        rw [List.length_cons, spread_succ, if_neg heven, hhalf,
          List.filter_cons_of_neg (by simpa using hb), ih, hb]
        rfl
      · have hhalf : mask (b :: w) / 2 = mask w := by
          rw [mask, if_neg hb]
          omega
        have hodd : mask (b :: w) % 2 = 1 := by
          rw [mask, if_neg hb]
          omega
        rw [List.length_cons, spread_succ, if_pos hodd, hhalf,
          List.filter_cons_of_pos (by simpa using hb),
          List.cons_append]
        dsimp only
        rw [ih]
        rfl

theorem length_spread {n h : ℕ} {s s' : List UInt8} {w : Word} (hs : spread n h s = some (w, s')) :
    w.length = n := by
  induction n generalizing h s s' w with
  | zero =>
      obtain ⟨rfl, -⟩ := Prod.mk.inj (Option.some_inj.1 hs)
      rfl
  | succ n ih =>
      rw [spread_succ] at hs
      split at hs
      · split at hs
        · cases hs
        · obtain ⟨⟨v, t⟩, hv, hw⟩ := Option.map_eq_some_iff.1 hs
          obtain ⟨rfl, -⟩ := Prod.mk.inj hw
          rw [List.length_cons, ih hv]
      · obtain ⟨⟨v, t⟩, hv, hw⟩ := Option.map_eq_some_iff.1 hs
        obtain ⟨rfl, -⟩ := Prod.mk.inj hw
        rw [List.length_cons, ih hv]

/-- No bytes are made. -/
theorem length_spread_le {n h : ℕ} {s s' : List UInt8} {w : Word}
    (hs : spread n h s = some (w, s')) :
    s'.length ≤ s.length := by
  induction n generalizing h s w with
  | zero =>
      obtain ⟨-, rfl⟩ := Prod.mk.inj (Option.some_inj.1 hs)
      exact le_rfl
  | succ n ih =>
      rw [spread_succ] at hs
      split at hs
      · split at hs
        · cases hs
        · obtain ⟨⟨v, t⟩, hv, hw⟩ := Option.map_eq_some_iff.1 hs
          obtain ⟨-, rfl⟩ := Prod.mk.inj hw
          exact (ih hv).trans (Nat.le_succ _)
      · obtain ⟨⟨v, t⟩, hv, hw⟩ := Option.map_eq_some_iff.1 hs
        obtain ⟨-, rfl⟩ := Prod.mk.inj hw
        exact ih hv

end Words

/-! ### Streams -/

/-- A word with a header. -/
def plain (w : Word) : List UInt8 := UInt8.ofNat (mask w) :: w.filter (· ≠ 0)

/-- A run. -/
def run (ws : List Word) : List UInt8 :=
  if ws = [] then [] else 0xff :: UInt8.ofNat (ws.length - 1) :: ws.flatten

/-- **Packing** words, behind a run `r` that has begun. -/
def pack (r : List Word) : List Word → List UInt8
  | [] => run r
  | w :: ws =>
      if r = [] then if weight w = 8 then pack [w] ws else plain w ++ pack [] ws
      else if 6 ≤ weight w then
        if r.length = 255 then run (r ++ [w]) ++ pack [] ws else pack (r ++ [w]) ws
      else run r ++ (plain w ++ pack [] ws)

/-- One more word: what is packed so far, and the run that has begun. -/
def step (x : List UInt8 × List Word) (w : Word) : List UInt8 × List Word :=
  if x.2 = [] then if weight w = 8 then (x.1, [w]) else (x.1 ++ plain w, [])
  else if 6 ≤ weight w then
    if x.2.length = 255 then (x.1 ++ run (x.2 ++ [w]), []) else (x.1, x.2 ++ [w])
  else (x.1 ++ run x.2 ++ plain w, [])

/-- **A stream, and the bytes it stands for.** -/
inductive Packed : List UInt8 → List UInt8 → Prop
  | nil : Packed [] []
  | run {s out : List UInt8} (n : ℕ) (data : List UInt8) : n < 256 → data.length = 8 * (n + 1) →
      Packed s out → Packed (0xff :: UInt8.ofNat n :: (data ++ s)) (data ++ out)
  | plain {s s' out : List UInt8} {w : Word} (h : UInt8) : h ≠ 0xff →
    spread 8 h.toNat s = some (w, s') →
      Packed s' out → Packed (h :: s) (w ++ out)

section Streams

variable {r ws : List Word} {w : Word} {s out : List UInt8}

/-- What one more word does. -/
theorem step_cases (x : List UInt8 × List Word) (w : Word) :
    (x.2 = [] ∧ weight w = 8 ∧ step x w = (x.1, [w])) ∨
    (x.2 = [] ∧ weight w ≠ 8 ∧ step x w = (x.1 ++ plain w, [])) ∨
    (x.2 ≠ [] ∧ 6 ≤ weight w ∧ x.2.length = 255 ∧ step x w = (x.1 ++ run (x.2 ++ [w]), [])) ∨
    (x.2 ≠ [] ∧ 6 ≤ weight w ∧ x.2.length ≠ 255 ∧ step x w = (x.1, x.2 ++ [w])) ∨
    (x.2 ≠ [] ∧ weight w < 6 ∧ step x w = (x.1 ++ run x.2 ++ plain w, [])) := by
  by_cases hnil : x.2 = []
  · by_cases h8 : weight w = 8
    · exact Or.inl ⟨hnil, h8, by rw [step, if_pos hnil, if_pos h8]⟩
    · exact Or.inr (Or.inl ⟨hnil, h8, by rw [step, if_pos hnil, if_neg h8]⟩)
  · by_cases h6 : 6 ≤ weight w
    · by_cases h255 : x.2.length = 255
      · exact Or.inr
          (Or.inr (Or.inl ⟨hnil, h6, h255, by rw [step, if_neg hnil, if_pos h6, if_pos h255]⟩))
      · exact Or.inr (Or.inr
          (Or.inr (Or.inl ⟨hnil, h6, h255, by rw [step, if_neg hnil, if_pos h6, if_neg h255]⟩)))
    · exact Or.inr (Or.inr (Or.inr (Or.inr ⟨hnil, by omega, by rw [step, if_neg hnil, if_neg h6]⟩)))

theorem step_append_pack (x : List UInt8 × List Word) (w : Word) (ws : List Word) :
    (step x w).1 ++ pack (step x w).2 ws = x.1 ++ pack x.2 (w :: ws) := by
  rw [step, pack]
  split
  · split
    · rfl
    · exact List.append_assoc ..
  · split
    · split
      · exact List.append_assoc ..
      · rfl
    · simp only [List.append_assoc]

theorem length_flatten_words (h : ∀ w ∈ ws, w.length = 8) : ws.flatten.length = 8 * ws.length := by
  induction ws with
  | nil => rfl
  | cons w ws ih =>
      rw [List.flatten_cons, List.length_append, h w List.mem_cons_self,
        ih fun v hv => h v (List.mem_cons_of_mem w hv), List.length_cons]
      ring

@[simp] theorem run_nil : run [] = [] := rfl

theorem length_plain (w : Word) : (plain w).length = 1 + weight w := by
  rw [plain, List.length_cons, weight, Nat.add_comm]

theorem length_run (hne : r ≠ []) (h : ∀ w ∈ r, w.length = 8) :
    (run r).length = 2 + 8 * r.length := by
  rw [run, if_neg hne, List.length_cons, List.length_cons, length_flatten_words h]
  ring

theorem Packed.plain_append (hw : w.length = 8) (hweight : weight w ≠ 8) (h : Packed s out) :
    Packed (ZeroPack.plain w ++ s) (w ++ out) := by
  have hlt := mask_lt w
  rw [hw] at hlt
  have hnat : (UInt8.ofNat (mask w)).toNat = mask w := by
    rw [UInt8.toNat_ofNat']
    exact Nat.mod_eq_of_lt hlt
  have hhead : UInt8.ofNat (mask w) ≠ 0xff := by
    intro heq
    have hfull := congrArg UInt8.toNat heq
    rw [hnat] at hfull
    refine hweight ((weight_of_mask w ?_).trans hw)
    rw [hfull, hw]
    rfl
  have hspread : spread 8 (UInt8.ofNat (mask w)).toNat (w.filter (· ≠ 0) ++ s) = some (w, s) := by
    rw [hnat, ← hw]
    exact spread_mask w s
  exact .plain _ hhead hspread h

theorem Packed.run_append (hr : r.length ≤ 256) (hlen : ∀ w ∈ r, w.length = 8) (h : Packed s out) :
    Packed (ZeroPack.run r ++ s) (r.flatten ++ out) := by
  rw [ZeroPack.run]
  split
  · rename_i hnil
    rw [hnil]
    exact h
  · rename_i hne
    have hpos : 0 < r.length := List.length_pos_iff.2 hne
    refine .run (r.length - 1) r.flatten (by omega) ?_ h
    rw [length_flatten_words hlen]
    omega

/-- **What is packed stands for the words.** -/
theorem packed_pack (hr : r.length ≤ 255) (hlr : ∀ w ∈ r, w.length = 8)
    (hlw : ∀ w ∈ ws, w.length = 8) :
    Packed (pack r ws) (r.flatten ++ ws.flatten) := by
  induction ws generalizing r with
  | nil =>
      rw [pack]
      have h := Packed.run_append (by omega) hlr .nil
      rw [List.append_nil] at h
      exact h
  | cons w ws ih =>
      have hw : w.length = 8 := hlw w List.mem_cons_self
      have hws : ∀ w ∈ ws, w.length = 8 := fun v hv => hlw v (List.mem_cons_of_mem w hv)
      have hrw : ∀ v ∈ r ++ [w], v.length = 8 := fun v hv => by
        rcases List.mem_append.1 hv with hv | hv
        · exact hlr v hv
        · rw [List.mem_singleton.1 hv, hw]
      have hone : ∀ v ∈ [w], v.length = 8 := fun v hv => by rw [List.mem_singleton.1 hv, hw]
      have hfresh := ih (r := []) (Nat.zero_le _) nofun hws
      rw [List.flatten_nil, List.nil_append] at hfresh
      rw [List.flatten_cons, pack]
      split
      · rename_i hnil
        rw [hnil, List.flatten_nil, List.nil_append]
        split
        · have h := ih (r := [w]) (by rw [List.length_singleton]; decide) hone hws
          rw [List.flatten_singleton] at h
          exact h
        · rename_i hweight
          exact hfresh.plain_append hw hweight
      · split
        · split
          · rename_i h255
            have h := hfresh.run_append (r := r ++ [w])
              (by rw [List.length_append, h255, List.length_singleton]) hrw
            rw [List.flatten_append, List.flatten_singleton, List.append_assoc] at h
            exact h
          · have h := ih (r := r ++ [w])
              (by rw [List.length_append, List.length_singleton]; omega) hrw hws
            rw [List.flatten_append, List.flatten_singleton, List.append_assoc] at h
            exact h
        · rename_i hweight
          exact (hfresh.plain_append hw (by omega)).run_append (r := r) (by omega) hlr

/-- What a word costs at the end of a stream, outside of a run or in it. -/
def cost (w : Word) : ℕ := if 6 ≤ weight w then 8 else 1 + weight w

/-- **How long it is**: two bytes more for every 256 words that have begun.  The last word does not
cost more than it has. -/
theorem length_pack_le (hr : r.length ≤ 255) (hlr : ∀ w ∈ r, w.length = 8)
    (hlw : ∀ w ∈ ws, w.length = 8)
    (hw : w.length = 8) : (pack r (ws ++ [w])).length ≤
      8 * (r.length + ws.length) + cost w + 2 * ((r.length + ws.length + 256) / 256) := by
  have hlen : ∀ {r : List Word} {v : Word}, (∀ w ∈ r, w.length = 8) → v.length = 8 → ∀ u ∈ r ++ [v],
    u.length = 8 := by
    intro r v hr hv u hu
    rcases List.mem_append.1 hu with hu | hu
    · exact hr u hu
    · rw [List.mem_singleton.1 hu, hv]
  induction ws generalizing r with
  | nil =>
      have hle := weight_le w
      rw [List.nil_append, pack, List.length_nil, cost]
      split
      · rename_i hnil
        rw [hnil, List.length_nil]
        split
        · rename_i h8
          have hrun : (run [w]).length = 2 + 8 * 1 := length_run (by simp) (hlen (r := []) nofun hw)
          rw [pack, hrun, if_pos (by omega)]
        · rw [List.length_append, length_plain, pack, run, if_pos rfl, List.length_nil]
          split <;> omega
      · rename_i hne
        have hpos : 0 < r.length := List.length_pos_iff.2 hne
        split
        · rename_i h6
          split
          · rename_i h255
            rw [List.length_append, length_run (by simp) (hlen hlr hw), List.length_append, h255,
              pack, run, if_pos rfl]
            simp
          · rw [pack, length_run (by simp) (hlen hlr hw), List.length_append, List.length_singleton]
            omega
        · rw [List.length_append, List.length_append, length_run hne hlr, length_plain, pack,
            run, if_pos rfl,
            List.length_nil]
          omega
  | cons v ws ih =>
      have hv : v.length = 8 := hlw v List.mem_cons_self
      have hws : ∀ w ∈ ws, w.length = 8 := fun u hu => hlw u (List.mem_cons_of_mem v hu)
      have hle := weight_le v
      have hfresh := ih (r := []) (Nat.zero_le _) nofun hws
      rw [List.length_nil] at hfresh
      rw [List.cons_append, pack, List.length_cons]
      split
      · rename_i hnil
        rw [hnil, List.length_nil]
        split
        · have hrun := ih (r := [v]) (by rw [List.length_singleton]; decide)
            (hlen (r := []) nofun hv) hws
          rw [List.length_singleton] at hrun
          omega
        · rw [List.length_append, length_plain]
          omega
      · rename_i hne
        split
        · split
          · rename_i h255
            rw [List.length_append, length_run (by simp) (hlen hlr hv), List.length_append,
              List.length_singleton,
              h255]
            omega
          · have hrun := ih (r := r ++ [v])
              (by rw [List.length_append, List.length_singleton]; omega)
              (hlen hlr hv) hws
            rw [List.length_append, List.length_singleton] at hrun
            omega
        · rw [List.length_append, List.length_append, length_run hne hlr, length_plain]
          omega

end Streams

end ZeroPack
