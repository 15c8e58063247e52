/-
**Packing messages: `lualib-src/sproto/sproto.c`.**

Every message between a client and the server is packed by `sproto_pack`.  It writes into a buffer
whose size is bounded by a formula in `lpack`; it writes the bytes of a run where they will be, but
its header only when the run is over.  The last word is completed with zeros in a buffer of its own.
When this word is the last of a run of 256, the run is copied out of the message with what is behind
it, and not out of this buffer.

The words of `Halieutics.ZeroPack` are those of the message.  A function has no value where it reads
or writes outside of a block.

Main definitions:

* `Halieutics.SprotoPack.packSeg`, `Halieutics.SprotoPack.writeFF`,
  `Halieutics.SprotoPack.sprotoPack` — **the code**;
* `Halieutics.SprotoPack.words` — the words of a message;
* `Halieutics.SprotoPack.Rep` — the state of the loop.

Main results:

* `Halieutics.SprotoPack.Rep.round` — **one round of the loop**;
* `Halieutics.SprotoPack.sprotoPack_spec` — **what `sproto_pack` writes**;
* `Halieutics.SprotoPack.sprotoPack_overrun` — and when it leaves the message.
-/

import Halieutics.Blocks
import Halieutics.ZeroPack

set_option relaxedAutoImplicit false
set_option autoImplicit false

namespace Halieutics.SprotoPack

open Blocks ZeroPack

/-! ### Packing -/

/-- The local variables of the loop of `pack_seg`. -/
structure Seg where
  header : ℕ := 0
  notzero : ℕ := 0
  buffer : ℕ
  sz : ℤ
  mem : List UInt8

/-- The loop of `pack_seg`, over the bytes from the index `i` on. -/
def segLoop : List UInt8 → ℕ → Seg → Option Seg
  | [], _, s => some s
  | b :: src, i, s =>
      if b ≠ 0 then
        let s := { s with notzero := s.notzero + 1, header := s.header ||| (1 <<< i) }
        if 0 < s.sz then
          (store s.mem s.buffer [b]).bind fun mem =>
            segLoop src (i + 1) { s with mem := mem, buffer := s.buffer + 1, sz := s.sz - 1 }
        else segLoop src (i + 1) s
      else segLoop src (i + 1) s

/-- **`pack_seg`**: what it returns, and the block with the buffer. -/
def packSeg (src : List UInt8) (mem : List UInt8) (buffer : ℕ) (sz : ℤ) (n : ℕ) :
    Option (ℕ × List UInt8) :=
  (segLoop src 0 { buffer := buffer + 1, sz := sz - 1, mem := mem }).bind fun s =>
    let notzero := if (s.notzero = 7 ∨ s.notzero = 6) ∧ 0 < n then 8 else s.notzero
    if notzero = 8 then some (if 0 < n then 8 else 10, s.mem)
    else if sz - 1 < 0 then some (notzero + 1, s.mem)
    else (store s.mem buffer [UInt8.ofNat s.header]).map fun mem => (notzero + 1, mem)

/-- A pointer of `sproto_pack`: into the message, or into `tmp`. -/
structure Ptr where
  tmp : Bool := false
  off : ℕ := 0

/-- Reading through a pointer. -/
def Ptr.load (block tmp : List UInt8) (p : Ptr) (n : ℕ) : Option (List UInt8) :=
  Blocks.load (if p.tmp then tmp else block) p.off n

/-- **`write_ff`**. -/
def writeFF (block tmp : List UInt8) (src : Ptr) (mem : List UInt8) (des n : ℕ) :
    Option (List UInt8) :=
  let align8 := (n + 7) / 8 * 8
  (store mem des [0xff, UInt8.ofNat (align8 / 8 - 1)]).bind fun mem =>
    (src.load block tmp n).bind fun v =>
      (store mem (des + 2) v).bind fun mem =>
        store mem (des + 2 + n) (List.replicate (align8 - n) 0)

/-- The local variables of `sproto_pack`. -/
structure State where
  tmp : List UInt8 := List.replicate 8 0
  src : Ptr := {}
  buffer : ℕ := 0
  bufsz : ℤ
  ffSrcstart : Ptr := {}
  ffDesstart : ℕ := 0
  ffN : ℕ := 0
  size : ℕ := 0
  mem : List UInt8

/-- The message as the loop reads it: at the end through `tmp`. -/
def padded (block : List UInt8) (srcsz i : ℕ) (s : State) : Option State :=
  if srcsz < i + 8 then
    (s.src.load block s.tmp (srcsz - i)).map fun v =>
      { s with tmp := v ++ List.replicate (i + 8 - srcsz) 0, src := { tmp := true } }
  else some s

/-- What follows `pack_seg`, which returned `n`: the runs. -/
def ended (block : List UInt8) (n : ℕ) (s : State) : Option State :=
  if n = 10 then some { s with ffSrcstart := s.src, ffDesstart := s.buffer, ffN := 1 }
  else if n = 8 ∧ 0 < s.ffN then
    if s.ffN + 1 = 256 then
      if 0 ≤ s.bufsz then
        (writeFF block s.tmp s.ffSrcstart s.mem s.ffDesstart (256 * 8)).map fun mem =>
          { s with mem := mem, ffN := 0 }
      else some { s with ffN := 0 }
    else some { s with ffN := s.ffN + 1 }
  else if 0 < s.ffN then
    if 0 ≤ s.bufsz then
      (writeFF block s.tmp s.ffSrcstart s.mem s.ffDesstart (s.ffN * 8)).map fun mem =>
        { s with mem := mem, ffN := 0 }
    else some { s with ffN := 0 }
  else some s

/-- One round of the loop of `sproto_pack`. -/
def packRound (block : List UInt8) (srcsz i : ℕ) (s : State) : Option State :=
  (padded block srcsz i s).bind fun s =>
    (s.src.load block s.tmp 8).bind fun bytes =>
      (packSeg bytes s.mem s.buffer s.bufsz s.ffN).bind fun (n, mem) =>
        (ended block n { s with mem := mem, bufsz := s.bufsz - n }).map fun s =>
          { s with
            src := { s.src with off := s.src.off + 8 }, buffer := s.buffer + n, size := s.size + n }

/-- The loop of `sproto_pack`, with so many rounds to go. -/
def packLoop (block : List UInt8) (srcsz : ℕ) : ℕ → ℕ → State → Option State
  | 0, _, s => some s
  | rounds + 1, i, s => (packRound block srcsz i s).bind (packLoop block srcsz rounds (i + 8))

/-- The run at the end. -/
def finish (block : List UInt8) (srcsz : ℕ) (s : State) : Option (List UInt8) :=
  if 0 ≤ s.bufsz then
    if s.ffN = 1 then writeFF block s.tmp s.ffSrcstart s.mem s.ffDesstart 8
    else if 1 < s.ffN then writeFF block s.tmp s.ffSrcstart s.mem s.ffDesstart
      (srcsz - s.ffSrcstart.off)
    else some s.mem
  else some s.mem

/-- **`sproto_pack`**, of the first `srcsz` bytes of a block, into a buffer of `bufsz` bytes: what
it returns, and the buffer. -/
def sprotoPack (block : List UInt8) (srcsz : ℕ) (mem : List UInt8) (bufsz : ℤ) :
    Option (ℕ × List UInt8) :=
  (packLoop block srcsz ((srcsz + 7) / 8) 0 { bufsz := bufsz, mem := mem }).bind fun s =>
    (finish block srcsz s).map fun mem => (s.size, mem)

/-! ### The words of a message -/

/-- The number of words. -/
def count (s : List UInt8) : ℕ := (s.length + 7) / 8

/-- The message, completed with zeros. -/
def pad (s : List UInt8) : List UInt8 := s ++ List.replicate (8 * count s - s.length) 0

/-- A word of the message. -/
def wordAt (s : List UInt8) (k : ℕ) : Word := ((pad s).drop (8 * k)).take 8

/-- **The words of a message.** -/
def words (s : List UInt8) : List Word := (List.range' 0 (count s)).map (wordAt s)

/-- What the first `k` words are packed to, and the run that has begun. -/
def ran (s : List UInt8) : ℕ → List UInt8 × List Word
  | 0 => ([], [])
  | k + 1 => step (ran s k) (wordAt s k)

/-- The run that has begun. -/
abbrev runAt (s : List UInt8) (k : ℕ) : List Word := (ran s k).2

/-- A run of the last of the first `k` words, of which the first one has no zeros. -/
structure Tail (s : List UInt8) (k : ℕ) (r : List Word) : Prop where
  le : r.length ≤ k
  lt : r.length ≤ 255
  words : r = (List.range' (k - r.length) r.length).map (wordAt s)
  head : r ≠ [] → weight (wordAt s (k - r.length)) = 8

theorem Tail.nil (s : List UInt8) (k : ℕ) :
    Tail s k [] := ⟨Nat.zero_le k, Nat.zero_le _, rfl, fun h => absurd rfl h⟩

section Words

variable (s : List UInt8) {k m : ℕ}

theorem length_pad : (pad s).length = 8 * count s := by
  rw [pad, List.length_append, List.length_replicate, count]
  omega

theorem length_wordAt (hk : k < count s) : (wordAt s k).length = 8 := by
  rw [wordAt, List.length_take, List.length_drop, length_pad]
  omega

theorem length_of_mem_words {w : Word} (hw : w ∈ words s) : w.length = 8 := by
  obtain ⟨k, hk, rfl⟩ := List.mem_map.1 hw
  rw [List.mem_range'_1] at hk
  exact length_wordAt s (by omega)

/-- Words behind each other. -/
theorem flatten_wordAt (k m : ℕ) :
    ((List.range' k m).map (wordAt s)).flatten = ((pad s).drop (8 * k)).take (8 * m) := by
  induction m generalizing k with
  | zero => rfl
  | succ m ih =>
      rw [List.range'_succ, List.map_cons, List.flatten_cons, ih, wordAt, Nat.mul_add, Nat.mul_add,
        ← List.drop_drop,
        Nat.add_comm (8 * m), List.take_add]

theorem flatten_words : (words s).flatten = pad s := by
  rw [words, flatten_wordAt, Nat.mul_zero, List.drop_zero, ← length_pad, List.take_length]

/-- **The run that has begun** consists of the last words, and the first of them has no zeros. -/
theorem tail_ran (k : ℕ) : Tail s k (runAt s k) := by
  induction k with
  | zero => exact .nil s 0
  | succ k ih =>
      rw [runAt, ran]
      rcases step_cases (ran s k) (wordAt s k) with
        ⟨-, h8, hstep⟩ | ⟨-, -, hstep⟩ | ⟨-, -, -, hstep⟩ |
        ⟨hne, -, h255, hstep⟩ | ⟨-, -, hstep⟩
      · rw [hstep]
        exact ⟨Nat.succ_le_succ (Nat.zero_le k), by rw [List.length_singleton]; decide, rfl,
          fun _ => h8⟩
      · rw [hstep]
        exact .nil s (k + 1)
      · rw [hstep]
        exact .nil s (k + 1)
      · rw [hstep]
        have hle := ih.le
        have hlt := ih.lt
        have hsub : k + 1 - (runAt s k ++ [wordAt s k]).length = k - (runAt s k).length := by
          rw [List.length_append, List.length_singleton]
          omega
        have hadd : k - (runAt s k).length + (runAt s k).length = k := Nat.sub_add_cancel hle
        refine ⟨?_, ?_, ?_, fun _ => ?_⟩
        · rw [List.length_append, List.length_singleton]
          exact Nat.succ_le_succ hle
        · rw [List.length_append, List.length_singleton]
          exact Nat.lt_of_le_of_ne hlt h255
        · rw [hsub, List.length_append, List.length_singleton, List.range'_1_concat,
            List.map_append, hadd, ← ih.words]
          rfl
        · rw [hsub]
          exact ih.head hne
      · rw [hstep]
        exact .nil s (k + 1)

/-- **The words that are left are packed behind it.** -/
theorem ran_append_pack (hk : k ≤ count s) :
    (ran s k).1 ++ pack (runAt s k) ((List.range' k (count s - k)).map (wordAt s)) =
    pack [] (words s) := by
  induction k with
  | zero => rfl
  | succ k ih =>
      rw [← ih (by omega), show count s - k = count s - (k + 1) + 1 by omega, List.range'_succ,
        List.map_cons]
      exact step_append_pack ..

/-- At the end the run is packed. -/
theorem pack_words : pack [] (words s) = (ran s (count s)).1 ++ run (runAt s (count s)) := by
  rw [← ran_append_pack s le_rfl, Nat.sub_self]
  rfl

end Words

/-! ### One word -/

section Packing

variable {s e : List UInt8}

/-- **The loop of `pack_seg`**: the bytes that are not zero, as far as there is room. -/
theorem segLoop_spec (w : Word) (i : ℕ) (x : Seg) (hcap : x.buffer + x.sz ≤ x.mem.length) :
    ∃ y, segLoop w i x = some y ∧ y.header = x.header ||| (mask w <<< i) ∧
    y.notzero = x.notzero + weight w ∧
      y.mem.length = x.mem.length ∧
      (∀ j u, At x.mem j u → j + u.length ≤ x.buffer → At y.mem j u) ∧
      ((weight w : ℤ) ≤ x.sz → At y.mem x.buffer (w.filter (· ≠ 0))) := by
  induction w generalizing i x with
  | nil =>
      refine ⟨x, rfl, ?_, rfl, rfl, fun _ _ h _ => h, fun hroom => at_nil ?_⟩
      · rw [mask, Nat.zero_shiftLeft, Nat.or_zero]
      · have hroom : (0 : ℤ) ≤ x.sz := hroom
        omega
  | cons b w ih =>
      by_cases hb : b = 0
      · have hskip : segLoop (b :: w) i x = segLoop w (i + 1) x := by
          rw [segLoop, if_neg (not_not.2 hb)]
        have hmask : mask w <<< (i + 1) = mask (b :: w) <<< i := by
          rw [mask, if_pos hb, Nat.zero_add, Nat.shiftLeft_succ_inside]
        have hweight : weight (b :: w) = weight w := by
          rw [weight_cons, if_pos hb, Nat.add_zero]
        rw [hskip, ← hmask, hweight, List.filter_cons_of_neg (by simpa using hb)]
        exact ih (i + 1) x hcap
      · have hmask : (1 <<< i) ||| (mask w <<< (i + 1)) = mask (b :: w) <<< i := by
          rw [mask, if_neg hb, Nat.shiftLeft_succ_inside, ← Nat.shiftLeft_or_distrib]
          congr 1
          have hodd := Nat.two_pow_add_eq_or_of_lt (i := 1) (b := 1) (by decide) (mask w)
          rw [Nat.pow_one] at hodd
          rw [Nat.or_comm, ← hodd, Nat.add_comm]
        have hweight : weight (b :: w) = weight w + 1 := by
          rw [weight_cons, if_neg hb]
        rw [segLoop, if_pos hb]
        dsimp only
        by_cases hroom : 0 < x.sz
        · rw [if_pos hroom]
          obtain ⟨mem, hstore, hlen, hat, hframe⟩ :=
            exists_store (b := x.mem) (i := x.buffer) (v := [b])
            (by rw [List.length_singleton]; omega)
          rw [hstore, Option.bind_some]
          obtain ⟨y, hy, hheader, hnot, hmem, hkeep, hdata⟩ := ih (i + 1)
            { header := x.header ||| 1 <<< i, notzero := x.notzero + 1, buffer := x.buffer + 1,
              sz := x.sz - 1, mem := mem }
            (by dsimp only; omega)
          refine ⟨y, hy, ?_, ?_, hmem.trans hlen, fun j u hu hj => ?_, fun hw => ?_⟩
          · rw [hheader, Nat.or_assoc, hmask]
          · rw [hnot, hweight]
            dsimp only
            omega
          · exact hkeep j u (hframe j u hu (Or.inl hj)) (Nat.le_succ_of_le hj)
          · rw [List.filter_cons_of_pos (by simpa using hb), ← List.singleton_append]
            refine at_append.2 ⟨hkeep _ _ hat ?_, hdata ?_⟩
            · rw [List.length_singleton]
            · rw [hweight] at hw
              dsimp only
              omega
        · rw [if_neg hroom]
          obtain ⟨y, hy, hheader, hnot, hmem, hkeep, -⟩ := ih (i + 1)
            { x with notzero := x.notzero + 1, header := x.header ||| (1 <<< i) } hcap
          refine ⟨y, hy, ?_, ?_, hmem, hkeep, fun hw => ?_⟩
          · rw [hheader, Nat.or_assoc, hmask]
          · rw [hnot, hweight]
            dsimp only
            omega
          · rw [hweight] at hw
            omega

/-- What `pack_seg` returns for a word, in a run of `n` words. -/
def segSize (w : Word) (n : ℕ) : ℕ :=
  if weight w = 8 ∨ (6 ≤ weight w ∧ 0 < n) then if 0 < n then 8 else 10 else weight w + 1

/-- **`pack_seg`** writes a word with a header, if there is room, and nothing before it. -/
theorem packSeg_spec {w : Word} (hw : w.length = 8) {mem : List UInt8} {buffer : ℕ} {sz : ℤ} (n : ℕ)
    (hcap : buffer + sz ≤ mem.length) :
    ∃ mem', packSeg w mem buffer sz n = some (segSize w n, mem') ∧
      mem'.length = mem.length ∧ (∀ j u, At mem j u → j + u.length ≤ buffer → At mem' j u) ∧
      (¬ (weight w = 8 ∨ (6 ≤ weight w ∧ 0 < n)) → (1 + weight w : ℤ) ≤ sz →
      At mem' buffer (plain w)) := by
  obtain ⟨y, hy, hheader, hnot, hlen, hkeep, hdata⟩ := segLoop_spec w 0
    { buffer := buffer + 1, sz := sz - 1, mem := mem } (by dsimp only; omega)
  have hle := weight_le w
  rw [hw] at hle
  dsimp only at hheader hnot hlen hkeep hdata
  rw [Nat.zero_or, Nat.shiftLeft_zero] at hheader
  rw [Nat.zero_add] at hnot
  have hframe : ∀ j u, At mem j u → j + u.length ≤ buffer → At y.mem j u := fun j u hu hj =>
    hkeep j u hu (Nat.le_succ_of_le hj)
  rw [packSeg, hy, Option.bind_some]
  dsimp only
  rw [hnot, segSize]
  by_cases hrun : weight w = 8 ∨ (6 ≤ weight w ∧ 0 < n)
  · have hfull : (if (weight w = 7 ∨ weight w = 6) ∧ 0 < n then 8 else weight w) = 8 := by
      split <;> omega
    rw [hfull, if_pos rfl, if_pos hrun]
    exact ⟨y.mem, rfl, hlen, hframe, fun h => absurd hrun h⟩
  · have hplain : (if (weight w = 7 ∨ weight w = 6) ∧ 0 < n then 8 else weight w) = weight w :=
      if_neg (by omega)
    rw [hplain, if_neg (by omega), if_neg hrun]
    by_cases hroom : sz - 1 < 0
    · rw [if_pos hroom]
      exact ⟨y.mem, rfl, hlen, hframe, fun _ h => by omega⟩
    · rw [if_neg hroom]
      obtain ⟨mem', hstore, hlen', hat, hkeep'⟩ :=
        exists_store (b := y.mem) (i := buffer) (v := [UInt8.ofNat y.header])
        (by rw [List.length_singleton]; omega)
      rw [hstore]
      refine ⟨mem', rfl, hlen'.trans hlen,
        fun j u hu hj => hkeep' j u (hframe j u hu hj) (Or.inl hj), fun _ hsz => ?_⟩
      rw [hheader] at hat
      rw [plain, ← List.singleton_append]
      exact at_append.2 ⟨hat, hkeep' _ _ (hdata (by omega)) (Or.inr le_rfl)⟩

/-- **`write_ff`** writes a run. -/
theorem writeFF_spec {block tmp v : List UInt8} (mem : List UInt8) {src : Ptr} (des : ℕ) {n : ℕ}
    (hv : src.load block tmp n = some v)
    (hlen : v.length = n) (hfit : des + 2 + (n + 7) / 8 * 8 ≤ mem.length) :
    ∃ mem', writeFF block tmp src mem des n = some mem' ∧ mem'.length = mem.length ∧
      At mem' des
      (0xff :: UInt8.ofNat ((n + 7) / 8 - 1) :: (v ++ List.replicate ((n + 7) / 8 * 8 - n) 0)) ∧
      ∀ j u, At mem j u → j + u.length ≤ des ∨ des + 2 + (n + 7) / 8 * 8 ≤ j → At mem' j u := by
  have hup : n ≤ (n + 7) / 8 * 8 := by omega
  obtain ⟨m₁, h₁, hl₁, hat₁, hf₁⟩ := exists_store (b := mem) (i := des)
    (v := [0xff, UInt8.ofNat ((n + 7) / 8 * 8 / 8 - 1)]) (by simp; omega)
  obtain ⟨m₂, h₂, hl₂, hat₂, hf₂⟩ := exists_store (b := m₁) (i := des + 2) (v := v) (by omega)
  obtain ⟨m₃, h₃, hl₃, hat₃, hf₃⟩ := exists_store (b := m₂) (i := des + 2 + n)
    (v := List.replicate ((n + 7) / 8 * 8 - n) 0) (by rw [List.length_replicate]; omega)
  have hround : (n + 7) / 8 * 8 / 8 = (n + 7) / 8 := Nat.mul_div_cancel _ (by decide)
  refine ⟨m₃, ?_, hl₃.trans (hl₂.trans hl₁), ?_, fun j u hu hout => ?_⟩
  · rw [writeFF, h₁, Option.bind_some, hv, Option.bind_some, h₂, Option.bind_some, h₃]
  · rw [hround] at hat₁
    refine (at_append (u := [0xff, UInt8.ofNat ((n + 7) / 8 - 1)])).2 ⟨?_, at_append.2 ⟨?_, ?_⟩⟩
    · refine hf₃ _ _ (hf₂ _ _ hat₁ (Or.inl ?_)) (Or.inl ?_)
      · simp
      · simp
    · exact hf₃ _ _ hat₂ (Or.inl (by rw [hlen]; exact le_rfl))
    · rw [hlen]
      exact hat₃
  · rw [List.length_replicate] at hf₃
    refine hf₃ j u (hf₂ j u (hf₁ j u hu ?_) ?_) ?_
    · rcases hout with hout | hout
      · exact Or.inl hout
      · exact Or.inr (by simp; omega)
    · rcases hout with hout | hout
      · exact Or.inl (by omega)
      · exact Or.inr (by omega)
    · rcases hout with hout | hout
      · exact Or.inl (by omega)
      · exact Or.inr (by omega)

/-! ### The loop -/

/-- **The run of 256 ends in a word that is not complete**, and is not copied out of `tmp`. -/
def Overrun (s : List UInt8) : Prop :=
  s.length % 8 ≠ 0 ∧ (runAt s (count s - 1)).length = 255 ∧ 6 ≤ weight (wordAt s (count s - 1))

instance (s : List UInt8) : Decidable (Overrun s) := inferInstanceAs (Decidable (_ ∧ _))

/-- **The state of the loop** after `k` words.  The header of a run that has begun is not yet
written. -/
structure Rep (s : List UInt8) (cap : ℕ) (k : ℕ) (x : State) : Prop where
  ffN : x.ffN = (runAt s k).length
  buffer : x.buffer = (ran s k).1.length + (run (runAt s k)).length
  size : x.size = x.buffer
  bufsz : x.buffer + x.bufsz = cap
  cap : cap ≤ x.mem.length
  packed : 0 ≤ x.bufsz → At x.mem 0 (ran s k).1
  src : k < count s → x.src = { off := 8 * k }
  start : runAt s k ≠ [] → x.ffDesstart = (ran s k).1.length ∧
    x.ffSrcstart = { off := 8 * (k - (runAt s k).length) }

/-- Whole words of the message, read from it. -/
theorem load_words {j m : ℕ} (h : 8 * (j + m) ≤ s.length) (tmp : List UInt8) :
    Ptr.load (s ++ e) tmp { off := 8 * j } (8 * m) =
    some ((List.range' j m).map (wordAt s)).flatten := by
  have hlen : (((pad s).drop (8 * j)).take (8 * m)).length = 8 * m := by
    rw [List.length_take, List.length_drop, length_pad, count]
    omega
  change Blocks.load (s ++ e) (8 * j) (8 * m) = _
  rw [flatten_wordAt, load_eq_some_iff, at_iff_getElem?, hlen]
  have hsum : 8 * j + 8 * m ≤ s.length := by omega
  refine ⟨rfl, ?_, fun i hi => ?_⟩
  · rw [List.length_append]
    exact hsum.trans (Nat.le_add_right _ _)
  rw [List.getElem?_take, if_pos hi, List.getElem?_drop, pad, List.getElem?_append_left (by omega),
    List.getElem?_append_left (by omega)]

/-- What the message is completed with are zeros. -/
theorem weight_wordAt_le {k : ℕ} (hk : k < count s) : weight (wordAt s k) ≤ s.length - 8 * k := by
  by_cases hwhole : 8 * (k + 1) ≤ s.length
  · have hle := weight_le (wordAt s k)
    rw [length_wordAt s hk] at hle
    omega
  have hcount : 8 * count s < s.length + 8 := by
    rw [count]
    omega
  have hsplit : wordAt s k = s.drop (8 * k) ++ List.replicate (8 * count s - s.length) 0 := by
    rw [wordAt, pad, List.drop_append_of_le_length (by omega)]
    refine List.take_of_length_le ?_
    rw [List.length_append, List.length_drop, List.length_replicate]
    omega
  have hzeros : (List.replicate (8 * count s - s.length) (0 : UInt8)).filter (· ≠ 0) = [] := by
    rw [List.filter_eq_nil_iff]
    intro b hb
    rw [(List.mem_replicate.1 hb).2]
    decide
  rw [hsplit, weight, List.filter_append, hzeros, List.append_nil, ← List.length_drop]
  exact List.length_filter_le _ _

/-- A word without zeros is complete. -/
theorem complete_of_weight {k : ℕ} (hk : k < count s) (h : weight (wordAt s k) = 8) :
    8 * (k + 1) ≤ s.length := by
  have hle := weight_wordAt_le hk
  omega

/-- The rest of the message, read from it. -/
theorem load_rest {i : ℕ} (hi : i ≤ s.length) (tmp : List UInt8) :
    Ptr.load (s ++ e) tmp { off := i } (s.length - i) = some (s.drop i) := by
  have hat := (at_append.1 (at_self (s ++ e))).1
  have hsplit : s.take i ++ s.drop i = s := List.take_append_drop ..
  rw [← hsplit] at hat
  have hat := (at_append.1 hat).2
  rw [hsplit, List.length_take, Nat.min_eq_left hi, Nat.zero_add] at hat
  change Blocks.load (s ++ e) i (s.length - i) = _
  rw [load_eq_some_iff, List.length_drop]
  exact ⟨rfl, hat⟩

/-- **The word that the loop reads.** -/
theorem padded_spec {k : ℕ} {x : State} (hk : k < count s) (hsrc : x.src = { off := 8 * k }) :
    ∃ t p, padded (s ++ e) s.length (8 * k) x = some { x with tmp := t, src := p } ∧
      p.load (s ++ e) t 8 = some (wordAt s k) ∧
      (8 * (k + 1) ≤ s.length → p = { off := 8 * k }) := by
  by_cases hlast : s.length < 8 * k + 8
  · have hcount : 8 * count s < s.length + 8 := by
      rw [count]
      omega
    refine ⟨s.drop (8 * k) ++ List.replicate (8 * k + 8 - s.length) 0, { tmp := true }, ?_, ?_,
      fun h => by omega⟩
    · rw [padded, if_pos hlast, hsrc, load_rest (by rw [count] at hk; omega)]
      rfl
    · change Blocks.load _ 0 8 = _
      have hword : wordAt s k = s.drop (8 * k) ++ List.replicate (8 * k + 8 - s.length) 0 := by
        have hk8 : 8 * count s = 8 * k + 8 := by omega
        rw [wordAt, pad, List.drop_append_of_le_length (by rw [count] at hk; omega), hk8]
        refine List.take_of_length_le ?_
        rw [List.length_append, List.length_drop, List.length_replicate]
        omega
      rw [← hword, load_eq_some_iff]
      exact ⟨length_wordAt s hk, at_self _⟩
  · refine ⟨x.tmp, x.src, by rw [padded, if_neg hlast], ?_, fun _ => hsrc⟩
    have hload := load_words (s := s) (e := e) (j := k) (m := 1) (by omega) x.tmp
    rw [hsrc, hload]
    simp

/-- The state of the loop behind `pack_seg`. -/
structure Mid (s e : List UInt8) (k n : ℕ) (x y : State) : Prop where
  ffN : y.ffN = x.ffN
  buffer : y.buffer = x.buffer
  size : y.size = x.size
  bufsz : y.bufsz = x.bufsz - n
  length : y.mem.length = x.mem.length
  frame : ∀ j u, At x.mem j u → j + u.length ≤ x.buffer → At y.mem j u
  plain : ¬ (weight (wordAt s k) = 8 ∨ (6 ≤ weight (wordAt s k) ∧ 0 < x.ffN)) →
    (1 + weight (wordAt s k) : ℤ) ≤ x.bufsz → At y.mem x.buffer (plain (wordAt s k))
  start : y.ffDesstart = x.ffDesstart ∧ y.ffSrcstart = x.ffSrcstart
  src : 8 * (k + 1) ≤ s.length → y.src = { off := 8 * k }

/-- The end of a round. -/
def advance (n : ℕ) (x : State) : State :=
  { x with src := { x.src with off := x.src.off + 8 }, buffer := x.buffer + n, size := x.size + n }

theorem packRound_eq {k cap : ℕ} {x : State} (hk : k < count s) (h : Rep s cap k x) : ∃ y,
    Mid s e k (segSize (wordAt s k) x.ffN) x y ∧ packRound (s ++ e) s.length (8 * k) x =
      (ended (s ++ e) (segSize (wordAt s k) x.ffN) y).map
      (advance (segSize (wordAt s k) x.ffN)) := by
  obtain ⟨t, p, hpad, hload, hp⟩ := padded_spec (e := e) hk (h.src hk)
  obtain ⟨mem, hseg, hlen, hframe, hplain⟩ :=
    packSeg_spec (length_wordAt s hk) x.ffN (by rw [h.bufsz]; exact_mod_cast h.cap)
  refine ⟨{ x with tmp := t, src := p, mem := mem, bufsz := x.bufsz - segSize (wordAt s k) x.ffN },
    ⟨rfl, rfl, rfl, rfl, hlen, hframe, hplain, ⟨rfl, rfl⟩, hp⟩, ?_⟩
  rw [packRound, hpad, Option.bind_some, hload, Option.bind_some, hseg, Option.bind_some]
  rfl

theorem length_of_mem_runAt {k : ℕ} (hk : k ≤ count s) {w : Word} (hw : w ∈ runAt s k) :
    w.length = 8 := by
  have htail := tail_ran s k
  rw [htail.words] at hw
  obtain ⟨i, hi, rfl⟩ := List.mem_map.1 hw
  rw [List.mem_range'_1] at hi
  have hle := htail.le
  exact length_wordAt s (by omega)

theorem length_run_runAt {k : ℕ} (hk : k ≤ count s) (hne : runAt s k ≠ []) :
    (run (runAt s k)).length = 2 + 8 * (runAt s k).length :=
  length_run hne fun _ hw => length_of_mem_runAt hk hw

/-- The words of the run that has begun, read from the message. -/
theorem load_run {k : ℕ} (hk : 8 * k ≤ s.length) (tmp : List UInt8) :
    Ptr.load (s ++ e) tmp { off := 8 * (k - (runAt s k).length) } ((runAt s k).length * 8) =
      some (runAt s k).flatten := by
  have htail := tail_ran s k
  have hle := htail.le
  have hload := load_words (s := s) (e := e) (j := k - (runAt s k).length) (m := (runAt s k).length)
    (by omega) tmp
  rw [← htail.words] at hload
  rw [Nat.mul_comm _ 8, hload]

section Round

variable {k n cap : ℕ} {x y z : State}

theorem src_advance (hm : Mid s e k n x y) (hz : z.src = y.src) (hk : k + 1 < count s) :
    (advance n z).src = { off := 8 * (k + 1) } := by
  have hsrc := hm.src (by rw [count] at hk; omega)
  rw [advance, hz, hsrc, Nat.mul_add]

/-- A run begins. -/
theorem Rep.begins (h : Rep s cap k x) (hm : Mid s e k 10 x y) (hk : k < count s)
    (hnil : runAt s k = [])
    (h8 : weight (wordAt s k) = 8) (hnext : ran s (k + 1) = ((ran s k).1, [wordAt s k])) :
    ∃ z, ended (s ++ e) 10 y = some z ∧ Rep s cap (k + 1) (advance 10 z) ∧
    z.mem.length = x.mem.length := by
  have hbuffer : x.buffer = (ran s k).1.length := by
    rw [h.buffer, hnil]
    rfl
  have hrun : (run [wordAt s k]).length = 10 := length_run (by simp) fun w hw => by
    rw [List.mem_singleton.1 hw, length_wordAt s hk]
  refine ⟨_, if_pos rfl, ?_, hm.length⟩
  refine ⟨by rw [runAt, hnext]; rfl, ?_, ?_, ?_, hm.length.symm ▸ h.cap, fun hsz => ?_,
    src_advance hm rfl,
    fun _ => ?_⟩
  · rw [runAt, hnext, hrun]
    change y.buffer + 10 = _
    rw [hm.buffer, hbuffer]
  · change y.size + 10 = y.buffer + 10
    rw [hm.size, hm.buffer, h.size]
  · have hcap := h.bufsz
    change ((y.buffer + 10 : ℕ) : ℤ) + y.bufsz = cap
    rw [hm.buffer, hm.bufsz]
    omega
  · have hsz : 0 ≤ y.bufsz := hsz
    have hbufsz := hm.bufsz
    rw [hnext]
    exact hm.frame 0 _ (h.packed (by omega)) (by rw [hbuffer, Nat.zero_add])
  · rw [runAt, hnext]
    refine ⟨?_, ?_⟩
    · change y.buffer = _
      rw [hm.buffer, hbuffer]
    · exact hm.src (complete_of_weight hk h8)

/-- A round after which no run has begun. -/
theorem Rep.closed (h : Rep s cap k x) (hm : Mid s e k n x y) {e : List UInt8}
    (hnext : ran s (k + 1) = (e, []))
    (hlen : e.length = x.buffer + n) (hffN : z.ffN = 0) (hsrc : z.src = y.src)
    (hbuffer : z.buffer = y.buffer)
    (hsize : z.size = y.size) (hbufsz : z.bufsz = y.bufsz) (hmem : z.mem.length = x.mem.length)
    (hat : 0 ≤ y.bufsz → At z.mem 0 e) : Rep s cap (k + 1) (advance n z) := by
  refine ⟨by rw [runAt, hnext]; exact hffN, ?_, ?_, ?_, hmem.symm ▸ h.cap, fun hsz => ?_,
    src_advance hm hsrc,
    fun hne => ?_⟩
  · rw [runAt, hnext]
    change z.buffer + n = e.length + 0
    rw [hbuffer, hm.buffer, hlen, Nat.add_zero]
  · change z.size + n = z.buffer + n
    rw [hsize, hbuffer, hm.size, hm.buffer, h.size]
  · have hcap := h.bufsz
    change ((z.buffer + n : ℕ) : ℤ) + z.bufsz = cap
    rw [hbuffer, hbufsz, hm.buffer, hm.bufsz]
    omega
  · rw [hnext]
    have hsz : 0 ≤ z.bufsz := hsz
    rw [hbufsz] at hsz
    exact hat hsz
  · rw [runAt, hnext] at hne
    exact absurd rfl hne

/-- A word with a header. -/
theorem Rep.plain (h : Rep s cap k x) (hm : Mid s e k (weight (wordAt s k) + 1) x y)
    (hk : k < count s)
    (hnil : runAt s k = []) (h8 : weight (wordAt s k) ≠ 8)
    (hnext : ran s (k + 1) = ((ran s k).1 ++ ZeroPack.plain (wordAt s k), [])) :
    ∃ z, ended (s ++ e) (weight (wordAt s k) + 1) y = some z ∧
      Rep s cap (k + 1) (advance (weight (wordAt s k) + 1) z) ∧ z.mem.length = x.mem.length := by
  have hle := weight_le (wordAt s k)
  rw [length_wordAt s hk] at hle
  have hbuffer : x.buffer = (ran s k).1.length := by
    rw [h.buffer, hnil]
    rfl
  have hffN : x.ffN = 0 := by
    rw [h.ffN, hnil]
    rfl
  have hyffN : y.ffN = 0 := hm.ffN.trans hffN
  refine ⟨y, ?_, ?_, hm.length⟩
  · rw [ended, if_neg (by omega), if_neg (by omega), if_neg (by omega)]
  · refine h.closed hm hnext ?_ hyffN rfl rfl rfl rfl hm.length fun hsz => ?_
    · rw [List.length_append, length_plain, hbuffer]
      omega
    · have hbufsz := hm.bufsz
      refine at_append.2 ⟨hm.frame 0 _ (h.packed (by omega)) (by rw [hbuffer, Nat.zero_add]), ?_⟩
      rw [Nat.zero_add, ← hbuffer]
      exact hm.plain (by omega) (by omega)

/-- The run goes on. -/
theorem Rep.goesOn (h : Rep s cap k x) (hm : Mid s e k 8 x y) (hk : k < count s)
    (hne : runAt s k ≠ [])
    (h255 : (runAt s k).length ≠ 255)
    (hnext : ran s (k + 1) = ((ran s k).1, runAt s k ++ [wordAt s k])) :
    ∃ z, ended (s ++ e) 8 y = some z ∧ Rep s cap (k + 1) (advance 8 z) ∧
    z.mem.length = x.mem.length := by
  have hpos : 0 < (runAt s k).length := List.length_pos_iff.2 hne
  have hyffN : y.ffN = (runAt s k).length := hm.ffN.trans h.ffN
  have hle := (tail_ran s k).le
  have hnext' : (runAt s (k + 1)) = runAt s k ++ [wordAt s k] := congrArg Prod.snd hnext
  have hlen : (runAt s (k + 1)).length = (runAt s k).length + 1 := by
    rw [hnext', List.length_append, List.length_singleton]
  have hne' : runAt s (k + 1) ≠ [] := by
    rw [hnext']
    simp
  obtain ⟨hdes, hstart⟩ := h.start hne
  refine ⟨{ y with ffN := y.ffN + 1 }, ?_, ?_, hm.length⟩
  · rw [ended, if_neg (by decide), if_pos ⟨rfl, by omega⟩, if_neg (by omega)]
  · refine ⟨?_, ?_, ?_, ?_, hm.length.symm ▸ h.cap, fun hsz => ?_, src_advance hm rfl, fun _ => ?_⟩
    · rw [hlen]
      exact congrArg (· + 1) hyffN
    · rw [length_run_runAt hk hne', hlen, hnext]
      change y.buffer + 8 = (ran s k).1.length + _
      rw [hm.buffer, h.buffer, length_run_runAt hk.le hne]
      omega
    · change y.size + 8 = y.buffer + 8
      rw [hm.size, hm.buffer, h.size]
    · have hcap := h.bufsz
      change ((y.buffer + 8 : ℕ) : ℤ) + y.bufsz = cap
      rw [hm.buffer, hm.bufsz]
      omega
    · have hsz : 0 ≤ y.bufsz := hsz
      have hbufsz := hm.bufsz
      rw [hnext]
      exact hm.frame 0 (ran s k).1 (h.packed (by omega)) (by rw [h.buffer]; omega)
    · rw [hlen, hnext]
      refine ⟨hm.start.1.trans hdes, hm.start.2.trans (hstart.trans ?_)⟩
      rw [show k + 1 - ((runAt s k).length + 1) = k - (runAt s k).length by omega]

/-- A run is written, when it is over. -/
theorem exists_writeFF (mem tmp : List UInt8) (des : ℕ) {m : ℕ} {r : List Word} (hne : r ≠ [])
    (hlen : ∀ w ∈ r, w.length = 8) (hm : m = r.length * 8) {p : Ptr}
    (hload : p.load (s ++ e) tmp m = some r.flatten)
    (hfit : des + (run r).length ≤ mem.length) :
    ∃ mem', writeFF (s ++ e) tmp p mem des m = some mem' ∧ mem'.length = mem.length ∧
    At mem' des (run r) ∧
      ∀ j u, At mem j u → j + u.length ≤ des ∨ des + (run r).length ≤ j → At mem' j u := by
  have hrun := length_run hne hlen
  have hround : (m + 7) / 8 = r.length := by
    rw [hm]
    omega
  obtain ⟨mem', hw, hl, hat, hf⟩ := writeFF_spec mem des hload
    (by rw [length_flatten_words hlen, hm, Nat.mul_comm]) (by rw [hround]; omega)
  refine ⟨mem', hw, hl, ?_, fun j u hu hout => hf j u hu ?_⟩
  · rw [hround, hm, Nat.sub_self, List.replicate_zero, List.append_nil] at hat
    rw [run, if_neg hne]
    exact hat
  · rw [hround]
    omega

/-- A run of 256 words is full. -/
theorem Rep.full (h : Rep s cap k x) (hm : Mid s e k 8 x y) (hk : k < count s)
    (hwhole : 8 * (k + 1) ≤ s.length)
    (hne : runAt s k ≠ []) (h255 : (runAt s k).length = 255)
    (hnext : ran s (k + 1) = ((ran s k).1 ++ run (runAt s k ++ [wordAt s k]), [])) :
    ∃ z, ended (s ++ e) 8 y = some z ∧ Rep s cap (k + 1) (advance 8 z) ∧
    z.mem.length = x.mem.length := by
  have htail := tail_ran s k
  have hle := htail.le
  have hffN : y.ffN = 255 := (hm.ffN.trans h.ffN).trans h255
  obtain ⟨hdes, hstart⟩ := h.start hne
  have hbuffer := h.buffer
  rw [length_run_runAt hk.le hne, h255] at hbuffer
  have hwords : ∀ w ∈ runAt s k ++ [wordAt s k], w.length = 8 := by
    intro w hw
    rcases List.mem_append.1 hw with hw | hw
    · exact length_of_mem_runAt hk.le hw
    · rw [List.mem_singleton.1 hw, length_wordAt s hk]
  have hlen : (run (runAt s k ++ [wordAt s k])).length = 2 + 8 * 256 := by
    rw [length_run (by simp) hwords, List.length_append, h255]
    rfl
  have hround : ended (s ++ e) 8 y = if 0 ≤ y.bufsz then
      (writeFF (s ++ e) y.tmp y.ffSrcstart y.mem y.ffDesstart (256 * 8)).map fun mem =>
        { y with mem := mem, ffN := 0 }
      else some { y with ffN := 0 } := by
    rw [ended, if_neg (by decide), if_pos ⟨rfl, by omega⟩, if_pos (by omega)]
  rw [hround]
  have htotal : ((ran s k).1 ++ run (runAt s k ++ [wordAt s k])).length = x.buffer + 8 := by
    rw [List.length_append, hlen, hbuffer]
  by_cases hsz : 0 ≤ y.bufsz
  · have hcap := h.bufsz
    have hroom := h.cap
    have hbufsz := hm.bufsz
    have hload := load_words (s := s) (e := e) (j := k - (runAt s k).length) (m := 256)
      (by omega) y.tmp
    rw [List.range'_1_concat, List.map_append, show k - (runAt s k).length + 255 = k by omega,
      ← h255, ← htail.words]
      at hload
    obtain ⟨mem, hw, hl, hat, hframe⟩ := exists_writeFF (s := s) (e := e) y.mem y.tmp y.ffDesstart
      (m := 256 * 8) (r := runAt s k ++ [wordAt s k]) (p := y.ffSrcstart) (by simp) hwords
      (by rw [List.length_append, h255]; rfl) (by rw [hm.start.2, hstart]; exact hload)
      (by rw [hlen, hm.start.1, hdes, hm.length]; omega)
    rw [if_pos hsz, hw]
    refine ⟨_, rfl, h.closed hm hnext htotal rfl rfl rfl rfl rfl (hl.trans hm.length) fun _ => ?_,
      hl.trans hm.length⟩
    rw [hm.start.1, hdes] at hat hframe
    refine at_append.2
      ⟨hframe 0 _ (hm.frame 0 _ (h.packed (by omega)) (by omega)) (Or.inl (by omega)), ?_⟩
    rw [Nat.zero_add]
    exact hat
  · rw [if_neg hsz]
    exact ⟨_, rfl, h.closed hm hnext htotal rfl rfl rfl rfl rfl hm.length fun hsz' =>
      absurd hsz' hsz, hm.length⟩

/-- A run is over. -/
theorem Rep.ends (h : Rep s cap k x) (hm : Mid s e k (weight (wordAt s k) + 1) x y)
    (hk : k < count s)
    (hne : runAt s k ≠ []) (h6 : weight (wordAt s k) < 6)
    (hnext : ran s (k + 1) = ((ran s k).1 ++ run (runAt s k) ++ ZeroPack.plain (wordAt s k), [])) :
    ∃ z, ended (s ++ e) (weight (wordAt s k) + 1) y = some z ∧
      Rep s cap (k + 1) (advance (weight (wordAt s k) + 1) z) ∧ z.mem.length = x.mem.length := by
  have htail := tail_ran s k
  have hle := htail.le
  have hpos : 0 < (runAt s k).length := List.length_pos_iff.2 hne
  have hffN : y.ffN = (runAt s k).length := hm.ffN.trans h.ffN
  obtain ⟨hdes, hstart⟩ := h.start hne
  have hbuffer := h.buffer
  have hlen := length_run_runAt hk.le hne
  have hwords : ∀ w ∈ runAt s k, w.length = 8 := fun _ hw => length_of_mem_runAt hk.le hw
  have hround : ended (s ++ e) (weight (wordAt s k) + 1) y = if 0 ≤ y.bufsz then
      (writeFF (s ++ e) y.tmp y.ffSrcstart y.mem y.ffDesstart (y.ffN * 8)).map fun mem =>
        { y with mem := mem, ffN := 0 }
      else some { y with ffN := 0 } := by
    rw [ended, if_neg (by omega), if_neg (by omega), if_pos (by omega)]
  rw [hround]
  have htotal : ((ran s k).1 ++ run (runAt s k) ++ ZeroPack.plain (wordAt s k)).length =
      x.buffer + (weight (wordAt s k) + 1) := by
    rw [List.length_append, List.length_append, length_plain, hbuffer]
    omega
  by_cases hsz : 0 ≤ y.bufsz
  · have hcap := h.bufsz
    have hroom := h.cap
    have hbufsz := hm.bufsz
    obtain ⟨mem, hw, hl, hat, hframe⟩ := exists_writeFF (s := s) (e := e) y.mem y.tmp y.ffDesstart
      (m := y.ffN * 8) (p := y.ffSrcstart) hne hwords (by rw [hffN])
      (by rw [hm.start.2, hstart, hffN]; exact load_run (by rw [count] at hk; omega) y.tmp)
      (by rw [hm.start.1, hdes, hm.length]; omega)
    rw [if_pos hsz, hw]
    refine ⟨_, rfl, h.closed hm hnext htotal rfl rfl rfl rfl rfl (hl.trans hm.length) fun _ => ?_,
      hl.trans hm.length⟩
    rw [hm.start.1, hdes] at hat hframe
    refine at_append.2 ⟨at_append.2 ⟨?_, ?_⟩, ?_⟩
    · exact hframe 0 _ (hm.frame 0 _ (h.packed (by omega)) (by omega)) (Or.inl (by omega))
    · rw [Nat.zero_add]
      exact hat
    · -- the word has been written behind the run
      rw [List.length_append, Nat.zero_add, ← hbuffer]
      exact hframe _ _ (hm.plain (by omega) (by omega)) (Or.inr (by omega))
  · rw [if_neg hsz]
    exact ⟨_, rfl, h.closed hm hnext htotal rfl rfl rfl rfl rfl hm.length fun hsz' =>
      absurd hsz' hsz, hm.length⟩

/-- **One round.** -/
theorem Rep.round (h : Rep s cap k x) (hk : k < count s) (hclean : Overrun s → k + 1 < count s) :
    ∃ x', packRound (s ++ e) s.length (8 * k) x = some x' ∧ Rep s cap (k + 1) x' ∧
    x'.mem.length = x.mem.length := by
  obtain ⟨y, hm, hround⟩ := packRound_eq (e := e) hk h
  have hdone : ∀ n, segSize (wordAt s k) x.ffN = n →
      (∃ z, ended (s ++ e) n y = some z ∧ Rep s cap (k + 1) (advance n z) ∧
      z.mem.length = x.mem.length) →
      ∃ x', packRound (s ++ e) s.length (8 * k) x = some x' ∧ Rep s cap (k + 1) x' ∧
      x'.mem.length = x.mem.length := by
    rintro n hn ⟨z, hz, hrep, hlen⟩
    exact ⟨advance n z, by rw [hround, hn, hz]; rfl, hrep, hlen⟩
  have hffN := h.ffN
  rcases step_cases (ran s k) (wordAt s k) with
    ⟨hnil, h8, hnext⟩ | ⟨hnil, h8, hnext⟩ | ⟨hne, h6, h255, hnext⟩ |
    ⟨hne, h6, h255, hnext⟩ | ⟨hne, h6, hnext⟩
  · have hzero : x.ffN = 0 := hffN.trans (congrArg List.length hnil)
    have hsize : segSize (wordAt s k) x.ffN = 10 := by
      rw [segSize, if_pos (Or.inl h8), if_neg (by omega)]
    rw [hsize] at hm
    exact hdone 10 hsize (h.begins hm hk hnil h8 hnext)
  · have hzero : x.ffN = 0 := hffN.trans (congrArg List.length hnil)
    have hsize : segSize (wordAt s k) x.ffN = weight (wordAt s k) + 1 := if_neg (by omega)
    rw [hsize] at hm
    exact hdone _ hsize (h.plain hm hk hnil h8 hnext)
  · have hpos : 0 < x.ffN := hffN ▸ List.length_pos_iff.2 hne
    have hsize : segSize (wordAt s k) x.ffN = 8 := by
      rw [segSize, if_pos (Or.inr ⟨h6, hpos⟩), if_pos hpos]
    rw [hsize] at hm
    -- all words of the run are in the message
    have hwhole : 8 * (k + 1) ≤ s.length := by
      by_contra hpart
      have hlast : count s - 1 = k ∧ s.length % 8 ≠ 0 := by
        rw [count] at hk ⊢
        omega
      have hover := hclean ⟨hlast.2, by rw [hlast.1]; exact h255, by rw [hlast.1]; exact h6⟩
      omega
    exact hdone 8 hsize (h.full hm hk hwhole hne h255 hnext)
  · have hpos : 0 < x.ffN := hffN ▸ List.length_pos_iff.2 hne
    have hsize : segSize (wordAt s k) x.ffN = 8 := by
      rw [segSize, if_pos (Or.inr ⟨h6, hpos⟩), if_pos hpos]
    rw [hsize] at hm
    exact hdone 8 hsize (h.goesOn hm hk hne h255 hnext)
  · have hsize : segSize (wordAt s k) x.ffN = weight (wordAt s k) + 1 := if_neg (by omega)
    rw [hsize] at hm
    exact hdone _ hsize (h.ends hm hk hne h6 hnext)

/-- **The loop**, from any word on. -/
theorem Rep.loop {rounds : ℕ} (h : Rep s cap k x) (hcount : k + rounds = count s)
    (hclean : ¬ Overrun s) :
    ∃ x', packLoop (s ++ e) s.length rounds (8 * k) x = some x' ∧ Rep s cap (count s) x' ∧
      x'.mem.length = x.mem.length := by
  induction rounds generalizing k x with
  | zero =>
      obtain rfl : k = count s := hcount
      exact ⟨x, rfl, h, rfl⟩
  | succ rounds ih =>
      obtain ⟨x₁, hround, hrep, hlen⟩ := h.round (e := e) (by omega) fun hover =>
        absurd hover hclean
      obtain ⟨x₂, hloop, hrep', hlen'⟩ := ih hrep (by omega)
      refine ⟨x₂, ?_, hrep', hlen'.trans hlen⟩
      rw [packLoop, hround, Option.bind_some, ← hloop, Nat.mul_add]

/-- **The last round**, when the run of 256 ends in a word that is not complete: it reads behind the
message. -/
theorem Rep.overrun (h : Rep s cap k x) (hk : k + 1 = count s) (hover : Overrun s)
    (hfit : (pack [] (words s)).length ≤ cap) : packRound s s.length (8 * k) x = none := by
  obtain ⟨hpart, h255, h6⟩ := hover
  have hlast : count s - 1 = k := by omega
  rw [hlast] at h255 h6
  have hne : runAt s k ≠ [] := fun hnil => by
    rw [hnil] at h255
    cases h255
  obtain ⟨y, hm, hround⟩ := packRound_eq (e := []) (by omega) h
  rw [List.append_nil] at hround
  have hffN : x.ffN = 255 := h.ffN.trans h255
  have hsize : segSize (wordAt s k) x.ffN = 8 := by
    rw [segSize, if_pos (Or.inr ⟨h6, by omega⟩), if_pos (by omega)]
  rw [hsize] at hm hround
  obtain ⟨-, hstart⟩ := h.start hne
  have hlen : (pack [] (words s)).length = x.buffer + 8 := by
    have htotal := congrArg List.length (ran_append_pack s (k := k) (by omega))
    rw [show count s - k = 1 by omega, List.range'_one, List.map_singleton,
      List.length_append, pack,
      if_neg hne, if_pos h6, if_pos h255, pack, run_nil, List.append_nil, length_run (by simp) ?_]
      at htotal
    · rw [← htotal, h.buffer, length_run_runAt (by omega) hne, List.length_append, h255]
      rfl
    · intro w hw
      rcases List.mem_append.1 hw with hw | hw
      · exact length_of_mem_runAt (by omega) hw
      · rw [List.mem_singleton.1 hw, length_wordAt s (by omega)]
  have hbufsz : 0 ≤ y.bufsz := by
    have hcap := h.bufsz
    have hsub := hm.bufsz
    omega
  have hbehind : y.ffSrcstart.load s y.tmp (256 * 8) = none := by
    rw [hm.start.2, hstart, h255]
    refine if_neg fun hle => ?_
    have hle : 8 * (k - 255) + 256 * 8 ≤ s.length := hle
    have hcount : 8 * count s < s.length + 8 := by
      rw [count]
      omega
    rw [count] at hk
    omega
  have hwrite : writeFF s y.tmp y.ffSrcstart y.mem y.ffDesstart (256 * 8) = none := by
    rw [writeFF, hbehind]
    cases store y.mem y.ffDesstart [0xff, UInt8.ofNat ((256 * 8 + 7) / 8 * 8 / 8 - 1)] <;> rfl
  rw [hround, ended, if_neg (by decide), if_pos ⟨rfl, by rw [hm.ffN]; omega⟩,
    if_pos (by rw [hm.ffN]; omega),
    if_pos hbufsz, hwrite]
  rfl

/-- The loop that reaches it. -/
theorem Rep.loop_overrun {rounds : ℕ} (h : Rep s cap k x) (hcount : k + (rounds + 1) = count s)
    (hover : Overrun s)
    (hfit : (pack [] (words s)).length ≤ cap) :
    packLoop s s.length (rounds + 1) (8 * k) x = none := by
  induction rounds generalizing k x with
  | zero => rw [packLoop, h.overrun hcount hover hfit, Option.bind_none]
  | succ rounds ih =>
      obtain ⟨x₁, hround, hrep, -⟩ := h.round (e := []) (by omega) fun _ => by omega
      rw [List.append_nil] at hround
      rw [packLoop, hround, Option.bind_some]
      exact ih hrep (by omega)

/-- **The end**: the run that has begun is written. -/
theorem Rep.finish (h : Rep s cap (count s) x) : ∃ mem, finish (s ++ e) s.length x = some mem ∧
    mem.length = x.mem.length ∧ (x.size ≤ cap → At mem 0 (pack [] (words s))) := by
  have hbuffer := h.buffer
  have hcap := h.bufsz
  have hroom := h.cap
  have hsize := h.size
  rw [SprotoPack.finish]
  by_cases hsz : 0 ≤ x.bufsz
  · rw [if_pos hsz, pack_words]
    have hat := h.packed hsz
    by_cases hnil : runAt s (count s) = []
    · have hzero : x.ffN = 0 := h.ffN.trans (congrArg List.length hnil)
      rw [if_neg (by omega), if_neg (by omega), hnil]
      refine ⟨x.mem, rfl, rfl, fun _ => ?_⟩
      rw [run, if_pos rfl, List.append_nil]
      exact hat
    · obtain ⟨hdes, hstart⟩ := h.start hnil
      have htail := tail_ran s (count s)
      have hle := htail.le
      have hpos : 0 < (runAt s (count s)).length := List.length_pos_iff.2 hnil
      have hffN := h.ffN
      rw [length_run_runAt le_rfl hnil] at hbuffer
      have hfull : ∀ m v, x.ffSrcstart.load (s ++ e) x.tmp m = some v → v.length = m →
          (m + 7) / 8 = (runAt s (count s)).length →
          v ++ List.replicate ((m + 7) / 8 * 8 - m) 0 = (runAt s (count s)).flatten →
          ∃ mem, writeFF (s ++ e) x.tmp x.ffSrcstart x.mem x.ffDesstart m = some mem ∧
            mem.length = x.mem.length ∧
            (x.size ≤ cap → At mem 0 ((ran s (count s)).1 ++ run (runAt s (count s)))) := by
        intro m v hload hv hm hflat
        obtain ⟨mem, hw, hl, hrun, hframe⟩ := writeFF_spec x.mem x.ffDesstart hload hv
          (by rw [hdes]; omega)
        refine ⟨mem, hw, hl,
          fun _ => at_append.2 ⟨hframe 0 _ hat (Or.inl (by rw [hdes]; omega)), ?_⟩⟩
        rw [hflat, hm] at hrun
        rw [Nat.zero_add, ← hdes, run, if_neg hnil]
        exact hrun
      by_cases hone : x.ffN = 1
      · -- one word, without zeros
        rw [if_pos hone]
        have hlen : (runAt s (count s)).length = 1 := hffN.symm.trans hone
        have hhead := htail.head hnil
        rw [hlen] at hhead
        have hwhole := complete_of_weight (by omega) hhead
        have hload := load_run (s := s) (e := e) (k := count s) (by omega) x.tmp
        rw [hlen] at hload
        refine hfull 8 (runAt s (count s)).flatten (by rw [hstart, hlen]; exact hload) ?_
          (by rw [hlen]) ?_
        · rw [length_flatten_words fun _ hw => length_of_mem_runAt le_rfl hw, hlen]
        · rw [Nat.sub_self]
          exact List.append_nil _
      · rw [if_neg hone, if_pos (by omega), hstart]
        have hcount : 8 * count s < s.length + 8 ∧ s.length ≤ 8 * count s := by
          rw [count]
          omega
        have hi : 8 * (count s - (runAt s (count s)).length) ≤ s.length := by omega
        have hm : (s.length - 8 * (count s - (runAt s (count s)).length) + 7) / 8 =
          (runAt s (count s)).length := by
          omega
        have hflat : (runAt s (count s)).flatten =
          (pad s).drop (8 * (count s - (runAt s (count s)).length)) := by
          refine (congrArg List.flatten htail.words).trans ((flatten_wordAt s _ _).trans ?_)
          refine List.take_of_length_le ?_
          rw [List.length_drop, length_pad]
          omega
        rw [hstart] at hfull
        refine hfull _ _ (load_rest hi x.tmp) (by rw [List.length_drop]) hm ?_
        change s.drop (8 * (count s - (runAt s (count s)).length)) ++
          List.replicate ((s.length - 8 * (count s - (runAt s (count s)).length) + 7) / 8 * 8 -
            (s.length - 8 * (count s - (runAt s (count s)).length))) 0 = _
        rw [hm, hflat, pad, List.drop_append_of_le_length hi]
        congr 2
        omega
  · rw [if_neg hsz]
    exact ⟨x.mem, rfl, rfl, fun hfit => by omega⟩

end Round

theorem rep_start {cap : ℕ} {mem : List UInt8} (hcap : cap ≤ mem.length) :
    Rep s cap 0 { bufsz := cap, mem := mem } :=
  ⟨rfl, rfl, rfl, Int.zero_add _, hcap, fun _ => at_nil (Nat.zero_le _), fun _ => rfl,
    fun h => absurd rfl h⟩

/-- **What `sproto_pack` does**: whatever the buffer, it returns the size of the packed message and
does not leave the buffer; and when there is room, the packed message is in it. -/
theorem sprotoPack_spec (hclean : ¬ Overrun s) {mem : List UInt8} {cap : ℕ}
    (hcap : cap ≤ mem.length) :
    ∃ mem', sprotoPack (s ++ e) s.length mem cap = some ((pack [] (words s)).length, mem') ∧
      mem'.length = mem.length ∧
      ((pack [] (words s)).length ≤ cap → At mem' 0 (pack [] (words s))) := by
  obtain ⟨x, hloop, hrep, hlen⟩ :=
    (rep_start (s := s) hcap).loop (e := e) (Nat.zero_add (count s)) hclean
  obtain ⟨mem', hfin, hlen', hat⟩ := hrep.finish (e := e)
  have hsize : x.size = (pack [] (words s)).length := by
    rw [hrep.size, hrep.buffer, pack_words, List.length_append]
  refine ⟨mem', ?_, hlen'.trans hlen, fun hfit => hat (by rw [hsize]; exact hfit)⟩
  rw [sprotoPack]
  change (packLoop (s ++ e) s.length (count s) (8 * 0) _).bind _ = _
  rw [hloop, Option.bind_some, hfin, hsize]
  rfl

/-- **It leaves the message** when a run of 256 ends in a word that is not complete. -/
theorem sprotoPack_overrun (hover : Overrun s) {mem : List UInt8} {cap : ℕ}
    (hcap : cap ≤ mem.length)
    (hfit : (pack [] (words s)).length ≤ cap) : sprotoPack s s.length mem cap = none := by
  have hpos : count s = count s - 1 + 1 := by
    have hpart := hover.1
    rw [count]
    omega
  rw [sprotoPack]
  change (packLoop s s.length (count s) (8 * 0) _).bind _ = _
  rw [hpos, (rep_start (s := s) hcap).loop_overrun (by omega) hover hfit, Option.bind_none]

end Packing

end Halieutics.SprotoPack
