/-
**Unpacking messages: `lualib-src/sproto/sproto.c` and `lsproto.c`.**

`sproto_unpack` stops when it has read as many bytes as it was given.  Before each byte behind a
header it checks that there are not fewer than none left, so when none is left it reads one byte too
many; a stream whose last byte is missing is accepted, and the byte that is found behind it takes
its place.

Main definitions:

* `Halieutics.SprotoPack.sprotoUnpack` — **the code**;
* `Halieutics.SprotoPack.Short` — a stream whose last byte is missing;
* `Halieutics.SprotoPack.Wrote` — what a function has written into its buffer;
* `Halieutics.SprotoPack.lpack`, `Halieutics.SprotoPack.lunpack` — the functions of the library.

Main results:

* `Halieutics.SprotoPack.sprotoUnpack_spec` — **what `sproto_unpack` accepts**;
* `Halieutics.SprotoPack.lunpack_lpack` — **what has been packed is unpacked**.
-/

import Halieutics.SprotoPack

set_option relaxedAutoImplicit false
set_option autoImplicit false

namespace Halieutics.SprotoPack

open Blocks ZeroPack

/-! ### The code -/

/-- The buffer of `sproto_unpack`. -/
structure Dst where
  buffer : ℕ := 0
  bufsz : ℤ
  size : ℕ := 0
  mem : List UInt8

/-- `size += n`; the sum may not fit into an `int`. -/
def Dst.count (d : Dst) (n : ℕ) : Option Dst :=
  if d.size + n < 2 ^ 31 then some { d with size := d.size + n } else none

/-- Writing a byte, if there is room. -/
def Dst.put (d : Dst) (b : UInt8) : Option Dst :=
  if 0 < d.bufsz then
    (store d.mem d.buffer [b]).bind fun mem =>
      { d with mem := mem, bufsz := d.bufsz - 1, buffer := d.buffer + 1 }.count 1
  else d.count 1

/-- Copying `n` bytes, if there is room. -/
def Dst.copy (d : Dst) (src : List UInt8) (n : ℕ) : Option Dst :=
  (if n ≤ d.bufsz then
    (load src 0 n).bind fun v => (store d.mem d.buffer v).map fun mem => { d with mem := mem }
  else some d).bind fun d => { d with bufsz := d.bufsz - n, buffer := d.buffer + n }.count n

/-- The loop of `sproto_unpack` over the bits of a header, from `i` on.  `src` is the block from the
pointer on; the answer `none` is `-1`. -/
def bitLoop (header : ℕ) : ℕ → ℕ → List UInt8 → ℤ → Dst → Option (Option (List UInt8 × ℤ × Dst))
  | 0, _, src, srcsz, d => some (some (src, srcsz, d))
  | n + 1, i, src, srcsz, d =>
      if (header >>> i) &&& 1 = 1 then
        if srcsz < 0 then some none
        else
          match src with
          | [] => none
          | b :: src => (d.put b).bind (bitLoop header n (i + 1) src (srcsz - 1))
      else (d.put 0).bind (bitLoop header n (i + 1) src srcsz)

/-- The loop of `sproto_unpack`, for at most so many rounds. -/
def unpackLoop : ℕ → List UInt8 → ℤ → Dst → Option (Option Dst)
  | 0, _, _, _ => none
  | rounds + 1, src, srcsz, d =>
      if 0 < srcsz then
        match src with
        | [] => none
        | header :: src =>
            let srcsz := srcsz - 1
            if header = 0xff then
              if srcsz < 0 then some none
              else
                match src with
                | [] => none
                | b :: src =>
                    let n := (b.toNat + 1) * 8
                    if srcsz < n + 1 then some none
                    else (d.copy src n).bind (unpackLoop rounds (src.drop n) (srcsz - (n + 1)))
            else
              (bitLoop header.toNat 8 0 src srcsz d).bind fun
                | none => some none
                | some (src, srcsz, d) => unpackLoop rounds src srcsz d
      else some (some d)

/-- **`sproto_unpack`**: what it returns, where `none` is `-1`, and the buffer.  Every round takes a
byte. -/
def sprotoUnpack (block : List UInt8) (srcsz : ℕ) (mem : List UInt8) (bufsz : ℤ) :
    Option (Option (ℕ × List UInt8)) :=
  (unpackLoop (srcsz + 1) block srcsz { bufsz := bufsz, mem := mem }).map fun d => d.map fun d =>
    (d.size, d.mem)

/-! ### Streams -/

/-- **A stream whose last byte is missing**, when `x` takes its place. -/
inductive Short (x : UInt8) : List UInt8 → List UInt8 → Prop
  | last {s : List UInt8} {w : Word} (h : UInt8) : h ≠ 0xff → spread 8 h.toNat s = none →
      spread 8 h.toNat (s ++ [x]) = some (w, []) → Short x (h :: s) w
  | run {s out : List UInt8} (n : ℕ) (data : List UInt8) : n < 256 → data.length = 8 * (n + 1) →
      Short x s out → Short x (0xff :: UInt8.ofNat n :: (data ++ s)) (data ++ out)
  | plain {s s' out : List UInt8} {w : Word} (h : UInt8) : h ≠ 0xff →
    spread 8 h.toNat s = some (w, s') →
      Short x s' out → Short x (h :: s) (w ++ out)

/-! ### What is written -/

/-- There is the room that `bufsz` says. -/
def Dst.Room (d : Dst) : Prop := 0 ≤ d.bufsz → d.buffer + d.bufsz ≤ d.mem.length

/-- **What has been written**: `v`, if there is room for it. -/
structure Wrote (d : Dst) (v : List UInt8) (d' : Dst) : Prop where
  size : d'.size = d.size + v.length
  length : d'.mem.length = d.mem.length
  room : d'.Room
  fits : (v.length : ℤ) ≤ d.bufsz → d'.buffer = d.buffer + v.length ∧
    d'.bufsz = d.bufsz - v.length ∧
    At d'.mem d.buffer v ∧ ∀ j u, At d.mem j u → j + u.length ≤ d.buffer → At d'.mem j u

section Writing

variable {d d' d'' : Dst} {v v' : List UInt8}

theorem Wrote.nil (h : d.Room) : Wrote d [] d := by
  refine ⟨rfl, rfl, h, fun hfit => ⟨rfl, (sub_zero _).symm, at_nil ?_, fun _ _ hu _ => hu⟩⟩
  have hfit : 0 ≤ d.bufsz := hfit
  have hroom := h hfit
  omega

theorem Wrote.append (h : Wrote d v d') (h' : Wrote d' v' d'') : Wrote d (v ++ v') d'' := by
  refine ⟨?_, h'.length.trans h.length, h'.room, fun hfit => ?_⟩
  · rw [h'.size, h.size, List.length_append, Nat.add_assoc]
  · rw [List.length_append] at hfit ⊢
    obtain ⟨hbuffer, hbufsz, hat, hframe⟩ := h.fits (by omega)
    obtain ⟨hbuffer', hbufsz', hat', hframe'⟩ := h'.fits (by omega)
    rw [hbuffer] at hat' hframe'
    refine ⟨by omega, by omega, at_append.2 ⟨hframe' _ _ hat le_rfl, hat'⟩, fun j u hu hj => ?_⟩
    exact hframe' j u (hframe j u hu hj) (by omega)

theorem count_eq {n : ℕ} (h : d.size + n < 2 ^ 31) :
    d.count n = some { d with size := d.size + n } := if_pos h

/-- A byte is written. -/
theorem put_spec (h : d.Room) (hsize : d.size + 1 < 2 ^ 31) (b : UInt8) :
    ∃ d', d.put b = some d' ∧ Wrote d [b] d' := by
  by_cases hroom : 0 < d.bufsz
  · have hfit := h hroom.le
    obtain ⟨mem, hstore, hlen, hat, hframe⟩ := exists_store (b := d.mem) (i := d.buffer) (v := [b])
      (by rw [List.length_singleton]; omega)
    refine ⟨{ d with mem := mem, bufsz := d.bufsz - 1, buffer := d.buffer + 1, size := d.size + 1 },
      ?_,
      rfl, hlen, fun hpos => ?_,
      fun _ => ⟨rfl, rfl, hat, fun j u hu hj => hframe j u hu (Or.inl hj)⟩⟩
    · rw [Dst.put, if_pos hroom, hstore, Option.bind_some]
      exact count_eq hsize
    · dsimp only at hpos ⊢
      omega
  · refine ⟨{ d with size := d.size + 1 }, (if_neg hroom).trans (count_eq hsize), rfl, rfl, h,
      fun hfit => ?_⟩
    rw [List.length_singleton] at hfit
    omega

/-- A run is copied. -/
theorem copy_spec (h : d.Room) (v s : List UInt8) (hsize : d.size + v.length < 2 ^ 31) :
    ∃ d', d.copy (v ++ s) v.length = some d' ∧ Wrote d v d' := by
  have hload : load (v ++ s)
    0 v.length = some v := load_eq_some_iff.2 ⟨rfl, (at_append.1 (at_self _)).1⟩
  by_cases hroom : v.length ≤ d.bufsz
  · have hfit := h (by omega)
    obtain ⟨mem, hstore, hlen, hat, hframe⟩ :=
      exists_store (b := d.mem) (i := d.buffer) (v := v) (by omega)
    refine ⟨{ bufsz := d.bufsz - v.length, buffer := d.buffer + v.length, size := d.size +
      v.length, mem := mem }, ?_,
      rfl, hlen, fun hpos => ?_,
      fun _ => ⟨rfl, rfl, hat, fun j u hu hj => hframe j u hu (Or.inl hj)⟩⟩
    · rw [Dst.copy, if_pos hroom, hload, Option.bind_some, hstore, Option.map_some,
        Option.bind_some]
      exact count_eq hsize
    · dsimp only at hpos ⊢
      omega
  · refine
      ⟨{ d with
      bufsz := d.bufsz - v.length, buffer := d.buffer + v.length, size := d.size + v.length }, ?_,
      rfl, rfl, fun hpos => ?_, fun hfit => absurd hfit hroom⟩
    · rw [Dst.copy, if_neg hroom, Option.bind_some]
      exact count_eq hsize
    · dsimp only at hpos
      omega

/-- What can still be counted. -/
theorem Wrote.counted (h : Wrote d v d') {n : ℕ} (hsize : d.size + (v.length + n) < 2 ^ 31) :
    d'.size + n < 2 ^ 31 := by
  rw [h.size, Nat.add_assoc]
  exact hsize

end Writing

/-! ### Headers -/

section Headers

variable {h n i : ℕ} {t t' e : List UInt8} {w : Word} {d : Dst} {x : UInt8}

theorem bitLoop_succ (header n i : ℕ) (src : List UInt8) (srcsz : ℤ) (d : Dst) :
    bitLoop header (n + 1) i src srcsz d =
      if (header >>> i) &&& 1 = 1 then
        if srcsz < 0 then some none
        else
          match src with
          | [] => none
          | b :: src => (d.put b).bind (bitLoop header n (i + 1) src (srcsz - 1))
      else (d.put 0).bind (bitLoop header n (i + 1) src srcsz) := by
  cases src <;> rfl

theorem bit_eq (header i : ℕ) : (header >>> i) &&& 1 = 1 ↔ (header >>> i) % 2 = 1 := by
  rw [Nat.and_one_is_mod]

theorem half_eq (header i : ℕ) : header >>> i / 2 = header >>> (i + 1) :=
  (Nat.shiftRight_succ header i).symm

/-- **A word of the stream.** -/
theorem bitLoop_spec (hs : spread n (h >>> i) t = some (w, t')) (hroom : d.Room)
    (hsize : d.size + n < 2 ^ 31) :
    ∃ d', bitLoop h n i (t ++ e) t.length d =
      some (some (t' ++ e, (t'.length : ℤ), d')) ∧ Wrote d w d' := by
  induction n generalizing i t w d with
  | zero =>
      obtain ⟨rfl, rfl⟩ := Prod.mk.inj (Option.some_inj.1 hs)
      exact ⟨d, rfl, .nil hroom⟩
  | succ n ih =>
      rw [spread_succ, half_eq] at hs
      rw [bitLoop_succ]
      simp only [bit_eq]
      by_cases hbit : (h >>> i) % 2 = 1
      · rw [if_pos hbit] at hs
        cases t with
        | nil => cases hs
        | cons b t =>
            obtain ⟨⟨v, u⟩, hv, hw⟩ := Option.map_eq_some_iff.1 hs
            obtain ⟨rfl, rfl⟩ := Prod.mk.inj hw
            obtain ⟨d₁, hput, hwrote⟩ := put_spec hroom (by omega) b
            obtain ⟨d₂, hloop, hwrote'⟩ :=
              ih hv hwrote.room (hwrote.counted (by rw [List.length_singleton]; omega))
            refine ⟨d₂, ?_, hwrote.append hwrote'⟩
            rw [if_pos hbit, if_neg (by omega), List.cons_append]
            dsimp only
            rw [hput, Option.bind_some, ← hloop, List.length_cons]
            congr 1
            omega
      · rw [if_neg hbit] at hs
        obtain ⟨⟨v, u⟩, hv, hw⟩ := Option.map_eq_some_iff.1 hs
        obtain ⟨rfl, rfl⟩ := Prod.mk.inj hw
        obtain ⟨d₁, hput, hwrote⟩ := put_spec hroom (by omega) 0
        obtain ⟨d₂, hloop, hwrote'⟩ :=
          ih hv hwrote.room (hwrote.counted (by rw [List.length_singleton]; omega))
        refine ⟨d₂, ?_, hwrote.append hwrote'⟩
        rw [if_neg hbit, hput, Option.bind_some, hloop]

/-- Behind the stream only zeros are found. -/
theorem bitLoop_behind (src : List UInt8) (hroom : d.Room)
    (hsize : d.size + n < 2 ^ 31) :
    (∃ w d', spread n (h >>> i) [] = some (w, []) ∧
      bitLoop h n i src (-1) d = some (some (src, -1, d')) ∧ Wrote d w d') ∨
    (spread n (h >>> i) [] = none ∧ bitLoop h n i src (-1) d = some none) := by
  induction n generalizing i d with
  | zero => exact Or.inl ⟨[], d, rfl, rfl, .nil hroom⟩
  | succ n ih =>
      rw [spread_succ, half_eq, bitLoop_succ]
      simp only [bit_eq]
      by_cases hbit : (h >>> i) % 2 = 1
      · rw [if_pos hbit, if_pos hbit, if_pos (by decide)]
        exact Or.inr ⟨rfl, rfl⟩
      · rw [if_neg hbit, if_neg hbit]
        obtain ⟨d₁, hput, hwrote⟩ := put_spec hroom (by omega) 0
        rw [hput, Option.bind_some]
        rcases ih (i := i + 1) hwrote.room (hwrote.counted (by rw [List.length_singleton]; omega))
          with ⟨w, d₂, hw, hloop, hwrote'⟩ | ⟨hw, hloop⟩
        · refine Or.inl ⟨0 :: w, d₂, ?_, hloop, hwrote.append hwrote'⟩
          rw [hw]
          rfl
        · refine Or.inr ⟨?_, hloop⟩
          rw [hw]
          rfl

/-- **A word that is not complete**: the byte behind the stream completes it, or more are
missing. -/
theorem bitLoop_short (hs : spread n (h >>> i) t = none) (hroom : d.Room)
    (hsize : d.size + n < 2 ^ 31) :
    (∃ w d', spread n (h >>> i) (t ++ [x]) = some (w, []) ∧
      bitLoop h n i (t ++ x :: e) t.length d = some (some (e, -1, d')) ∧ Wrote d w d') ∨
    (spread n (h >>> i) (t ++ [x]) = none ∧ bitLoop h n i (t ++ x :: e) t.length d =
    some none) := by
  induction n generalizing i t d with
  | zero => cases hs
  | succ n ih =>
      rw [spread_succ, half_eq] at hs ⊢
      rw [bitLoop_succ]
      simp only [bit_eq]
      by_cases hbit : (h >>> i) % 2 = 1
      · rw [if_pos hbit] at hs ⊢
        rw [if_pos hbit, if_neg (by omega)]
        cases t with
        | nil =>
            -- the byte behind the stream is read
            obtain ⟨d₁, hput, hwrote⟩ := put_spec hroom (by omega) x
            simp only [List.nil_append]
            rw [hput, Option.bind_some]
            rcases bitLoop_behind (h := h) (n := n) (i := i + 1) e hwrote.room
              (hwrote.counted (by rw [List.length_singleton]; omega)) with
              ⟨w, d₂, hw, hloop, hwrote'⟩ | ⟨hw, hloop⟩
            · refine Or.inl ⟨x :: w, d₂, ?_, hloop, hwrote.append hwrote'⟩
              rw [hw]
              rfl
            · refine Or.inr ⟨?_, hloop⟩
              rw [hw]
              rfl
        | cons b t =>
            have hs : spread n (h >>> (i + 1)) t = none := Option.map_eq_none_iff.1 hs
            obtain ⟨d₁, hput, hwrote⟩ := put_spec hroom (by omega) b
            simp only [List.cons_append]
            rw [hput, Option.bind_some, show (((b :: t).length : ℕ) : ℤ) - 1 = t.length by
              rw [List.length_cons]; omega]
            rcases ih hs hwrote.room (hwrote.counted (by rw [List.length_singleton]; omega)) with
              ⟨w, d₂, hw, hloop, hwrote'⟩ | ⟨hw, hloop⟩
            · refine Or.inl ⟨b :: w, d₂, ?_, hloop, hwrote.append hwrote'⟩
              rw [hw]
              rfl
            · refine Or.inr ⟨?_, hloop⟩
              rw [hw]
              rfl
      · rw [if_neg hbit] at hs ⊢
        rw [if_neg hbit]
        have hs : spread n (h >>> (i + 1)) t = none := Option.map_eq_none_iff.1 hs
        obtain ⟨d₁, hput, hwrote⟩ := put_spec hroom (by omega) 0
        rw [hput, Option.bind_some]
        rcases ih hs hwrote.room (hwrote.counted (by rw [List.length_singleton]; omega)) with
          ⟨w, d₂, hw, hloop, hwrote'⟩ | ⟨hw, hloop⟩
        · refine Or.inl ⟨0 :: w, d₂, ?_, hloop, hwrote.append hwrote'⟩
          rw [hw]
          rfl
        · refine Or.inr ⟨?_, hloop⟩
          rw [hw]
          rfl

end Headers

/-! ### The loop -/

section Loop

variable {k : ℕ} {s t e out : List UInt8} {d : Dst} {x : UInt8}

/-- A round with a word. -/
theorem unpackLoop_word {h : UInt8} (hh : h ≠ 0xff) {src src' : List UInt8} {n : ℕ} {srcsz : ℤ}
    {d d' : Dst}
    (hbits : bitLoop h.toNat 8 0 src n d = some (some (src', srcsz, d'))) :
    unpackLoop (k + 1) (h :: src) (n + 1 : ℕ) d = unpackLoop k src' srcsz d' := by
  rw [unpackLoop, if_pos (by omega)]
  dsimp only
  rw [if_neg hh, show ((n + 1 : ℕ) : ℤ) - 1 = n by omega, hbits, Option.bind_some]

/-- A round with a word of which more than a byte is missing. -/
theorem unpackLoop_broken {h : UInt8} (hh : h ≠ 0xff) {src : List UInt8} {n : ℕ} {d : Dst}
    (hbits : bitLoop h.toNat 8 0 src n d = some none) :
    unpackLoop (k + 1) (h :: src) (n + 1 : ℕ) d = some none := by
  rw [unpackLoop, if_pos (by omega)]
  dsimp only
  rw [if_neg hh, show ((n + 1 : ℕ) : ℤ) - 1 = n by omega, hbits, Option.bind_some]

/-- A round with a run. -/
theorem unpackLoop_run {n : ℕ} {data : List UInt8} (hn : n < 256)
    (hdata : data.length = 8 * (n + 1))
    (hroom : d.Room) (hsize : d.size + data.length < 2 ^ 31) : ∃ d₁, Wrote d data d₁ ∧
      unpackLoop (k + 1) (0xff :: UInt8.ofNat n :: (data ++ s)) (2 + data.length + t.length : ℕ) d =
        unpackLoop k s t.length d₁ := by
  obtain ⟨d₁, hcopy, hwrote⟩ := copy_spec hroom data s hsize
  refine ⟨d₁, hwrote, ?_⟩
  have hbytes : ((UInt8.ofNat n).toNat + 1) * 8 = data.length := by
    rw [UInt8.toNat_ofNat', hdata]
    omega
  rw [unpackLoop, if_pos (by omega)]
  dsimp only
  rw [if_pos rfl, if_neg (by omega), hbytes, if_neg (by omega), hcopy, Option.bind_some,
    List.drop_left,
    show ((2 + data.length + t.length : ℕ) : ℤ) - 1 - (data.length + 1) = t.length by omega]

/-- The end of the stream, or behind it. -/
theorem unpackLoop_end {srcsz : ℤ} (h : srcsz ≤ 0) (src : List UInt8) (d : Dst) :
    unpackLoop (k + 1) src srcsz d = some (some d) := by
  cases src with
  | nil => exact if_neg (by omega)
  | cons b src => exact if_neg (by omega)

/-- **A stream is unpacked**, whatever is behind it. -/
theorem unpackLoop_spec (h : Packed t out) (hroom : d.Room) (hsize : d.size + out.length < 2 ^ 31)
    (hrounds : t.length < k) :
    ∃ d', unpackLoop k (t ++ e) t.length d = some (some d') ∧ Wrote d out d' := by
  induction h generalizing k d with
  | nil =>
      obtain ⟨k, rfl⟩ := Nat.exists_eq_succ_of_ne_zero (Nat.ne_of_gt hrounds)
      exact ⟨d, unpackLoop_end le_rfl _ d, .nil hroom⟩
  | @run s out n data hn hdata _ ih =>
      obtain ⟨k, rfl⟩ := Nat.exists_eq_succ_of_ne_zero (Nat.ne_of_gt (Nat.zero_lt_of_lt hrounds))
      obtain ⟨d₁, hwrote, hround⟩ := unpackLoop_run (k := k) (s := s ++ e) (t := s) hn hdata hroom
        (by rw [List.length_append] at hsize; omega)
      have hlen : (0xff :: UInt8.ofNat n :: (data ++ s)).length = 2 + data.length + s.length := by
        simp only [List.length_cons, List.length_append]
        omega
      rw [hlen] at hrounds ⊢
      obtain ⟨d₂, hloop, hwrote'⟩ := ih (k := k) hwrote.room
        (hwrote.counted (by rwa [List.length_append] at hsize)) (by omega)
      refine ⟨d₂, ?_, hwrote.append hwrote'⟩
      rw [← hloop, ← hround, List.cons_append, List.cons_append, List.append_assoc]
  | @plain s s' out w h hh hs _ ih =>
      obtain ⟨k, rfl⟩ := Nat.exists_eq_succ_of_ne_zero (Nat.ne_of_gt (Nat.zero_lt_of_lt hrounds))
      obtain ⟨d₁, hbits, hwrote⟩ :=
        bitLoop_spec (i := 0) (e := e) (by rw [Nat.shiftRight_zero]; exact hs) hroom
        (by rw [List.length_append, length_spread hs] at hsize; omega)
      have hle : s'.length ≤ s.length := length_spread_le hs
      rw [List.length_cons] at hrounds
      obtain ⟨d₂, hloop, hwrote'⟩ := ih (k := k) hwrote.room
        (hwrote.counted (by rwa [List.length_append] at hsize)) (by omega)
      refine ⟨d₂, ?_, hwrote.append hwrote'⟩
      rw [List.cons_append, List.length_cons, unpackLoop_word hh hbits, hloop]

/-- **A stream whose last byte is missing is unpacked** with the byte behind it. -/
theorem unpackLoop_short (h : Short x t out) (hroom : d.Room) (hsize : d.size + out.length < 2 ^ 31)
    (hrounds : t.length < k) :
    ∃ d', unpackLoop k (t ++ x :: e) t.length d = some (some d') ∧ Wrote d out d' := by
  induction h generalizing k d with
  | @last s w h hh hs hx =>
      obtain ⟨k, rfl⟩ := Nat.exists_eq_succ_of_ne_zero (Nat.ne_of_gt (Nat.zero_lt_of_lt hrounds))
      rw [List.length_cons] at hrounds
      obtain ⟨k, rfl⟩ := Nat.exists_eq_succ_of_ne_zero (n := k) (by omega)
      rw [List.cons_append, List.length_cons]
      rcases bitLoop_short (h := h.toNat) (n := 8) (i := 0) (x := x) (e := e)
          (by rw [Nat.shiftRight_zero]; exact hs) hroom
          (by rwa [length_spread hx] at hsize) with ⟨v, d', hv, hbits, hwrote⟩ | ⟨hv, -⟩
      · rw [Nat.shiftRight_zero, hx] at hv
        obtain rfl := (Prod.mk.inj (Option.some_inj.1 hv)).1
        refine ⟨d', ?_, hwrote⟩
        rw [unpackLoop_word hh hbits, unpackLoop_end (by decide)]
      · rw [Nat.shiftRight_zero, hx] at hv
        cases hv
  | @run s out n data hn hdata _ ih =>
      obtain ⟨k, rfl⟩ := Nat.exists_eq_succ_of_ne_zero (Nat.ne_of_gt (Nat.zero_lt_of_lt hrounds))
      obtain ⟨d₁, hwrote, hround⟩ :=
        unpackLoop_run (k := k) (s := s ++ x :: e) (t := s) hn hdata hroom
        (by rw [List.length_append] at hsize; omega)
      have hlen : (0xff :: UInt8.ofNat n :: (data ++ s)).length = 2 + data.length + s.length := by
        simp only [List.length_cons, List.length_append]
        omega
      rw [hlen] at hrounds ⊢
      obtain ⟨d₂, hloop, hwrote'⟩ := ih (k := k) hwrote.room
        (hwrote.counted (by rwa [List.length_append] at hsize)) (by omega)
      refine ⟨d₂, ?_, hwrote.append hwrote'⟩
      rw [← hloop, ← hround, List.cons_append, List.cons_append, List.append_assoc]
  | @plain s s' out w h hh hs _ ih =>
      obtain ⟨k, rfl⟩ := Nat.exists_eq_succ_of_ne_zero (Nat.ne_of_gt (Nat.zero_lt_of_lt hrounds))
      obtain ⟨d₁, hbits, hwrote⟩ := bitLoop_spec (i := 0) (e := x :: e)
        (by rw [Nat.shiftRight_zero]; exact hs) hroom
        (by rw [List.length_append, length_spread hs] at hsize; omega)
      have hle : s'.length ≤ s.length := length_spread_le hs
      rw [List.length_cons] at hrounds
      obtain ⟨d₂, hloop, hwrote'⟩ := ih (k := k) hwrote.room
        (hwrote.counted (by rwa [List.length_append] at hsize)) (by omega)
      refine ⟨d₂, ?_, hwrote.append hwrote'⟩
      rw [List.cons_append, List.length_cons, unpackLoop_word hh hbits, hloop]

/-- **Nothing else is accepted**, and no more than one byte behind the stream is read. -/
theorem unpackLoop_total (x : UInt8) (t e : List UInt8) (hroom : d.Room)
    (hsize : d.size + 8 * t.length < 2 ^ 31)
    (hrounds : t.length < k) :
    unpackLoop k (t ++ x :: e) t.length d = some none ∨ ∃ out, Packed t out ∨ Short x t out := by
  induction k generalizing t d with
  | zero => omega
  | succ k ih =>
      cases t with
      | nil => exact Or.inr ⟨[], Or.inl .nil⟩
      | cons h t =>
          rw [List.length_cons] at hrounds hsize ⊢
          by_cases hh : h = 0xff
          · subst hh
            cases t with
            | nil =>
                -- the length of the run is read behind the stream, and too large
                refine Or.inl ?_
                rw [List.cons_append, List.nil_append, unpackLoop, if_pos (by decide)]
                dsimp only
                rw [if_pos rfl, if_neg (by decide), if_pos]
                simp only [List.length_nil]
                omega
            | cons b t =>
                by_cases hlong : t.length < (b.toNat + 1) * 8
                · refine Or.inl ?_
                  rw [List.cons_append, List.cons_append, unpackLoop, if_pos (by omega)]
                  dsimp only
                  rw [if_pos rfl, if_neg (by omega), if_pos]
                  rw [List.length_cons]
                  omega
                · have hb := UInt8.toNat_lt b
                  have hdata : (t.take ((b.toNat + 1) * 8)).length = 8 * (b.toNat + 1) := by
                    rw [List.length_take]
                    omega
                  have hof : UInt8.ofNat b.toNat = b := UInt8.ofNat_toNat
                  obtain ⟨d₁, hwrote, hround⟩ := unpackLoop_run (k := k) (d := d)
                    (s := t.drop ((b.toNat + 1) * 8) ++ x :: e) (t := t.drop ((b.toNat + 1) * 8))
                    hb hdata hroom
                    (by rw [hdata]; rw [List.length_cons] at hsize; omega)
                  rw [hof, ← List.append_assoc, List.take_append_drop] at hround
                  have hlen : 2 + (t.take ((b.toNat + 1) * 8)).length +
                    (t.drop ((b.toNat + 1) * 8)).length =
                      (b :: t).length + 1 := by
                    rw [hdata, List.length_drop, List.length_cons]
                    omega
                  rw [hlen] at hround
                  rw [List.cons_append, List.cons_append, hround]
                  rcases ih (t.drop ((b.toNat + 1) * 8)) hwrote.room
                      (hwrote.counted
                      (by rw [hdata, List.length_drop]; rw [List.length_cons] at hsize; omega))
                      (by rw [List.length_drop]; rw [List.length_cons] at hrounds; omega) with
                      hnone | ⟨out, hout⟩
                  · exact Or.inl hnone
                  · refine Or.inr ⟨t.take ((b.toNat + 1) * 8) ++ out, ?_⟩
                    have hstream : (0xff : UInt8) :: b :: t = 0xff :: UInt8.ofNat b.toNat ::
                        (t.take ((b.toNat + 1) * 8) ++ t.drop ((b.toNat + 1) * 8)) := by
                      rw [hof, List.take_append_drop]
                    rw [hstream]
                    exact hout.imp (.run b.toNat _ hb hdata) (.run b.toNat _ hb hdata)
          · rw [List.cons_append]
            cases hs : spread 8 h.toNat t with
            | some ws =>
                obtain ⟨w, s'⟩ := ws
                obtain ⟨d₁, hbits, hwrote⟩ := bitLoop_spec (i := 0) (e := x :: e)
                  (by rw [Nat.shiftRight_zero]; exact hs) hroom (by omega)
                have hle : s'.length ≤ t.length := length_spread_le hs
                rw [unpackLoop_word hh hbits]
                rcases ih s' hwrote.room (hwrote.counted (by rw [length_spread hs]; omega))
                  (by omega) with hnone | ⟨out, hout⟩
                · exact Or.inl hnone
                · exact Or.inr ⟨w ++ out, hout.imp (.plain h hh hs) (.plain h hh hs)⟩
            | none =>
                rcases bitLoop_short (h := h.toNat) (n := 8) (i := 0) (x := x) (e := e)
                    (by rw [Nat.shiftRight_zero]; exact hs) hroom (by omega) with
                    ⟨w, d', hw, -, -⟩ | ⟨-, hbits⟩
                · rw [Nat.shiftRight_zero] at hw
                  exact Or.inr ⟨w, Or.inr (.last h hh hs hw)⟩
                · exact Or.inl (unpackLoop_broken hh hbits)

theorem sprotoUnpack_eq {block : List UInt8} {srcsz cap : ℕ} {mem : List UInt8} {d : Dst}
    (h : unpackLoop (srcsz + 1) block srcsz { bufsz := cap, mem := mem } = some (some d)) :
    sprotoUnpack block srcsz mem cap = some (some (d.size, d.mem)) := by
  rw [sprotoUnpack, h]
  rfl

/-- What is written into a buffer. -/
theorem Wrote.start {mem : List UInt8} {cap : ℕ} (h : Wrote { bufsz := cap, mem := mem } out d) :
    d.size = out.length ∧ d.mem.length = mem.length ∧ (out.length ≤ cap → At d.mem 0 out) :=
  ⟨h.size.trans (Nat.zero_add _), h.length, fun hfit => (h.fits (Int.ofNat_le.2 hfit)).2.2.1⟩

theorem room_start (mem : List UInt8) {cap : ℕ} (hcap : cap ≤ mem.length) :
    ({ bufsz := cap, mem := mem } : Dst).Room :=
  fun _ => by
    dsimp only
    omega

/-- **A stream is unpacked**, whatever is behind it. -/
theorem sprotoUnpack_spec (h : Packed t out) (hsize : out.length < 2 ^ 31)
    (mem : List UInt8) {cap : ℕ}
    (hcap : cap ≤ mem.length) :
    ∃ mem', sprotoUnpack (t ++ e) t.length mem cap = some (some (out.length, mem')) ∧
      mem'.length = mem.length ∧ (out.length ≤ cap → At mem' 0 out) := by
  obtain ⟨d, hloop, hwrote⟩ := unpackLoop_spec (e := e) h (room_start mem hcap)
    (by rwa [Nat.zero_add]) (Nat.lt_succ_self _)
  obtain ⟨hlength, hmem, hat⟩ := hwrote.start
  exact ⟨d.mem, by rw [sprotoUnpack_eq hloop, hlength], hmem, hat⟩

/-- A byte of a stream stands for at most eight. -/
theorem length_le_of_packed (h : Packed t out) : out.length ≤ 8 * t.length := by
  induction h with
  | nil => exact Nat.zero_le _
  | run n data hn hdata _ ih =>
      simp only [List.length_cons, List.length_append]
      omega
  | plain h hh hs _ ih =>
      rw [List.length_append, List.length_cons, length_spread hs]
      have hle := length_spread_le hs
      omega

theorem length_le_of_short (h : Short x t out) : out.length ≤ 8 * t.length := by
  induction h with
  | last h hh hs hx =>
      rw [List.length_cons, length_spread hx]
      omega
  | run n data hn hdata _ ih =>
      simp only [List.length_cons, List.length_append]
      omega
  | plain h hh hs _ ih =>
      rw [List.length_append, List.length_cons, length_spread hs]
      have hle := length_spread_le hs
      omega

/-- **What `sproto_unpack` accepts**, of streams of fewer than `2 ^ 28` bytes: streams, and streams
whose last byte is missing.  It reads no more than one byte behind them, and does not leave the
buffer. -/
theorem sprotoUnpack_accepts (x : UInt8) (t e mem : List UInt8) (ht : 8 * t.length < 2 ^ 31) :
    (∃ answer, sprotoUnpack (t ++ x :: e) t.length mem mem.length = some answer ∧
      (answer.isSome = true ↔ ∃ out, Packed t out ∨ Short x t out)) ∧
    ∀ out, Packed t out ∨ Short x t out → ∃ mem',
      sprotoUnpack (t ++ x :: e) t.length mem mem.length = some (some (out.length, mem')) ∧
        mem'.length = mem.length ∧ (out.length ≤ mem.length → At mem' 0 out) := by
  have hroom := room_start mem le_rfl
  have hyes : ∀ out, Packed t out ∨ Short x t out → ∃ mem',
      sprotoUnpack (t ++ x :: e) t.length mem mem.length = some (some (out.length, mem')) ∧
        mem'.length = mem.length ∧ (out.length ≤ mem.length → At mem' 0 out) := by
    rintro out (h | h)
    · exact sprotoUnpack_spec h ((length_le_of_packed h).trans_lt ht) mem le_rfl
    · have hsize : 0 + out.length < 2 ^ 31 := by
        rw [Nat.zero_add]
        exact (length_le_of_short h).trans_lt ht
      obtain ⟨d, hloop, hwrote⟩ := unpackLoop_short (e := e) h hroom hsize (Nat.lt_succ_self _)
      obtain ⟨hlength, hmem, hat⟩ := hwrote.start
      exact ⟨d.mem, by rw [sprotoUnpack_eq hloop, hlength], hmem, hat⟩
  refine ⟨?_, hyes⟩
  by_cases hout : ∃ out, Packed t out ∨ Short x t out
  · obtain ⟨out, h⟩ := hout
    obtain ⟨mem', hans, -⟩ := hyes out h
    exact ⟨_, hans, iff_of_true rfl ⟨out, h⟩⟩
  · refine ⟨none, ?_, iff_of_false nofun hout⟩
    have hno :=
      (unpackLoop_total x t e hroom (by rwa [Nat.zero_add]) (Nat.lt_succ_self _)).resolve_right hout
    rw [sprotoUnpack, hno]
    rfl

/-- A word of which the last byte is missing: the byte behind the stream takes its place. -/
theorem sprotoUnpack_accepts_short :
    ∃ mem', sprotoUnpack [3, 7, 9] 2 (List.replicate 8 0) 8 = some (some (8, mem')) ∧
    At mem' 0 [7, 9, 0, 0, 0, 0, 0, 0] := by
  have hshort : Short 9 [3, 7] [7, 9, 0, 0, 0, 0, 0, 0] :=
    .last 3 (by decide) (by decide) (by decide)
  obtain ⟨mem', hans, -, hat⟩ :=
    (sprotoUnpack_accepts 9 [3, 7] [] (List.replicate 8 0) (by decide)).2 _ (Or.inr hshort)
  exact ⟨mem', hans, hat le_rfl⟩

end Loop

/-! ### The library -/

/-- The bound of `lpack`. -/
def maxsz (sz : ℕ) : ℕ := (sz + 2047) / 2048 * 2 + sz + 2

/-- The loop of `expand_buffer`. -/
def doubled : ℕ → ℕ → ℕ → ℕ
  | 0, osz, _ => osz
  | rounds + 1, osz, nsz => if osz * 2 < nsz then doubled rounds (osz * 2) nsz else osz * 2

/-- **`expand_buffer`**; `heap` is what is found in new memory. -/
def expandBuffer (heap : (n : ℕ) → Vector UInt8 n) (osz nsz : ℕ) : Except String (List UInt8) :=
  let osz := doubled nsz osz nsz
  if 0x1000000 < osz then .error "object is too large (>16777216)" else .ok (heap osz).toList

/-- **`lpack`**, with the buffer that it keeps. -/
def lpack (heap : (n : ℕ) → Vector UInt8 n) (output block : List UInt8) (sz : ℕ) :
    Option (Except String (List UInt8) × List UInt8) :=
  match if output.length < maxsz sz then expandBuffer heap output.length (maxsz sz)
    else .ok output with
  | .error e => some (.error e, output)
  | .ok output =>
      (sprotoPack block sz output (maxsz sz)).map fun (bytes, output) =>
        if maxsz sz < bytes then
          (.error ("packing error, return size = " ++ toString bytes), output)
        else (.ok (output.take bytes), output)

/-- **`lunpack`**. -/
def lunpack (heap : (n : ℕ) → Vector UInt8 n) (output block : List UInt8) (sz : ℕ) :
    Option (Except String (List UInt8) × List UInt8) :=
  (sprotoUnpack block sz output output.length).bind fun
    | none => some (.error "Invalid unpack stream", output)
    | some (r, output) =>
        if output.length < r then
          match expandBuffer heap output.length r with
          | .error e => some (.error e, output)
          | .ok output =>
              (sprotoUnpack block sz output r).map fun
                | none => (.error "Invalid unpack stream", output)
                | some (r, output) => (.ok (output.take r), output)
        else some (.ok (output.take r), output)

section Library

variable (heap : (n : ℕ) → Vector UInt8 n) {s : List UInt8}

theorem doubled_spec {rounds osz nsz : ℕ} (hpos : 0 < osz) (hlt : osz < nsz)
    (hrounds : nsz ≤ osz + rounds) :
    nsz ≤ doubled rounds osz nsz ∧ doubled rounds osz nsz < 2 * nsz := by
  induction rounds generalizing osz with
  | zero => omega
  | succ rounds ih =>
      rw [doubled]
      split
      · exact ih (by omega) (by omega) (by omega)
      · omega

/-- **A larger buffer.** -/
theorem expandBuffer_spec {osz nsz : ℕ} (hpos : 0 < osz) (hlt : osz < nsz) (hle : nsz ≤ 2 ^ 23) :
    ∃ output, expandBuffer heap osz nsz = .ok output ∧ nsz ≤ output.length := by
  obtain ⟨hge, hlt'⟩ := doubled_spec hpos hlt (Nat.le_add_left nsz osz)
  refine ⟨_, if_neg (by omega), ?_⟩
  rw [Vector.length_toList]
  exact hge

/-- **The bound of `lpack`** is one. -/
theorem length_pack_words_le (s : List UInt8) : (pack [] (words s)).length ≤ maxsz s.length := by
  rcases Nat.eq_zero_or_pos (count s) with hzero | hpos
  · have hnil : words s = [] := by rw [words, hzero]; rfl
    rw [hnil]
    exact Nat.zero_le _
  · have hk : count s - 1 < count s := by omega
    have hlast : words s = (List.range' 0 (count s - 1)).map
      (wordAt s) ++ [wordAt s (count s - 1)] := by
      have hrange := List.range'_1_concat (s := 0) (n := count s - 1)
      rw [Nat.zero_add, Nat.sub_add_cancel hpos] at hrange
      rw [words, hrange, List.map_append]
      rfl
    have hwords : ∀ w ∈ (List.range' 0 (count s - 1)).map (wordAt s), w.length = 8 := fun w hw => by
      refine length_of_mem_words s ?_
      rw [hlast]
      exact List.mem_append_left _ hw
    have hle := length_pack_le (r := []) (Nat.zero_le _) (fun w hw => by cases hw) hwords
      (length_wordAt s hk)
    have hweight := weight_wordAt_le hk
    have hcount : 8 * count s < s.length + 8 ∧ s.length ≤ 8 * count s := by
      rw [count]
      omega
    rw [← hlast, List.length_nil, List.length_map, List.length_range', cost] at hle
    rw [maxsz]
    split at hle <;> omega

/-- The buffer of `lpack` is large enough. -/
theorem exists_buffer {output : List UInt8} (hpos : 0 < output.length)
    (hsize : maxsz s.length ≤ 2 ^ 23) :
    ∃ o, (if output.length < maxsz s.length then expandBuffer heap output.length (maxsz s.length)
      else .ok output) = .ok o ∧ maxsz s.length ≤ o.length := by
  split
  · rename_i hlt
    exact expandBuffer_spec heap hpos hlt hsize
  · rename_i hge
    exact ⟨output, rfl, Nat.le_of_not_lt hge⟩

/-- **What `lpack` answers.** -/
theorem lpack_spec (hclean : ¬ Overrun s) {output : List UInt8} (hpos : 0 < output.length)
    (hsize : maxsz s.length ≤ 2 ^ 23) (e : List UInt8) :
    ∃ output', lpack heap output (s ++ e) s.length = some (.ok (pack [] (words s)), output') := by
  obtain ⟨o, ho, hroom⟩ := exists_buffer heap hpos hsize
  obtain ⟨mem, hpack, -, hat⟩ := sprotoPack_spec (e := e) hclean hroom
  have hle := length_pack_words_le s
  refine ⟨mem, ?_⟩
  rw [lpack, ho]
  dsimp only
  rw [hpack, Option.map_some, if_neg (Nat.not_lt.2 hle), (hat hle).take]

/-- **When `lpack` reads behind the message.** -/
theorem lpack_eq_none_iff {output : List UInt8} (hpos : 0 < output.length)
    (hsize : maxsz s.length ≤ 2 ^ 23) :
    lpack heap output s s.length = none ↔ Overrun s := by
  constructor
  · intro hnone
    by_contra hclean
    obtain ⟨o, hpack⟩ := lpack_spec heap hclean hpos hsize []
    rw [List.append_nil, hnone] at hpack
    cases hpack
  · intro hover
    obtain ⟨o, ho, hroom⟩ := exists_buffer heap hpos hsize
    rw [lpack, ho]
    dsimp only
    rw [sprotoPack_overrun hover hroom (length_pack_words_le s), Option.map_none]

/-- The words of a message of 2047 bytes, none of them zero. -/
theorem ran_ones {k : ℕ} (hk : k ≤ 255) :
    ran (List.replicate 2047 1) k = ([], List.replicate k (List.replicate 8 1)) := by
  induction k with
  | zero => rfl
  | succ k ih =>
      have hword : wordAt (List.replicate 2047 1) k = List.replicate 8 1 := by
        rw [wordAt, pad, List.drop_append_of_le_length (by rw [List.length_replicate]; omega),
          List.drop_replicate,
          List.take_append_of_le_length (by rw [List.length_replicate]; omega), List.take_replicate]
        congr 1
        omega
      rw [ran, ih (by omega), hword, step]
      dsimp only
      cases k with
      | zero => rfl
      | succ k =>
          rw [if_neg (by simp), if_pos (by decide), if_neg (by rw [List.length_replicate]; omega),
            ← List.replicate_succ']

theorem lpack_eq_none_iff_ones :
    lpack (Vector.replicate · 0) [0] (List.replicate 2047 1) 2047 = none := by
  have hlen : (List.replicate 2047 (1 : UInt8)).length = 2047 := List.length_replicate
  have hsize : maxsz (List.replicate 2047 (1 : UInt8)).length ≤ 2 ^ 23 := by
    rw [hlen]
    decide
  have hover : Overrun (List.replicate 2047 1) := by
    rw [Overrun, count, hlen, runAt, ran_ones (by decide), List.length_replicate]
    exact ⟨by decide, rfl, by decide +kernel⟩
  have hiff := lpack_eq_none_iff (Vector.replicate · 0)
    (show 0 < [(0 : UInt8)].length from Nat.zero_lt_one) hsize
  rw [hlen] at hiff
  exact hiff.2 hover

/-- **What `lunpack` answers.** -/
theorem lunpack_spec {t out output : List UInt8} (h : Packed t out) (hpos : 0 < output.length)
    (hsize : out.length ≤ 2 ^ 23) (e : List UInt8) :
    ∃ output', lunpack heap output (t ++ e) t.length = some (.ok out, output') := by
  obtain ⟨mem, hunpack, hlen, hat⟩ := sprotoUnpack_spec (e := e) h (by omega) output le_rfl
  rw [lunpack, hunpack, Option.bind_some]
  dsimp only
  by_cases hlt : mem.length < out.length
  · rw [if_pos hlt]
    obtain ⟨o, ho, hroom⟩ := expandBuffer_spec heap (by omega) hlt hsize
    obtain ⟨mem', hunpack', -, hat'⟩ := sprotoUnpack_spec (e := e) h (by omega) o hroom
    refine ⟨mem', ?_⟩
    rw [ho]
    dsimp only
    rw [hunpack', Option.map_some]
    dsimp only
    rw [(hat' le_rfl).take]
  · rw [if_neg hlt]
    exact ⟨mem, by rw [(hat (by omega)).take]⟩

/-- **What has been packed is unpacked**: the message comes back, completed with zeros.  The buffers
do not matter, nor does what is behind the message and behind the packed one. -/
theorem lunpack_lpack (hclean : ¬ Overrun s) (hsize : maxsz s.length ≤ 2 ^ 23)
    {output output' : List UInt8}
    (hpos : 0 < output.length) (hpos' : 0 < output'.length) (e e' : List UInt8) :
    ∃ p o o', lpack heap output (s ++ e) s.length = some (.ok p, o) ∧ p.length ≤ maxsz s.length ∧
      lunpack heap output' (p ++ e') p.length = some (.ok (pad s), o') := by
  obtain ⟨o, hpack⟩ := lpack_spec heap hclean hpos hsize e
  have hpacked := packed_pack (r := []) (Nat.zero_le _) nofun fun _ hw => length_of_mem_words s hw
  rw [List.flatten_nil, List.nil_append, flatten_words] at hpacked
  have hpad : (pad s).length ≤ 2 ^ 23 := by
    rw [maxsz] at hsize
    rw [length_pad, count]
    omega
  obtain ⟨o', hunpack⟩ := lunpack_spec heap hpacked hpos' hpad e'
  exact ⟨_, o, o', hpack, length_pack_words_le s, hunpack⟩

theorem lunpack_lpack_three :
    ∃ p o o', lpack (Vector.replicate · 0) [7] [1, 2, 3] 3 = some (.ok p, o) ∧
    p.length ≤ maxsz 3 ∧ lunpack (Vector.replicate · 0) [7] p p.length =
    some (.ok [1, 2, 3, 0, 0, 0, 0, 0], o') := by
  obtain ⟨p, o, o', hpack, hle, hunpack⟩ := lunpack_lpack (Vector.replicate · 0) (s := [1, 2, 3])
    (by decide +kernel) (by decide) (show 0 < [7].length by decide)
    (show 0 < [7].length by decide) [] []
  rw [List.append_nil] at hpack hunpack
  exact ⟨p, o, o', hpack, hle, hunpack⟩

end Library

end Halieutics.SprotoPack
