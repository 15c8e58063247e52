/-
**Frames with a two byte length.**

A stream of payloads is written as a stream of bytes by putting the length of each payload in front
of it, in two bytes, the higher one first.  Reading it back needs no more than an automaton that
looks at one byte at a time: it is between two frames, or has seen half a length, or knows how many
bytes of a payload are still to come.

Whatever reads such a stream in larger pieces does the work of this automaton, and what the
automaton does cannot depend on how the stream is cut into pieces.

Main definitions:

* `Framing.frame` — the bytes written for a payload;
* `Framing.Decoder`, `Framing.Decoder.feed`, `Framing.Decoder.run` — the automaton, on one byte and
  on a stream.

Main results:

* `Framing.Decoder.run_append` — **a stream may be cut anywhere**;
* `Framing.Decoder.run_frames` — **what was framed is read back**.
-/

import Mathlib

set_option relaxedAutoImplicit false
set_option autoImplicit false

namespace Framing

/-- The frame of a payload: its length, the higher byte first, and the payload itself. -/
def frame (payload : List UInt8) : List UInt8 :=
  UInt8.ofNat (payload.length / 256) :: UInt8.ofNat (payload.length % 256) :: payload

/-- Where in a stream of frames a reader is. -/
inductive Decoder where
  /-- Between two frames. -/
  | idle
  /-- After the first byte of a length. -/
  | half (hi : UInt8)
  /-- Inside a payload, of which `got` is read and `need` bytes are to come. -/
  | body (need : ℕ) (got : List UInt8)
  deriving DecidableEq

namespace Decoder

/-- A payload of which `need` bytes are to come is complete when that is none. -/
def into (need : ℕ) (got : List UInt8) : Decoder × List (List UInt8) :=
  if need = 0 then (.idle, [got]) else (.body need got, [])

/-- One byte, and the payload it completes, if any. -/
def feed : Decoder → UInt8 → Decoder × List (List UInt8)
  | .idle, b => (.half b, [])
  | .half hi, lo => into (hi.toNat * 256 + lo.toNat) []
  | .body need got, b => into (need - 1) (got ++ [b])

/-- A stream of bytes, and the payloads it completes. -/
def run : Decoder → List UInt8 → Decoder × List (List UInt8)
  | s, [] => (s, [])
  | s, b :: bs => ((run (s.feed b).1 bs).1, (s.feed b).2 ++ (run (s.feed b).1 bs).2)

/-- A reader that has completed some payloads reads on. -/
def readOn (x : Decoder × List (List UInt8)) (bs : List UInt8) : Decoder × List (List UInt8) :=
  ((x.1.run bs).1, x.2 ++ (x.1.run bs).2)

@[simp] theorem run_nil (s : Decoder) : s.run [] = (s, []) := rfl

theorem run_cons (s : Decoder) (b : UInt8) (bs : List UInt8) :
    s.run (b :: bs) = readOn (s.feed b) bs := rfl

@[simp] theorem readOn_nil (x : Decoder × List (List UInt8)) : readOn x [] = x := by
  simp [readOn]

/-- **A stream may be cut anywhere.** -/
theorem run_append (s : Decoder) (a b : List UInt8) : s.run (a ++ b) = readOn (s.run a) b := by
  induction a generalizing s with
  | nil => rfl
  | cons x a ih => simp only [List.cons_append, run_cons, readOn, ih, List.append_assoc]

theorem readOn_append (x : Decoder × List (List UInt8)) (a b : List UInt8) :
    readOn x (a ++ b) = readOn (readOn x a) b := by
  simp only [readOn, run_append, List.append_assoc]

/-- Bytes that a payload needs. -/
theorem readOn_into {need : ℕ} (got bs : List UInt8) (h : bs.length ≤ need) :
    readOn (into need got) bs = into (need - bs.length) (got ++ bs) := by
  induction bs generalizing need got with
  | nil => simp
  | cons b bs ih =>
      rw [List.length_cons] at h
      have hneed : need ≠ 0 := by omega
      have hstep : readOn (into need got) (b :: bs) = readOn (into (need - 1) (got ++ [b])) bs := by
        simp only [into, if_neg hneed]
        exact run_cons _ _ _
      rw [hstep, ih (got ++ [b]) (by omega), List.append_assoc, List.singleton_append,
        List.length_cons, Nat.sub_sub, Nat.add_comm 1]

/-- **One frame is read back.** -/
theorem run_frame (payload : List UInt8) (h : payload.length ≤ 0xffff) :
    idle.run (frame payload) = (idle, [payload]) := by
  have hlength : (UInt8.ofNat (payload.length / 256)).toNat * 256
      + (UInt8.ofNat (payload.length % 256)).toNat = payload.length := by
    simp only [UInt8.toNat_ofNat']
    omega
  have hhead : idle.run (frame payload) = readOn (into payload.length []) payload := by
    rw [frame, run_cons]
    simp only [feed, readOn, run_cons, List.nil_append, hlength]
  rw [hhead, readOn_into [] payload le_rfl, Nat.sub_self]
  rfl

/-- **What was framed is read back.** -/
theorem run_frames (payloads : List (List UInt8)) (h : ∀ p ∈ payloads, p.length ≤ 0xffff) :
    idle.run (payloads.flatMap frame) = (idle, payloads) := by
  induction payloads with
  | nil => rfl
  | cons p payloads ih =>
      have hp := run_frame p (h p List.mem_cons_self)
      have hrest := ih fun q hq => h q (List.mem_cons_of_mem p hq)
      rw [List.flatMap_cons, run_append, hp, readOn, hrest]
      rfl

end Decoder

end Framing
