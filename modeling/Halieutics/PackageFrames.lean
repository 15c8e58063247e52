/-
**Framing in the package service: what is written is read back, however it is cut.**

The decoder of `package.c` keeps half a header, the number of payload bytes that are still missing
and the buffer they go to.  It reads whole chunks, with one loop for finishing a payload, cutting
frames apart and starting the next.  Here that loop is compared with the automaton of
`Framing.Decoder`, which looks at one byte at a time: `Reads` says which state of the automaton the
fields of the service stand for, and one pass of the loop is a stretch of bytes of the automaton.
Everything about chunks then follows from the automaton not knowing about them.

Main definitions:

* `Reads` — the fields of the service stand for a state of the automaton;
* `receive` — chunks fed to `new_message` one after the other.

Main results:

* `newMessageLoop_spec`, `newMessageLoop_isSome` — **the loop of `new_message` does the work of the
  automaton**, and comes to an end;
* `receive_spec` — **so does a sequence of chunks**;
* `frames_roundTrip` — **frames are read back, and only the bytes matter**, while fewer than
  `2 ^ 26` frames wait;
* `frames_overflow` — that many are too many: the array that holds them is indexed with an `int`.
-/

import Halieutics.Package

set_option relaxedAutoImplicit false
set_option autoImplicit false

namespace Halieutics.PackageService

open RingQueue Framing

/-! ### What the fields stand for -/

/-- A payload of which `got` is in the buffer and `need` bytes are missing. -/
structure Holds (P : Package) (need : ℕ) (got : List UInt8) : Prop where
  header : P.headerSz = 0
  missing : P.uncompleteSz = need
  buffer : P.uncomplete = ⟨got.length + need, got.map some ++ malloc need⟩

/-- **The state of the automaton that the fields of the service stand for.** -/
def Reads (P : Package) : Decoder → Prop
  | .idle => P.uncompleteSz = -1 ∧ P.headerSz = 0
  | .half hi => P.uncompleteSz = -1 ∧ P.headerSz = 1 ∧ P.header.1 = hi
  | .body need got => 0 < need ∧ Holds P need got

/-- What reading does not touch. -/
structure SameRest (P P' : Package) : Prop where
  manager : P'.manager = P.manager
  fd : P'.fd = P.fd
  heartbeat : P'.heartbeat = P.heartbeat
  recv : P'.recv = P.recv
  init : P'.init = P.init
  closed : P'.closed = P.closed
  request : P'.request = P.request
  log : P'.log = P.log

theorem SameRest.refl (P : Package) : SameRest P P := ⟨rfl, rfl, rfl, rfl, rfl, rfl, rfl, rfl⟩

theorem SameRest.trans {P P' P'' : Package} (h : SameRest P P') (h' : SameRest P' P'') :
    SameRest P P'' :=
  ⟨h'.manager.trans h.manager, h'.fd.trans h.fd, h'.heartbeat.trans h.heartbeat,
    h'.recv.trans h.recv, h'.init.trans h.init, h'.closed.trans h.closed,
    h'.request.trans h.request, h'.log.trans h.log⟩

/-- The state inside the loop: a payload may be complete but not yet pushed. -/
inductive Stands (P : Package) : Decoder × List (List UInt8) → Prop
  | idle : Reads P .idle → Stands P (.idle, [])
  | half {hi : UInt8} : Reads P (.half hi) → Stands P (.half hi, [])
  | holds {need : ℕ} {got : List UInt8} : Holds P need got → Stands P (Decoder.into need got)

theorem Reads.stands {P : Package} {s : Decoder} (h : Reads P s) : Stands P (s, []) := by
  cases s with
  | idle => exact .idle h
  | half hi => exact .half h
  | body need got =>
      have hs := Stands.holds h.2
      rwa [Decoder.into, if_neg (Nat.pos_iff_ne_zero.1 h.1)] at hs

/-! ### Filling the payload -/

theorem malloc_drop (n k : ℕ) : (malloc n).drop k = malloc (n - k) := by simp [malloc]

/-- Bytes copied behind the bytes that are already there. -/
theorem memcpy_behind {need : ℕ} (got src : List UInt8) :
    memcpy (got.map some ++ malloc need) got.length src
      = (got ++ src).map some ++ malloc (need - src.length) := by
  have htake : (got.map some ++ malloc need).take got.length = got.map some := by
    rw [List.take_append_of_le_length (by simp), List.take_of_length_le (by simp)]
  have hdrop : (got.map some ++ malloc need).drop (got.length + src.length)
      = malloc (need - src.length) := by
    rw [← malloc_drop, ← List.drop_drop]
    congr 1
    rw [List.drop_append_of_le_length (by simp), List.drop_of_length_le (by simp),
      List.nil_append]
  rw [memcpy, htake, hdrop, List.map_append]

/-- The offset at which the copying goes on. -/
theorem Holds.off {P : Package} {need : ℕ} {got : List UInt8} (h : Holds P need got) :
    ((P.uncomplete.sz : ℤ) - P.uncompleteSz).toNat = got.length := by
  rw [h.buffer, h.missing]
  dsimp only
  omega

/-- Enough bytes complete the payload. -/
theorem fillPayload_of_le {P : Package} {need : ℕ} {got : List UInt8} (h : Holds P need got)
    {msg : List UInt8} (hlen : need ≤ msg.length) :
    fillPayload P msg =
      (queuePush responseSz P.response (.ofBytes (got ++ msg.take need))).map fun queue =>
        ({ P with
            uncomplete := .ofBytes (got ++ msg.take need)
            response := queue
            uncompleteSz := -1 }, some (msg.drop need)) := by
  have hresp : ({ P.uncomplete with
      msg := memcpy P.uncomplete.msg got.length (msg.take need) } : Response)
      = .ofBytes (got ++ msg.take need) := by
    have hlast : malloc (need - (msg.take need).length) = [] := by
      rw [List.length_take, Nat.min_eq_left hlen, Nat.sub_self, malloc, List.replicate_zero]
    rw [h.buffer, Response.ofBytes, memcpy_behind, hlast, List.append_nil, List.length_append,
      List.length_take, Nat.min_eq_left hlen]
  have hn : P.uncompleteSz.toNat = need := by rw [h.missing, Int.toNat_natCast]
  unfold fillPayload
  rw [if_pos (by rw [h.missing]; omega)]
  dsimp only
  rw [if_pos (by rw [h.missing]; exact_mod_cast hlen), h.off, hn, hresp]

/-- Too few bytes leave the payload incomplete. -/
theorem fillPayload_of_lt {P : Package} {need : ℕ} {got : List UInt8} (h : Holds P need got)
    {msg : List UInt8} (hlen : msg.length < need) :
    ∃ P', fillPayload P msg = some (P', none) ∧ Holds P' (need - msg.length) (got ++ msg) ∧
      P'.response = P.response ∧ SameRest P P' := by
  unfold fillPayload
  rw [if_pos (by rw [h.missing]; omega)]
  dsimp only
  rw [if_neg (by rw [h.missing]; omega), h.off]
  refine ⟨_, rfl, ⟨h.header, ?_, ?_⟩, rfl, ⟨rfl, rfl, rfl, rfl, rfl, rfl, rfl, rfl⟩⟩
  · dsimp only
    rw [h.missing]
    omega
  · rw [h.buffer]
    simp only [memcpy_behind, List.length_append, Response.mk.injEq, and_true]
    omega

/-- The bytes that a payload needs, and what comes after them. -/
theorem readOn_take {need : ℕ} (got : List UInt8) {msg : List UInt8} (hlen : need ≤ msg.length) :
    Decoder.readOn (Decoder.into need got) msg
      = Decoder.readOn (.idle, [got ++ msg.take need]) (msg.drop need) := by
  have htake : (msg.take need).length = need := by rw [List.length_take, Nat.min_eq_left hlen]
  have hsplit : Decoder.readOn (Decoder.into need got) msg
      = Decoder.readOn (Decoder.readOn (Decoder.into need got) (msg.take need))
          (msg.drop need) := by
    rw [← Decoder.readOn_append, List.take_append_drop]
  rw [hsplit, Decoder.readOn_into got _ htake.le, htake, Nat.sub_self]
  rfl

/-- **The first part of a pass**: the payload is pushed, or the chunk is used up. -/
theorem fillPayload_spec {P P₁ : Package} {x : Decoder × List (List UInt8)} (h : Stands P x)
    {msg : List UInt8} {rest : Option (List UInt8)} (hf : fillPayload P msg = some (P₁, rest)) :
    SameRest P P₁ ∧
      match rest with
      | none =>
          Reads P₁ (Decoder.readOn x msg).1 ∧ (Decoder.readOn x msg).2 = [] ∧
            P₁.response = P.response
      | some rest =>
          ∃ s out, (s = .idle ∨ ∃ hi, s = .half hi) ∧ Reads P₁ s ∧
            Decoder.readOn x msg = Decoder.readOn (s, out) rest ∧
            P₁.response.toList = P.response.toList ++ out.map .ofBytes := by
  have hskip : P.uncompleteSz = -1 → fillPayload P msg = some (P, some msg) := by
    intro hneg
    rw [fillPayload, if_neg (by rw [hneg]; decide)]
  cases h with
  | idle hr =>
      rw [hskip hr.1] at hf
      obtain ⟨rfl, rfl⟩ := Prod.mk.inj (Option.some_inj.1 hf)
      exact ⟨.refl _, .idle, [], Or.inl rfl, hr, rfl, by simp⟩
  | half hr =>
      rw [hskip hr.1] at hf
      obtain ⟨rfl, rfl⟩ := Prod.mk.inj (Option.some_inj.1 hf)
      exact ⟨.refl _, .half _, [], Or.inr ⟨_, rfl⟩, hr, rfl, by simp⟩
  | @holds need got hh =>
      rcases Nat.lt_or_ge msg.length need with hlen | hlen
      · obtain ⟨P', hf', hh', hresp, hrest⟩ := fillPayload_of_lt hh hlen
        rw [hf'] at hf
        obtain ⟨rfl, rfl⟩ := Prod.mk.inj (Option.some_inj.1 hf)
        have hne : need - msg.length ≠ 0 := by omega
        rw [Decoder.readOn_into got msg hlen.le, Decoder.into, if_neg hne]
        exact ⟨hrest, ⟨Nat.pos_of_ne_zero hne, hh'⟩, rfl, hresp⟩
      · rw [fillPayload_of_le hh hlen] at hf
        obtain ⟨queue, hqueue, hout⟩ := Option.map_eq_some_iff.1 hf
        obtain ⟨rfl, rfl⟩ := Prod.mk.inj hout
        refine ⟨⟨rfl, rfl, rfl, rfl, rfl, rfl, rfl, rfl⟩, .idle, [got ++ msg.take need],
          Or.inl rfl, ⟨rfl, hh.header⟩, readOn_take got hlen, ?_⟩
        rw [Queue.tryPush_eq_some hqueue, Queue.toList_push]
        rfl

/-- The payload is pushed when there is room for what the chunk completes. -/
theorem fillPayload_ne_none {P : Package} {x : Decoder × List (List UInt8)} (h : Stands P x)
    {msg : List UInt8} (hroom : P.response.size + (Decoder.readOn x msg).2.length < 2 ^ 26) :
    fillPayload P msg ≠ none := by
  unfold fillPayload
  split
  · rename_i hbody
    dsimp only
    split
    · rename_i hlen
      cases h with
      | idle hr =>
          rw [hr.1] at hbody
          exact absurd hbody (by decide)
      | half hr =>
          rw [hr.1] at hbody
          exact absurd hbody (by decide)
      | @holds need got hh =>
          have hneed : need ≤ msg.length := by
            rw [hh.missing] at hlen
            exact_mod_cast hlen
          rw [readOn_take got hneed, Decoder.readOn, List.length_append, List.length_singleton]
            at hroom
          have hlimit : (P.response.size + 1) * 2 ≤ intMax / responseSz := by
            norm_num [intMax, responseSz]
            omega
          rw [queuePush, Queue.tryPush_of_room _ hlimit]
          exact Option.some_ne_none _
    · exact Option.some_ne_none _
  · exact Option.some_ne_none _

/-! ### The header -/

theorem holds_allocPayload (P : Package) (header : UInt8 × UInt8) :
    Holds (allocPayload P header) (header.1.toNat * 256 + header.2.toNat) [] :=
  ⟨rfl, rfl, by simp [allocPayload]⟩

theorem sameRest_allocPayload (P : Package) (header : UInt8 × UInt8) :
    SameRest P (allocPayload P header) := ⟨rfl, rfl, rfl, rfl, rfl, rfl, rfl, rfl⟩

/-- **The second part of a pass**: the assertion holds, and a header is read or the chunk is used
up. -/
theorem readHeader_spec {P : Package} {s : Decoder} (hs : s = .idle ∨ ∃ hi, s = .half hi)
    (h : Reads P s) (msg : List UInt8) :
    ∃ P₁ rest, readHeader P msg = some (P₁, rest) ∧ SameRest P P₁ ∧ P₁.response = P.response ∧
      match rest with
      | none => Reads P₁ (s.run msg).1 ∧ (s.run msg).2 = []
      | some rest => ∃ x, Stands P₁ x ∧ s.run msg = Decoder.readOn x rest := by
  cases msg with
  | nil => exact ⟨P, none, rfl, .refl P, rfl, h, rfl⟩
  | cons b msg =>
      rcases hs with rfl | ⟨hi, rfl⟩
      · cases msg with
        | nil =>
            exact ⟨{ P with header := (b, P.header.2), headerSz := 1 }, none,
              by rw [readHeader, if_pos h.2], ⟨rfl, rfl, rfl, rfl, rfl, rfl, rfl, rfl⟩, rfl,
              ⟨h.1, rfl, rfl⟩, rfl⟩
        | cons c msg =>
            refine ⟨allocPayload P (b, c), some msg, by rw [readHeader, if_pos h.2],
              sameRest_allocPayload P (b, c), rfl, _, .holds (holds_allocPayload P (b, c)), ?_⟩
            simp only [Decoder.run_cons, Decoder.feed, Decoder.readOn, List.nil_append]
      · have hne : ¬ P.headerSz = 0 := by rw [h.2.1]; decide
        refine ⟨allocPayload P (P.header.1, b), some msg,
          by rw [readHeader.eq_def]; dsimp only; rw [if_neg hne, if_pos h.2.1],
          sameRest_allocPayload P (P.header.1, b), rfl, _,
          .holds (holds_allocPayload P (P.header.1, b)), ?_⟩
        rw [h.2.2]
        rfl

/-! ### The loop -/

/-- **The loop of `new_message` does the work of the automaton.** -/
theorem newMessageLoop_spec (P : Package) (msg : List UInt8) :
    ∀ {x : Decoder × List (List UInt8)} {P' : Package},
    Stands P x → newMessageLoop P msg = some P' →
      SameRest P P' ∧ Reads P' (Decoder.readOn x msg).1 ∧
        P'.response.toList = P.response.toList ++ (Decoder.readOn x msg).2.map .ofBytes := by
  fun_induction newMessageLoop P msg with
  | case1 P msg hf => exact fun _ hl => by cases hl
  | case2 P msg P₁ hf =>
      intro x P' hx hl
      obtain rfl := Option.some_inj.1 hl
      obtain ⟨hrest, hr, hout, hresp⟩ := fillPayload_spec hx hf
      exact ⟨hrest, hr, by rw [hout, hresp]; simp⟩
  | case3 P msg P₁ rest hf hh => exact fun _ hl => by cases hl
  | case4 P msg P₁ rest hf P₂ hh =>
      intro x P' hx hl
      obtain rfl := Option.some_inj.1 hl
      obtain ⟨hrest, s, out, hs, hr, hread, hresp⟩ := fillPayload_spec hx hf
      obtain ⟨P₃, rest₂, hh', hrest', hresp', hr'⟩ := readHeader_spec hs hr rest
      rw [hh] at hh'
      obtain ⟨rfl, rfl⟩ := Prod.mk.inj (Option.some_inj.1 hh')
      refine ⟨hrest.trans hrest', ?_, ?_⟩
      · rw [hread]
        exact hr'.1
      · rw [hresp', hresp, hread, Decoder.readOn, hr'.2, List.append_nil]
  | case5 P msg P₁ rest hf P₂ rest₂ hh ih =>
      intro x P' hx hl
      obtain ⟨hrest, s, out, hs, hr, hread, hresp⟩ := fillPayload_spec hx hf
      obtain ⟨P₃, rest₃, hh', hrest', hresp', hr'⟩ := readHeader_spec hs hr rest
      rw [hh] at hh'
      obtain ⟨rfl, rfl⟩ := Prod.mk.inj (Option.some_inj.1 hh')
      obtain ⟨y, hy, hrun⟩ := hr'
      obtain ⟨hrest'', hr'', hresp''⟩ := ih hy hl
      have hread' : Decoder.readOn x msg
          = ((Decoder.readOn y rest₂).1, out ++ (Decoder.readOn y rest₂).2) := by
        rw [hread, ← hrun]
        rfl
      refine ⟨(hrest.trans hrest').trans hrest'', ?_, ?_⟩
      · rw [hread']
        exact hr''
      · rw [hread', hresp'', hresp', hresp, List.map_append, List.append_assoc]

/-- **It comes to an end** when there is room for what the chunk completes: its assertion holds, and
no `int` overflows. -/
theorem newMessageLoop_isSome (P : Package) (msg : List UInt8) :
    ∀ {x : Decoder × List (List UInt8)}, Stands P x →
      P.response.size + (Decoder.readOn x msg).2.length < 2 ^ 26 →
        ∃ P', newMessageLoop P msg = some P' := by
  fun_induction newMessageLoop P msg with
  | case1 P msg hf => exact fun hx hroom => absurd hf (fillPayload_ne_none hx hroom)
  | case2 P msg P₁ hf => exact fun _ _ => ⟨P₁, rfl⟩
  | case3 P msg P₁ rest hf hh =>
      intro x hx _
      obtain ⟨-, s, out, hs, hr, -, -⟩ := fillPayload_spec hx hf
      obtain ⟨P₂, rest₂, hh', -⟩ := readHeader_spec hs hr rest
      rw [hh] at hh'
      cases hh'
  | case4 P msg P₁ rest hf P₂ hh => exact fun _ _ => ⟨P₂, rfl⟩
  | case5 P msg P₁ rest hf P₂ rest₂ hh ih =>
      intro x hx hroom
      obtain ⟨-, s, out, hs, hr, hread, hresp⟩ := fillPayload_spec hx hf
      obtain ⟨P₃, rest₃, hh', -, hresp', hr'⟩ := readHeader_spec hs hr rest
      rw [hh] at hh'
      obtain ⟨rfl, rfl⟩ := Prod.mk.inj (Option.some_inj.1 hh')
      obtain ⟨y, hy, hrun⟩ := hr'
      refine ih hy ?_
      -- what is pushed here and what the rest completes is what the chunk completes
      have hsize : P₁.response.size = P.response.size + out.length := by
        rw [← Queue.length_toList, hresp, List.length_append, List.length_map, Queue.length_toList]
      rw [hread, Decoder.readOn, List.length_append, hrun] at hroom
      rw [hresp', hsize, Nat.add_assoc]
      exact hroom

/-! ### Chunks -/

/-- Chunks of the socket, fed to `new_message` one after the other. -/
def receive (P : Package) : List (List UInt8) → Option Package
  | [] => some P
  | chunk :: chunks => (newMessage P chunk).bind fun P => receive P chunks

/-- Counting the chunk does not move the reader. -/
theorem Reads.counted {P : Package} {s : Decoder} (h : Reads P s) :
    Reads { P with recv := P.recv + 1 } s := by
  cases s with
  | idle => exact h
  | half hi => exact h
  | body need got => exact ⟨h.1, h.2.header, h.2.missing, h.2.buffer⟩

/-- **`new_message` does the work of the automaton.** -/
theorem newMessage_spec {P P' : Package} {s : Decoder} (h : Reads P s) {msg : List UInt8}
    (hm : newMessage P msg = some P') :
    SameRest { P with recv := P.recv + 1 } P' ∧ Reads P' (s.run msg).1 ∧
      P'.response.toList = P.response.toList ++ (s.run msg).2.map .ofBytes := by
  unfold newMessage at hm
  split at hm
  · cases hm
  · exact newMessageLoop_spec _ msg h.counted.stands hm

/-- It comes to an end while the chunks can be counted and there is room for the frames. -/
theorem newMessage_isSome {P : Package} {s : Decoder} (h : Reads P s) {msg : List UInt8}
    (hrecv : P.recv < intMax) (hroom : P.response.size + (s.run msg).2.length < 2 ^ 26) :
    ∃ P', newMessage P msg = some P' := by
  unfold newMessage
  rw [if_neg (not_le.2 hrecv)]
  exact newMessageLoop_isSome _ msg h.counted.stands hroom

/-- **So does a sequence of chunks**: only their concatenation matters, as long as they can be
counted and there is room for the frames. -/
theorem receive_spec {P : Package} {s : Decoder} (h : Reads P s) (chunks : List (List UInt8))
    (hrecv : P.recv + chunks.length ≤ intMax)
    (hroom : P.response.size + (s.run chunks.flatten).2.length < 2 ^ 26) :
    ∃ P', receive P chunks = some P' ∧ Reads P' (s.run chunks.flatten).1 ∧
      P'.response.toList = P.response.toList ++ (s.run chunks.flatten).2.map .ofBytes := by
  induction chunks generalizing P s with
  | nil => exact ⟨P, rfl, h, by simp⟩
  | cons chunk chunks ih =>
      have hrun : s.run (chunk ++ chunks.flatten)
          = Decoder.readOn (s.run chunk) chunks.flatten := Decoder.run_append _ _ _
      rw [List.flatten_cons, hrun, Decoder.readOn] at hroom ⊢
      rw [List.length_append] at hroom
      rw [List.length_cons, Nat.cast_succ] at hrecv
      obtain ⟨P₁, hm⟩ : ∃ P₁, newMessage P chunk = some P₁ :=
        newMessage_isSome h (by omega) (by omega)
      obtain ⟨hrest, hr, hresp⟩ := newMessage_spec h hm
      have hsize : P₁.response.size = P.response.size + (s.run chunk).2.length := by
        rw [← Queue.length_toList, hresp, List.length_append, List.length_map, Queue.length_toList]
      have hcount : P₁.recv = P.recv + 1 := hrest.recv
      obtain ⟨P', hrec, hr', hresp'⟩ := ih hr (by omega) (by omega)
      refine ⟨P', by rw [receive, hm, Option.bind_some, hrec], hr', ?_⟩
      rw [hresp', hresp, List.map_append, List.append_assoc]

/-- The service begins between two frames. -/
theorem reads_packageCreate : Reads packageCreate .idle := ⟨rfl, rfl⟩

/-- `send_out` frames a payload. -/
theorem outFrame_eq_frame {payload : List UInt8} (h : payload.length ≤ 0xffff) :
    outFrame payload = some (frame payload) := by
  have hand : payload.length &&& 0xff = payload.length % 256 :=
    Nat.and_two_pow_sub_one_eq_mod _ 8
  have hshift : (payload.length &&& 0xff00) >>> 8 = payload.length / 256 := by
    rw [Nat.shiftRight_and_distrib, show 0xff00 >>> 8 = 2 ^ 8 - 1 from rfl,
      Nat.and_two_pow_sub_one_eq_mod, Nat.shiftRight_eq_div_pow, Nat.mod_eq_of_lt (by omega)]
  rw [outFrame, if_neg (by omega), hand, hshift, frame]

/-- `send_out` frames all payloads of a list. -/
theorem reduceOption_outFrame {payloads : List (List UInt8)}
    (h : ∀ p ∈ payloads, p.length ≤ 0xffff) :
    (payloads.map outFrame).reduceOption = payloads.map frame := by
  have hmap : payloads.map outFrame = (payloads.map frame).map some := by
    rw [List.map_map]
    exact List.map_congr_left fun p hp => outFrame_eq_frame (h p hp)
  rw [hmap, List.reduceOption, List.filterMap_map]
  exact List.filterMap_some

/-- What a service has read: the frames that wait, and the header and the payload it is inside. -/
structure SameReading (P P' : Package) : Prop where
  response : P'.response.toList = P.response.toList
  headerSz : P'.headerSz = P.headerSz
  header : P.headerSz = 1 → P'.header.1 = P.header.1
  uncompleteSz : P'.uncompleteSz = P.uncompleteSz
  uncomplete : 0 ≤ P.uncompleteSz → P'.uncomplete = P.uncomplete

/-- The fields a service reads are those of the state of the automaton. -/
theorem sameReading_of_reads {P P' : Package} {s : Decoder} (h : Reads P s) (h' : Reads P' s)
    (hresp : P'.response.toList = P.response.toList) : SameReading P P' := by
  cases s with
  | idle =>
      have hneg : ¬ 0 ≤ P.uncompleteSz := by rw [h.1]; decide
      exact ⟨hresp, h'.2.trans h.2.symm, fun h1 => absurd (h.2.symm.trans h1) (by decide),
        h'.1.trans h.1.symm, fun h0 => absurd h0 hneg⟩
  | half hi =>
      have hneg : ¬ 0 ≤ P.uncompleteSz := by rw [h.1]; decide
      exact ⟨hresp, h'.2.1.trans h.2.1.symm, fun _ => h'.2.2.trans h.2.2.symm,
        h'.1.trans h.1.symm, fun h0 => absurd h0 hneg⟩
  | body need got =>
      have hh := h.2
      have hh' := h'.2
      exact ⟨hresp, hh'.header.trans hh.header.symm,
        fun h1 => absurd (hh.header.symm.trans h1) (by decide),
        hh'.missing.trans hh.missing.symm, fun _ => hh'.buffer.trans hh.buffer.symm⟩

/-- **Frames are read back, and only the bytes matter**, as long as fewer than `2 ^ 26` frames wait
and there are no more chunks than an `int` can count.  However the frames that `send_out` writes are
cut into chunks, the service of `package_create` pushes their payloads, in order, and ends between
two frames; and any two ways of cutting any stream give the same frames and leave the service at the
same place of the stream. -/
theorem frames_roundTrip :
    (∀ payloads chunks : List (List UInt8), (∀ p ∈ payloads, p.length ≤ 0xffff) →
      payloads.length < 2 ^ 26 → chunks.length ≤ intMax →
      (payloads.map outFrame).reduceOption.flatten = chunks.flatten →
        ∃ P, receive packageCreate chunks = some P ∧
          P.response.toList = payloads.map .ofBytes ∧ P.headerSz = 0 ∧ P.uncompleteSz = -1) ∧
    (∀ chunks chunks' : List (List UInt8), chunks.flatten = chunks'.flatten →
      (Decoder.idle.run chunks.flatten).2.length < 2 ^ 26 →
      chunks.length ≤ intMax → chunks'.length ≤ intMax →
        ∃ P P', receive packageCreate chunks = some P ∧ receive packageCreate chunks' = some P' ∧
          SameReading P P') := by
  have hempty : packageCreate.response.toList = [] := Queue.toList_init _ _
  have hsize : packageCreate.response.size = 0 := by
    rw [← Queue.length_toList, hempty, List.length_nil]
  have receives : ∀ chunks : List (List UInt8),
    (Decoder.idle.run chunks.flatten).2.length < 2 ^ 26 →
      chunks.length ≤ intMax → ∃ P', receive packageCreate chunks = some P' ∧
        Reads P' (Decoder.idle.run chunks.flatten).1 ∧
        P'.response.toList = (Decoder.idle.run chunks.flatten).2.map .ofBytes := by
    intro chunks hroom hcount
    have hrecv : packageCreate.recv + chunks.length ≤ intMax := by
      rw [show packageCreate.recv = 0 from rfl, zero_add]
      exact_mod_cast hcount
    obtain ⟨P, hrec, hr, hresp⟩ :=
      receive_spec reads_packageCreate chunks hrecv (by rwa [hsize, Nat.zero_add])
    rw [hempty, List.nil_append] at hresp
    exact ⟨P, hrec, hr, hresp⟩
  refine ⟨?_, ?_⟩
  · intro payloads chunks hlen hroom hcount hcut
    have hrun : Decoder.idle.run chunks.flatten = (.idle, payloads) := by
      rw [← hcut, reduceOption_outFrame hlen, ← List.flatMap_def, Decoder.run_frames payloads hlen]
    obtain ⟨P, hrec, hr, hresp⟩ := receives chunks (by rwa [hrun]) hcount
    rw [hrun] at hr hresp
    exact ⟨P, hrec, hresp, hr.2, hr.1⟩
  · intro chunks chunks' hcut hroom hcount hcount'
    obtain ⟨P, hrec, hr, hresp⟩ := receives chunks hroom hcount
    obtain ⟨P', hrec', hr', hresp'⟩ := receives chunks' (hcut ▸ hroom) hcount'
    rw [← hcut] at hr' hresp'
    exact ⟨P, P', hrec, hrec', sameReading_of_reads hr hr' (hresp'.trans hresp.symm)⟩

/-- Two frames, the second of them empty, in four chunks: a cut inside a header, one between the
two bytes of the next, and a chunk without bytes. -/
theorem frames_roundTrip_fourChunks :
    ∃ P, receive packageCreate [[0], [2, 7, 9, 0], [], [0]] = some P ∧
      P.response.toList = [[7, 9], []].map .ofBytes ∧ P.headerSz = 0 ∧ P.uncompleteSz = -1 :=
  frames_roundTrip.1 [[7, 9], []] [[0], [2, 7, 9, 0], [], [0]] (by decide) (by decide)
    (by decide) (by decide)

/-! ### Too many frames -/

/-- The array of the frames is as large as an `int` allows. -/
def Small (P : Package) : Prop := P.response.Within (intMax / responseSz)

theorem small_packageCreate : Small packageCreate := ⟨by decide, 2, rfl⟩

theorem Small.fillPayload {P P₁ : Package} (h : Small P) {msg : List UInt8}
    {rest : Option (List UInt8)} (hf : fillPayload P msg = some (P₁, rest)) : Small P₁ := by
  unfold PackageService.fillPayload at hf
  split at hf
  · dsimp only at hf
    split at hf
    · obtain ⟨queue, hqueue, hout⟩ := Option.map_eq_some_iff.1 hf
      rw [← (Prod.mk.inj hout).1]
      exact Queue.Within.tryPush h hqueue
    · rw [← (Prod.mk.inj (Option.some_inj.1 hf)).1]
      exact h
  · rw [← (Prod.mk.inj (Option.some_inj.1 hf)).1]
    exact h

theorem Small.readHeader {P P₁ : Package} (h : Small P) {msg : List UInt8}
    {rest : Option (List UInt8)} (hh : readHeader P msg = some (P₁, rest)) : Small P₁ := by
  unfold PackageService.readHeader at hh
  split at hh
  · rw [← (Prod.mk.inj (Option.some_inj.1 hh)).1]
    exact h
  · split at hh
    · split at hh <;> rw [← (Prod.mk.inj (Option.some_inj.1 hh)).1] <;> exact h
    · split at hh
      · rw [← (Prod.mk.inj (Option.some_inj.1 hh)).1]
        exact h
      · cases hh

theorem Small.newMessageLoop {P P' : Package} {msg : List UInt8} (h : Small P)
    (hl : newMessageLoop P msg = some P') : Small P' := by
  fun_induction PackageService.newMessageLoop P msg with
  | case1 P msg hf => cases hl
  | case2 P msg P₁ hf => exact Option.some_inj.1 hl ▸ h.fillPayload hf
  | case3 P msg P₁ rest hf hh => cases hl
  | case4 P msg P₁ rest hf P₂ hh => exact Option.some_inj.1 hl ▸ (h.fillPayload hf).readHeader hh
  | case5 P msg P₁ rest hf P₂ rest₂ hh ih => exact ih ((h.fillPayload hf).readHeader hh) hl

theorem Small.newMessage {P P' : Package} {msg : List UInt8} (h : Small P)
    (hm : newMessage P msg = some P') : Small P' := by
  unfold PackageService.newMessage at hm
  split at hm
  · cases hm
  · exact Small.newMessageLoop (P := { P with recv := P.recv + 1 }) h hm

/-- There are never `2 ^ 26` frames waiting. -/
theorem Small.size_lt {P : Package} (h : Small P) : P.response.size < 2 ^ 26 :=
  Queue.Within.size_lt h (by decide)

/-- **`2 ^ 26` empty frames are too many**: the size of the array for the last one is `2 ^ 31`
bytes. -/
theorem frames_overflow :
    ¬ ∀ payloads chunks : List (List UInt8), (∀ p ∈ payloads, p.length ≤ 0xffff) →
      (payloads.map outFrame).reduceOption.flatten = chunks.flatten →
        ∃ P, receive packageCreate chunks = some P ∧
          P.response.toList = payloads.map .ofBytes ∧ P.headerSz = 0 ∧ P.uncompleteSz = -1 := by
  intro hall
  obtain ⟨frames, hframes⟩ : ∃ frames,
    frames = List.replicate (2 ^ 26) ([] : List UInt8) := ⟨_, rfl⟩
  have hshort : ∀ p ∈ frames, p.length ≤ 0xffff := by
    intro p hp
    rw [hframes] at hp
    rw [List.eq_of_mem_replicate hp]
    exact Nat.zero_le _
  have hmany : frames.length = 2 ^ 26 := by rw [hframes, List.length_replicate]
  obtain ⟨P, hrec, hresp, -⟩ := hall frames [(frames.map outFrame).reduceOption.flatten] hshort
    (by rw [List.flatten_singleton])
  obtain ⟨P₁, hm, hrec⟩ := Option.bind_eq_some_iff.1 hrec
  obtain rfl := Option.some_inj.1 hrec
  have hlt := (small_packageCreate.newMessage hm).size_lt
  rw [← Queue.length_toList, hresp, List.length_map, hmany] at hlt
  exact lt_irrefl _ hlt

end Halieutics.PackageService
