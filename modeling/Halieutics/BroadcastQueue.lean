/-
**The queue of notices.**

A queue that gets too long loses the oldest message that is not a notice, so that up to
`NOTICE_RESERVED` notices are passed over.  If the walk from the oldest end meets more notices than
that, it gives up and cuts the end of the queue off — but the bound of that loop moves towards the
end while the end moves towards the bound, and three notices go at once.

The queue is never longer than `MAX_QUEUE_SIZE`, so a pass of the loop finds eleven messages, and
one pass is enough.

Main definitions:

* `Halieutics.Broadcast.Trims` — what the `while` loop does, pass by pass;
* `Halieutics.Broadcast.after`, `Halieutics.Broadcast.received` — a service that has received these
  packets, and the messages among them;
* `Halieutics.Broadcast.notices` — the notices of a queue;
* `Halieutics.Broadcast.Reserved` — **the notices are reserved**;
* `Halieutics.Broadcast.Spared` — the condition: enough notices are among the newest messages.

Main results:

* `Halieutics.Broadcast.evictFrom_cases` — **what a pass takes away**;
* `Halieutics.Broadcast.trims_trim` — the loop ends;
* `Halieutics.Broadcast.queue_bounded` — **the queue is short, in order, and has the new message**;
* `Halieutics.Broadcast.reserved_iff` — **the notices are reserved exactly if enough of them are
  new**;
* `Halieutics.Broadcast.notices_lost` — three of six notices go.
-/

import Halieutics.Broadcast

set_option relaxedAutoImplicit false
set_option autoImplicit false

namespace Halieutics.Broadcast

/-! ### The loop that makes room -/

/-- **`while #msg_queue > MAX_QUEUE_SIZE`**, from its beginning to its end. -/
inductive Trims : List Msg → List Msg → Prop where
  | done {q : List Msg} (h : q.length ≤ maxQueueSize) : Trims q q
  | pass {q q' : List Msg} (h : maxQueueSize < q.length) (t : Trims (evictFrom q 0 q.length) q') :
      Trims q q'

/-- **The loop ends.** -/
theorem trims_trim (q : List Msg) : Trims q (trim q) := by
  have hloop : ∀ (k : ℕ) (q : List Msg), q.length ≤ k → Trims q (trimLoop k q) := by
    intro k
    induction k with
    | zero => exact fun q hq => Trims.done (hq.trans (Nat.zero_le _))
    | succ k ih =>
        intro q hq
        rw [trimLoop]
        split
        · rename_i hlong
          have hlt := length_evictFrom_lt (n := 0) hlong (Nat.zero_le _) (Nat.zero_add _)
          exact Trims.pass hlong (ih _ (by omega))
        · rename_i hshort
          exact Trims.done (Nat.le_of_not_gt hshort)
  exact hloop _ q le_rfl

/-- The end moves towards the bound by half of the messages between them. -/
theorem popTail_eq_take (q : List Msg) (j : ℕ) :
    popTail q j = q.take (q.length - (q.length - j + 1) / 2) := by
  fun_induction popTail q j with
  | case1 q j h ih =>
      rw [ih, List.length_dropLast, List.dropLast_eq_take, List.take_take]
      congr 1
      omega
  | case2 q j h =>
      rw [show q.length - (q.length - j + 1) / 2 = q.length by omega, List.take_length]

def isNotice (m : Msg) : Bool := m.type == some 1

theorem type_getElem? (q : List Msg) {i : ℕ} (hi : i < q.length) :
    (q[i]?.bind fun m => m.type) = some 1 ↔ isNotice q[i] = true := by
  rw [List.getElem?_eq_getElem hi, Option.bind_some, isNotice, beq_iff_eq]

/-- **What a pass takes away**: one message that is not a notice, behind which there are only
notices; or, if more than `noticeReserved` notices are the oldest, half of the older ones. -/
theorem evictFrom_cases {q : List Msg} (h : maxQueueSize < q.length) :
    (∃ i, ∃ hi : i < q.length, q.length - (noticeReserved + 1) ≤ i ∧ isNotice q[i] = false ∧
      (∀ m ∈ q.drop (i + 1), isNotice m = true) ∧ evictFrom q 0 q.length = q.eraseIdx i) ∨
    (∀ m ∈ q.drop (q.length - (noticeReserved + 1)), isNotice m = true) ∧
      evictFrom q 0 q.length = popTail q (q.length - noticeReserved) := by
  have hwalk : ∀ i n, n + i = q.length → n ≤ noticeReserved →
      (∀ m ∈ q.drop i, isNotice m = true) →
      (∃ k, ∃ hk : k < q.length, q.length - (noticeReserved + 1) ≤ k ∧ isNotice q[k] = false ∧
        (∀ m ∈ q.drop (k + 1), isNotice m = true) ∧ evictFrom q n i = q.eraseIdx k) ∨
      (∀ m ∈ q.drop (q.length - (noticeReserved + 1)), isNotice m = true) ∧
        evictFrom q n i = popTail q (q.length - noticeReserved) := by
    intro i
    induction i with
    | zero =>
        intro n hn hle _
        unfold maxQueueSize at h
        unfold noticeReserved at hle
        omega
    | succ i ih =>
        intro n hn hle hall
        have hi : i < q.length := by omega
        rw [evictFrom]
        by_cases htype : isNotice q[i] = true
        · rw [if_pos ((type_getElem? q hi).2 htype)]
          have hdrop : ∀ m ∈ q.drop i, isNotice m = true := by
            intro m hm
            rw [List.drop_eq_getElem_cons hi] at hm
            rcases List.mem_cons.1 hm with rfl | hm
            · exact htype
            · exact hall m hm
          split
          · rename_i hres
            refine Or.inr ⟨?_, ?_⟩
            · rwa [show q.length - (noticeReserved + 1) = i by omega]
            · rw [show q.length - noticeReserved = i + 1 by omega]
          · rename_i hres
            exact ih (n + 1) (by omega) (Nat.le_of_not_gt hres) hdrop
        · rw [if_neg fun ht => htype ((type_getElem? q hi).1 ht)]
          exact Or.inl ⟨i, hi, by omega, Bool.eq_false_iff.2 htype, hall, rfl⟩
  refine hwalk q.length 0 (Nat.zero_add _) (Nat.zero_le _) fun m hm => ?_
  rw [List.drop_length] at hm
  exact absurd hm List.not_mem_nil

/-! ### What stays -/

/-- The newest messages stay. -/
theorem take_evictFrom {q : List Msg} (h : maxQueueSize < q.length) :
    (evictFrom q 0 q.length).take (q.length - (noticeReserved + 1)) =
      q.take (q.length - (noticeReserved + 1)) := by
  rcases evictFrom_cases h with ⟨i, hi, hle, -, -, he⟩ | ⟨-, he⟩
  · rw [he, List.eraseIdx_eq_take_drop_succ, List.take_append_of_le_length (by
      rw [List.length_take]; omega), List.take_take, min_eq_left hle]
  · rw [he, popTail_eq_take, List.take_take]
    congr 1
    unfold noticeReserved
    omega

/-- The newest message stays. -/
theorem head?_trim (q : List Msg) : (trim q).head? = q.head? := by
  have hloop : ∀ (k : ℕ) (q : List Msg), (trimLoop k q).head? = q.head? := by
    intro k
    induction k with
    | zero => exact fun q => rfl
    | succ k ih =>
        intro q
        rw [trimLoop]
        split
        · rename_i hlong
          have htake := congrArg List.head? (take_evictFrom hlong)
          have hne : q.length - (noticeReserved + 1) ≠ 0 := by
            unfold maxQueueSize at hlong
            unfold noticeReserved
            omega
          rw [List.head?_take, List.head?_take, if_neg hne, if_neg hne] at htake
          rw [ih, htake]
        · rfl
  exact hloop _ q

theorem trimLoop_of_le {q : List Msg} (h : q.length ≤ maxQueueSize) (k : ℕ) : trimLoop k q = q := by
  cases k with
  | zero => rfl
  | succ k => rw [trimLoop, if_neg (Nat.not_lt.2 h)]

/-- One pass is enough for a message too many. -/
theorem trim_succ {q : List Msg} (h : q.length = maxQueueSize + 1) :
    trim q = evictFrom q 0 q.length := by
  have hlt := length_evictFrom_lt (n := 0) (by omega : q.length > maxQueueSize) (Nat.zero_le _)
    (Nat.zero_add _)
  obtain ⟨k, hk⟩ := Nat.exists_eq_succ_of_ne_zero (by omega : q.length ≠ 0)
  have hloop : trimLoop (k + 1) q = trimLoop k (evictFrom q 0 q.length) := by
    rw [trimLoop, if_pos (by omega)]
  rw [trim]
  nth_rewrite 1 [hk]
  rw [hloop, trimLoop_of_le (by omega)]

/-! ### A service that receives packets -/

/-- A service that has received these packets since it has subscribed. -/
def after (s : Option Conf) (ps : List Packet) :
    State := ps.foldl State.receive (({} : State).init s)

/-- The messages among the packets. -/
def received (ps : List Packet) : List Msg := ps.filterMap fun
  | .msg m => some m
  | .rem _ => none

section After

variable (s : Option Conf) (ps : List Packet)

theorem after_append (p : Packet) : after s (ps ++ [p]) = (after s ps).receive p := by
  rw [after, List.foldl_append]
  rfl

theorem subscribed_after : (after s ps).subscribed = true := by
  induction ps using List.reverseRecOn with
  | nil => rfl
  | append_singleton ps p ih =>
      rw [after_append]
      cases p <;>
        rw [State.receive, if_pos ih] <;>
        exact ih

theorem msgQueue_after_msg (m : Msg) :
    (after s (ps ++ [.msg m])).msgQueue = trim (m :: (after s ps).msgQueue) := by
  rw [after_append, State.receive, if_pos (subscribed_after s ps)]
  rfl

theorem msgQueue_after_rem (id : ℕ) :
    (after s (ps ++ [.rem id])).msgQueue = ((after s ps).dispatchRem id).msgQueue := by
  rw [after_append, State.receive, if_pos (subscribed_after s ps)]

theorem length_msgQueue_le : (after s ps).msgQueue.length ≤ maxQueueSize := by
  induction ps using List.reverseRecOn with
  | nil => exact Nat.zero_le _
  | append_singleton ps p ih =>
      cases p with
      | msg m =>
          rw [msgQueue_after_msg]
          exact length_trim_le _
      | rem id =>
          rw [msgQueue_after_rem]
          exact (sublist_dispatchRem _ id).length_le.trans ih

theorem msgQueue_sublist : (after s ps).msgQueue.Sublist (received ps).reverse := by
  induction ps using List.reverseRecOn with
  | nil => exact List.Sublist.refl []
  | append_singleton ps p ih =>
      rw [received, List.filterMap_append, List.reverse_append]
      cases p with
      | msg m =>
          rw [msgQueue_after_msg]
          exact (trim_sublist _).trans (ih.cons_cons m)
      | rem id =>
          rw [msgQueue_after_rem]
          exact (sublist_dispatchRem _ id).trans ih

end After

/-- **The queue is short, in order, and has the new message**: whatever packets come in, it has at
most `maxQueueSize` messages, which are some of those received, the newest first; and when a message
comes in, the loop ends and leaves that message in front. -/
theorem queue_bounded (s : Option Conf) (ps : List Packet) :
    (after s ps).msgQueue.length ≤ maxQueueSize ∧
      (after s ps).msgQueue.Sublist (received ps).reverse ∧
      ∀ m, Trims (m :: (after s ps).msgQueue) (after s (ps ++ [.msg m])).msgQueue ∧
        (after s (ps ++ [.msg m])).msgQueue.head? = some m := by
  refine ⟨length_msgQueue_le s ps, msgQueue_sublist s ps, fun m => ?_⟩
  rw [msgQueue_after_msg]
  exact ⟨trims_trim _, head?_trim _⟩

/-! ### The notices -/

def notices (q : List Msg) : List Msg := q.filter isNotice

/-- **The notices are reserved**: of `noticeReserved` notices or more as many stay, and those that
go are older than those that stay. -/
structure Reserved (q q' : List Msg) : Prop where
  enough : noticeReserved ≤ (notices q).length → noticeReserved ≤ (notices q').length
  older : notices q' <+: notices q

/-- **Enough notices are new**: if the queue is too long and its oldest messages are more than
`noticeReserved` notices, at least two notices are newer than these. -/
def Spared (q : List Msg) : Prop :=
  maxQueueSize < q.length → (∀ m ∈ q.drop (q.length - (noticeReserved + 1)), isNotice m = true) →
    2 ≤ (notices (q.take (q.length - (noticeReserved + 1)))).length

theorem notices_eraseIdx {q : List Msg} {i : ℕ} (hi : i < q.length) (h : isNotice q[i] = false) :
    notices (q.eraseIdx i) = notices q := by
  have hq : notices q = notices (q.take i ++ q[i] :: q.drop (i + 1)) := by
    rw [← List.drop_eq_getElem_cons hi, List.take_append_drop]
  rw [hq, List.eraseIdx_eq_take_drop_succ, notices, notices, List.filter_append, List.filter_append,
    List.filter_cons, h]
  rfl

theorem length_notices_of_all {q : List Msg} (h : ∀ m ∈ q, isNotice m = true) :
    (notices q).length = q.length := by
  rw [notices, List.filter_eq_self.2 h]

/-- **The notices are reserved exactly if enough of them are new.** -/
theorem reserved_trim_iff {q : List Msg} (h : q.length ≤ maxQueueSize + 1) :
    Reserved q (trim q) ↔ Spared q := by
  by_cases hlong : q.length ≤ maxQueueSize
  · rw [trim, trimLoop_of_le hlong]
    exact ⟨fun _ hlt => absurd hlt (Nat.not_lt.2 hlong), fun _ => ⟨id, List.prefix_refl _⟩⟩
  have hlen : q.length = maxQueueSize + 1 := by omega
  have hmax : maxQueueSize = 10 := rfl
  have hreserved : noticeReserved = 5 := rfl
  rw [trim_succ hlen]
  rcases evictFrom_cases (Nat.not_le.1 hlong) with ⟨i, hi, hle, htype, -, he⟩ | ⟨hall, he⟩
  · -- a message that is no notice goes
    rw [he]
    refine ⟨fun _ _ hall => ?_, fun _ => ?_⟩
    · have hmem : q[i] ∈ q.drop (q.length - (noticeReserved + 1)) :=
        List.mem_drop_iff_getElem.2 ⟨i - (q.length - (noticeReserved + 1)), by omega, by
          congr 1
          omega⟩
      exact absurd (hall _ hmem) (by rw [htype]; exact Bool.false_ne_true)
    · have hkeep := notices_eraseIdx hi htype
      exact ⟨fun hq => hkeep ▸ hq, hkeep ▸ List.prefix_refl _⟩
  · -- three notices go
    have hnum : q.length - (q.length - (q.length - noticeReserved) + 1) / 2 =
        (q.length - (noticeReserved + 1)) + 3 := by
      omega
    rw [he, popTail_eq_take, hnum]
    have hold : ∀ k ≤ noticeReserved + 1,
        (notices (q.take (q.length - (noticeReserved + 1) + k))).length =
          (notices (q.take (q.length - (noticeReserved + 1)))).length + k := by
      intro k hk
      rw [List.take_add, notices, List.filter_append, List.length_append]
      congr 1
      refine (length_notices_of_all fun m hm => hall m (List.mem_of_mem_take hm)).trans ?_
      rw [List.length_take, List.length_drop]
      omega
    have hthree := hold 3 (by decide)
    have hsix := hold (noticeReserved + 1) le_rfl
    rw [show q.length - (noticeReserved + 1) + (noticeReserved + 1) = q.length by omega,
      List.take_length] at hsix
    constructor
    · intro hres _ _
      have henough := hres.enough (by omega)
      omega
    · intro hspared
      have hnew := hspared (Nat.not_le.1 hlong) hall
      refine ⟨fun _ => ?_, (List.take_prefix _ q).filter _⟩
      omega

/-- **When a message comes in.** -/
theorem reserved_iff (s : Option Conf) (ps : List Packet) (m : Msg) :
    Reserved (m :: (after s ps).msgQueue) (after s (ps ++ [.msg m])).msgQueue ↔
      Spared (m :: (after s ps).msgQueue) := by
  rw [msgQueue_after_msg]
  exact reserved_trim_iff (Nat.succ_le_succ (length_msgQueue_le s ps))

/-- A message of the type. -/
def message (no : ℕ) (type : Option ℕ) :
    Msg := ⟨{ bid := no, content := "", color := 0, type := type }, no⟩

/-- Six notices and four other messages. -/
def crowd : List Packet :=
  [1, 2, 3, 4, 5, 6].map (fun no => .msg (message no (some 1))) ++
    [7, 8, 9, 10].map fun no => .msg (message no (some 2))

/-- **Three of six notices are lost** when a message without a type comes in. -/
theorem notices_lost : ¬ Reserved (message 11 none :: (after none crowd).msgQueue)
    (after none (crowd ++ [.msg (message 11 none)])).msgQueue := by
  have hq : (after none crowd).msgQueue = [10, 9, 8, 7].map (fun no => message no (some 2)) ++
      [6, 5, 4, 3, 2, 1].map fun no => message no (some 1) := by rfl
  rw [msgQueue_after_msg, hq, reserved_trim_iff (by decide)]
  intro hspared
  exact absurd (hspared (by decide) (by decide)) (by decide)

end Halieutics.Broadcast
