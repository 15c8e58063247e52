/-
**Message queues of the services: `skynet-src/skynet_mq.c` and `skynet-src/skynet_server.c`.**

Every service has a queue of messages.  A queue with messages is in the global queue, from which the
worker threads take it: a worker handles some messages of the service and puts the queue back.  The
queue of a service that has ended is dropped by the worker that finds no service for it; it sends an
error for each message.  Whether a queue is in the global queue, or with a worker, is written in its
flag `in_global`, and references to the service are counted.

What a thread does between two locks is one step, and the steps of the threads mix in any order.  A
step that breaks an assertion of the source, touches memory that has been freed, or makes the size
of a ring no `int` is a fault.

Main definitions:

* `Halieutics.SkynetMq.mqPush`, `Halieutics.SkynetMq.mqPop` — **the code** of a queue;
* `Halieutics.SkynetMq.Pc`, `Halieutics.SkynetMq.step` — **where a thread is, and its next step**;
* `Halieutics.SkynetMq.machine` — the threads together.

Main results:

* `Halieutics.SkynetMq.toList_enqueue` — the ring of a queue is a list;
* `Halieutics.SkynetMq.mqPop_cases` — what is taken from a queue.
-/

import Halieutics.Coroutine
import Halieutics.RingQueue

set_option relaxedAutoImplicit false
set_option autoImplicit false

namespace Halieutics.SkynetMq

open Coroutine RingQueue

/-! ### Queues -/

/-- `struct skynet_message`; the type is in the upper bits of `sz`. -/
structure Message (α : Type) where
  source : ℕ
  session : ℤ := 0
  type : ℕ
  data : Option α := none

instance (α : Type) : Inhabited (Message α) := ⟨{ source := 0, type := 0 }⟩

/-- `struct message_queue`. -/
structure Mq (α : Type) where
  ring : Queue (Message α)
  release : Bool := false
  inGlobal : Bool := true
  overload : ℕ := 0
  overloadThreshold : ℕ := 1024

variable {α : Type}

/-- **`skynet_mq_create`**. -/
def mqCreate : Mq α := { ring := .init 64 (by decide) }

/-- **`skynet_mq_length`**. -/
def mqLength (q : Mq α) : ℕ :=
  if q.ring.head ≤ q.ring.tail then q.ring.tail - q.ring.head
    else q.ring.tail + q.ring.cap - q.ring.head

/-- The loop of `skynet_mq_pop` over the threshold. -/
def raised (length : ℕ) : ℕ → ℕ → ℕ → ℕ × ℕ
  | 0, overload, threshold => (overload, threshold)
  | fuel + 1, overload, threshold =>
      if threshold < length then raised length fuel length (threshold * 2)
        else (overload, threshold)

/-- **`skynet_mq_pop`**. -/
def mqPop (q : Mq α) : Option (Message α) × Mq α :=
  match q.ring.pop with
  | some (message, ring) =>
      let length := if ring.tail < ring.head then ring.tail + ring.cap - ring.head
        else ring.tail - ring.head
      let x := raised length length q.overload q.overloadThreshold
      (some message, { q with ring := ring, overload := x.1, overloadThreshold := x.2 })
  | none => (none, { q with overloadThreshold := 1024, inGlobal := false })

/-- **`expand_queue`**. -/
def expandQueue (ring : Queue (Message α)) : Queue (Message α) where
  cap := ring.cap * 2
  head := 0
  tail := ring.cap
  buffer := fun i => ring.buffer ((ring.head + i) % ring.cap)
  head_lt := by have h := ring.head_lt; omega
  tail_lt := by have h := ring.head_lt; omega

/-- The message is written, and the ring grows when it is full. -/
def enqueue (ring : Queue (Message α)) (message : Message α) : Queue (Message α) :=
  let ring := { ring with
    buffer := Function.update ring.buffer ring.tail message
    tail := ring.next ring.tail
    tail_lt := ring.next_lt ring.tail }
  if ring.head = ring.tail then expandQueue ring else ring

/-- **`skynet_mq_push`**: the queue, and whether it goes to the global queue. -/
def mqPush (q : Mq α) (message : Message α) : Mq α × Bool :=
  let q := { q with ring := enqueue q.ring message }
  if q.inGlobal then (q, false) else ({ q with inGlobal := true }, true)

/-! ### Services -/

/-- A service: its context, its queue, and what has been pushed to the queue, handled, and dropped.
`registered` says that its handle is known. -/
structure Service (α : Type) where
  registered : Bool := false
  ref : ℕ := 0
  init : Bool := false
  created : Bool := false
  queue : Option (Mq α) := none
  pushed : List (Message α) := []
  handled : List (Message α) := []
  dropped : List (Message α) := []

/-- The messages in the queue. -/
def Service.pending (x : Service α) : List (Message α) := x.queue.elim [] fun q => q.ring.toList

/-- What the threads share.  `fault` says that an assertion has failed, freed memory has been
touched, or an `int` has overflowed. -/
structure Sys (α : Type) where
  services : ℕ → Service α := fun _ => {}
  globalQueue : List ℕ := []
  fault : Bool := false

/-- A service has changed. -/
def Sys.set (s : Sys α) (h : ℕ) (x : Service α) :
    Sys α := { s with services := Function.update s.services h x }

/-- **`skynet_globalmq_push`**.  A queue that is there already would be lost, or make the list a
cycle. -/
def globalmqPush (s : Sys α) (h : ℕ) : Sys α :=
  if h ∈ s.globalQueue then { s with fault := true }
    else { s with globalQueue := s.globalQueue ++ [h] }

/-! ### Threads -/

/-- What a thread does after a call. -/
inductive Then where
  | stop
  | take
  | grab (h : ℕ)
  | drop (h : ℕ)
  | opened (h : ℕ)
  | failed (h : ℕ)
  | retired (h : ℕ)
deriving DecidableEq

/-- **Where a thread is.** -/
inductive Pc (α : Type) where
  /-- `skynet_globalmq_pop`, of a worker. -/
  | take
  /-- `skynet_context_message_dispatch`, with a queue. -/
  | grab (h : ℕ)
  /-- Its loop. -/
  | loop (h i n : ℕ)
  /-- Its call of `skynet_mq_length`. -/
  | length (h : ℕ) (m : Message α)
  /-- The service handles a message. -/
  | dispatch (h i n : ℕ) (m : Message α)
  /-- The end of the loop, when there is another queue. -/
  | back (h next : ℕ)
  /-- `skynet_mq_release`. -/
  | release (h : ℕ)
  /-- The loop of `_drop_queue`. -/
  | drop (h : ℕ)
  /-- `skynet_context_push`. -/
  | push (h : ℕ) (m : Message α) (k : Then)
  /-- `skynet_mq_push`. -/
  | enqueue (h : ℕ) (m : Message α) (k : Then)
  /-- `skynet_context_release`. -/
  | put (h : ℕ) (k : Then)
  /-- `delete_context`, where it calls `skynet_mq_mark_release`. -/
  | delete (h : ℕ) (k : Then)
  /-- `skynet_handle_retire`. -/
  | retire (h : ℕ) (k : Then)
  /-- `skynet_context_new`, where it calls `skynet_mq_create`. -/
  | create (h : ℕ)
  /-- The service initialises itself. -/
  | init (h : ℕ)
  /-- `ctx->init` is set. -/
  | setInit (h : ℕ)
  /-- The queue of a new service goes to the global queue. -/
  | open (h : ℕ)

/-- A thread: a worker with its weight, or one that calls a function. -/
structure Thread (α : Type) where
  weight : Option ℤ := none
  pc : Pc α

/-- What follows a call, when the context is still there. -/
def Then.kept : Then → Option (Pc α)
  | .stop => none
  | .take => some .take
  | .grab h => some (.grab h)
  | .drop h => some (.drop h)
  | .opened h => some (.setInit h)
  | .failed h => some (.retire h (.retired h))
  | .retired h => some (.release h)

/-- What follows a call, when the context has been deleted. -/
def Then.gone : Then → Option (Pc α)
  | .opened h => some (.open h)
  | k => k.kept

/-- After `skynet_mq_release` a worker takes the next queue, and a launch has failed. -/
def afterRelease (weight : Option ℤ) : Option (Pc α) := weight.map fun _ => .take

/-- A step with a queue; there is a fault when it has been freed. -/
def withQueue (s : Sys α) (h : ℕ) (f : Mq α → Sys α × Option (Pc α)) : Sys α × Option (Pc α) :=
  match (s.services h).queue with
  | none => ({ s with fault := true }, none)
  | some q => f q

/-- **The step of a thread**: what is shared afterwards, and where the thread is.  `ok` is the
result of the function that initialises a service. -/
def step (s : Sys α) (weight : Option ℤ) (ok : Bool) : Pc α → Sys α × Option (Pc α)
  | .take =>
      match s.globalQueue with
      | [] => (s, some .take)
      | h :: rest => ({ s with globalQueue := rest }, some (.grab h))
  | .grab h =>
      let x := s.services h
      if x.registered then (s.set h { x with ref := x.ref + 1 }, some (.loop h 0 1))
        else (s, some (.release h))
  | .loop h i n =>
      if i < n then
        withQueue s h fun q =>
          let x := s.services h
          match mqPop q with
          | (none, q) => (s.set h { x with queue := some q }, some (.put h .take))
          | (some m, q) =>
              (s.set h { x with queue := some q, handled := x.handled ++ [m] },
                some (if i = 0 ∧ 0 ≤ weight.getD (-1) then .length h m else .dispatch h i n m))
      else
        match s.globalQueue with
        | [] => (s, some (.put h (.grab h)))
        | next :: rest => ({ s with globalQueue := rest }, some (.back h next))
  | .length h m =>
      withQueue s h fun q => (s, some (.dispatch h 0 (mqLength q >>> (weight.getD 0).toNat) m))
  | .dispatch h i n _ =>
      -- what the service does meanwhile are calls of their own
      withQueue s h fun q =>
        let x := s.services h
        if x.init then
          (s.set h { x with queue := some { q with overload := 0 } }, some (.loop h (i + 1) n))
        else ({ s with fault := true }, none)
  | .back h next => (globalmqPush s h, some (.put h (.grab next)))
  | .release h =>
      withQueue s h fun q => if q.release then (s, some (.drop h))
        else (globalmqPush s h, afterRelease weight)
  | .drop h =>
      withQueue s h fun q =>
        let x := s.services h
        match mqPop q with
        | (some m, q) =>
            (s.set h { x with queue := some q, dropped := x.dropped ++ [m] },
              some (if m.source = 0 then .drop h
              else .push m.source { source := h, type := 7 } (.drop h)))
        | (none, _) =>
            if h ∈ s.globalQueue then ({ s with fault := true }, none)
            else (s.set h { x with queue := none }, afterRelease weight)
  | .push h m k =>
      let x := s.services h
      if x.registered then (s.set h { x with ref := x.ref + 1 }, some (.enqueue h m k))
        else (s, k.kept)
  | .enqueue h m k =>
      withQueue s h fun q =>
        let x := s.services h
        let t := s.set h { x with queue := some (mqPush q m).1, pushed := x.pushed ++ [m] }
        -- `q->cap *= 2` of a ring with `2 ^ 30` slots overflows
        if (mqPush q m).1.ring.cap < 2 ^ 31 then
          (if (mqPush q m).2 then globalmqPush t h else t, some (.put h k))
        else ({ s with fault := true }, none)
  | .put h k =>
      let x := s.services h
      if x.ref = 0 then ({ s with fault := true }, none)
      else (s.set h { x with ref := x.ref - 1 }, if x.ref = 1 then some (.delete h k) else k.kept)
  | .delete h k =>
      withQueue s h fun q =>
        let x := s.services h
        if q.release then ({ s with fault := true }, none)
        else
          let t := s.set h { x with queue := some { q with release := true } }
          (if q.inGlobal then t else globalmqPush t h, k.gone)
  | .retire h k =>
      let x := s.services h
      if x.registered then (s.set h { x with registered := false }, some (.put h k))
        else (s, k.gone)
  | .create h =>
      let x := s.services h
      (s.set h { x with queue := some mqCreate, created := true }, some (.init h))
  | .init h => (s, some (.put h (if ok then .opened h else .failed h)))
  | .setInit h =>
      let x := s.services h
      (s.set h { x with init := true }, some (.open h))
  | .open h => (globalmqPush s h, none)

/-! ### The machine -/

/-- What may be called at any time. -/
inductive Request (α : Type) where
  /-- `skynet_context_push`. -/
  | push (h : ℕ) (m : Message α)
  /-- `skynet_handle_retire`. -/
  | retire (h : ℕ)
  /-- `skynet_context_new`, for a handle that was not used before.  `skynet_handle_register` and the
  assignment of `ctx->handle` behind it are its first step: the table of handles does not grow
  between them. -/
  | create (h : ℕ)

/-- A call begins. -/
def call (s : Sys α) : Request α → Sys α × List (Thread α)
  | .push h m => (s, [{ pc := .push h m .stop }])
  | .retire h => (s, [{ pc := .retire h .stop }])
  | .create h =>
      let x := s.services h
      if x.created = true ∨ 0 < x.ref then (s, [])
      else (s.set h { x with registered := true, ref := 2 }, [{ pc := .create h }])

/-- **The threads together.** -/
def machine (α : Type) : Machine (Sys α) (Thread α) (Request α) Bool where
  call s r _ := call s r
  resume s t ok :=
    let out := step s t.weight ok t.pc
    some (out.1, out.2.toList.map fun pc => { t with pc := pc })

/-- The handle of a message's source, when there is one, is that of a service with a queue. -/
def Known (s : Sys α) (m : Message α) : Prop := m.source = 0 ∨ (s.services m.source).created = true

/-- The queue that a thread is about to push to, after the push. -/
def Pc.filled (s : Sys α) : Pc α → Option (Mq α)
  | .enqueue h m _ => (s.services h).queue.map fun q => (mqPush q m).1
  | _ => none

/-- **What the callers know**: only handles of services that have got their queue.  And no ring
becomes so large that its size is no `int`. -/
def Sent (s : Pool (Sys α) (Thread α)) : Event (Request α) Bool → Prop
  | .call (.push h m) _ => (s.shared.services h).created = true ∧ Known s.shared m
  | .call (.retire h) _ => (s.shared.services h).created = true
  | .call (.create _) _ => True
  | .resume k _ => ∀ t ∈ s.cos[k]?, ∀ q ∈ t.pc.filled s.shared, q.ring.cap < 2 ^ 31

instance (s : Sys α) (m : Message α) : Decidable (Known s m) := inferInstanceAs (Decidable (_ ∨ _))

instance (s : Pool (Sys α) (Thread α)) : ∀ e, Decidable (Sent s e)
  | .call (.push _ _) _ => inferInstanceAs (Decidable (_ ∧ _))
  | .call (.retire _) _ => inferInstanceAs (Decidable (_ = true))
  | .call (.create _) _ => inferInstanceAs (Decidable True)
  | .resume k _ =>
      inferInstanceAs (Decidable (∀ t ∈ s.cos[k]?, ∀ q ∈ t.pc.filled s.shared, q.ring.cap < 2 ^ 31))

/-- The workers, at the start. -/
def start (weights : List ℤ) : Pool (Sys α) (Thread α) :=
  { shared := {}, cos := weights.map fun w => { weight := some w, pc := .take } }

/-! ### The ring -/

/-- The elements are those of the slots in use. -/
theorem toList_congr {q q' : Queue (Message α)} (hcap : q'.cap = q.cap) (hhead : q'.head = q.head)
    (htail : q'.tail = q.tail)
    (h : ∀ i < q.size, q'.buffer ((q.head + i) % q.cap) = q.buffer ((q.head + i) % q.cap)) :
    q'.toList = q.toList := by
  have hsize : q'.size = q.size := by
    rw [Queue.size, Queue.size, hcap, hhead, htail]
  unfold Queue.toList
  rw [hsize, hcap, hhead]
  exact List.map_congr_left fun i hi => h i (List.mem_range.1 hi)

/-- **A message is appended**, also when the ring grows. -/
theorem toList_enqueue (q : Queue (Message α)) (m : Message α) :
    (enqueue q m).toList = q.toList ++ [m] := by
  rw [← q.toList_push m]
  by_cases h : q.head = q.next q.tail
  · have hnew : enqueue q m = expandQueue { q with
        buffer := Function.update q.buffer q.tail m
        tail := q.next q.tail
        tail_lt := q.next_lt q.tail } := if_pos h
    have hold : q.push m = q.grow m := if_pos h
    rw [hnew, hold]
    have hfull := q.size_of_full h
    have hh := q.head_lt
    refine toList_congr rfl rfl rfl fun i hi => ?_
    have hi : i < q.cap := by
      have hsize : (q.grow m).size = q.cap := by
        change (if q.cap < 0 then _ else q.cap - 0) = q.cap
        rw [if_neg (Nat.not_lt_zero _), Nat.sub_zero]
      rwa [hsize] at hi
    have hslot : (0 + i) % (q.cap * 2) = i := by
      rw [Nat.zero_add, Nat.mod_eq_of_lt (by omega)]
    change Function.update q.buffer q.tail m ((q.head + (0 + i) % (q.cap * 2)) % q.cap) =
      Function.update (fun i => q.buffer ((q.head + i) % q.cap)) (q.cap - 1) m
      ((0 + i) % (q.cap * 2))
    rw [hslot]
    by_cases hlast : i = q.cap - 1
    · have htail : (q.head + i) % q.cap = q.tail := by
        rw [hlast, show q.cap - 1 = q.size by omega, q.head_add_size]
      rw [htail, hlast, Function.update_self, Function.update_self]
    · rw [Function.update_of_ne hlast, Function.update_of_ne (q.slot_ne_tail (by omega))]
  · have hnew : enqueue q m = { q with
        buffer := Function.update q.buffer q.tail m
        tail := q.next q.tail
        tail_lt := q.next_lt q.tail } := if_neg h
    have hold : q.push m = { q with
        tail := q.next q.tail
        buffer := Function.update q.buffer q.tail m
        tail_lt := q.next_lt q.tail } := if_neg h
    rw [hnew, hold]

/-- **What is taken from a queue**: the oldest message, or nothing, when there is none. -/
theorem mqPop_cases (q : Mq α) :
    (∃ m q', mqPop q = (some m, q') ∧ q.ring.toList = m :: q'.ring.toList ∧ q'.release = q.release ∧
      q'.inGlobal = q.inGlobal) ∨
    (∃ q', mqPop q = (none, q') ∧ q.ring.toList = [] ∧ q'.ring = q.ring ∧ q'.release = q.release ∧
      q'.inGlobal = false) := by
  rw [mqPop]
  cases hpop : q.ring.pop with
  | none => exact Or.inr ⟨_, rfl, q.ring.pop_eq_none_iff.1 hpop, rfl, rfl, rfl⟩
  | some x => exact Or.inl ⟨_, _, rfl, Queue.toList_of_pop hpop, rfl, rfl⟩

theorem mqPush_spec (q : Mq α) (m : Message α) : (mqPush q m).1.ring.toList = q.ring.toList ++ [m] ∧
    (mqPush q m).1.release = q.release ∧ (mqPush q m).1.inGlobal = true ∧
    (mqPush q m).2 = !q.inGlobal := by
  cases q with
  | mk ring release inGlobal overload threshold =>
      cases inGlobal with
      | false => exact ⟨toList_enqueue ring m, rfl, rfl, rfl⟩
      | true => exact ⟨toList_enqueue ring m, rfl, rfl, rfl⟩

theorem toList_mqCreate : (mqCreate : Mq α).ring.toList = [] := Queue.toList_init 64 (by decide)

end Halieutics.SkynetMq
