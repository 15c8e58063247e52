/-
**The notices of an app: `lualib/module/broadcast.lua`.**

Every service that uses the module has its own copy of its locals: a counter for the messages that
it publishes itself, and a queue of the messages that have come in on the channel, from whatever
service, newest first.  A client asks for what is new by the `bid` of the newest message it has:
`M.pull` walks the queue up to a message with that `bid`, and if there is nothing above it the
request waits for the next message.

Main definitions:

* `Halieutics.Broadcast.Msg` — a message;
* `Halieutics.Broadcast.State` — the locals of the module in one service;
* `Halieutics.Broadcast.State.dispatch`, `Halieutics.Broadcast.State.dispatchRem` — a message or a
  removal comes in, and `trim` is the loop that shortens the queue;
* `Halieutics.Broadcast.State.pull` — **`M.pull`**;
* `Halieutics.Broadcast.State.publish` — `M.notice`, `M.noticeitem`, `M.smallhorn` and `M.remove`.

Main results:

* `Halieutics.Broadcast.trim_sublist`, `Halieutics.Broadcast.length_trim_le` — the loop only takes
  messages away, and it ends with at most `maxQueueSize` of them;
* `Halieutics.Broadcast.mem_fresh_iff` — **what a walk of the queue finds**: exactly the messages
  above a place in it, if that place is the first one with the `bid`.
-/

import Mathlib

set_option relaxedAutoImplicit false
set_option autoImplicit false

namespace Halieutics.Broadcast

/-! ### Messages -/

/-- What `channel:publish` sends. -/
structure Body where
  bid : ℕ
  id : Option ℕ := none
  content : String
  color : ℕ
  time : Option ℕ := none
  type : Option ℕ := none
deriving DecidableEq, Repr

/-- A message on the channel.  The channel takes one message after the other and passes them on in
that order; `no` is the place of the message in that order, which no service reads. -/
structure Msg extends Body where
  no : ℕ
deriving DecidableEq, Repr

/-- What a request for notices is answered. -/
structure Reply where
  lastid : ℕ
  items : List Msg
deriving DecidableEq, Repr

/-- What comes in on the channel. -/
inductive Packet where
  | msg (m : Msg)
  | rem (id : ℕ)
deriving DecidableEq, Repr

/-- An entry of `wait_response`. -/
inductive Wait where
  | wait
  | message (r : Reply)
deriving DecidableEq, Repr

structure Style where
  sign : String
  color : ℕ
deriving DecidableEq, Repr

/-- The configuration that `M.init` is given. -/
structure Conf where
  system : Option Style := none
  smallhorn : Option Style := none
deriving DecidableEq, Repr

/-- A notice as the configuration file has it. -/
structure Item where
  id : Option ℕ := none
  content : String
  color : Option ℕ := none
  time : Option ℕ := none
  type : Option ℕ := none
  expire : Option ℕ := none
deriving DecidableEq, Repr

/-- The locals of the module in one service.  `coroutines` counts the requests that have waited:
each waits in a coroutine of its own.  (A coroutine that is used again overwrites its old entry in
`wait_response` before it waits.) -/
structure State where
  channel : Bool := false
  subscribed : Bool := false
  msgQueue : List Msg := []
  waitResponse : ℕ → Option Wait := fun _ => none
  broadcastId : ℕ := 0
  conf : Option Conf := none
  coroutines : ℕ := 0

def maxQueueSize : ℕ := 10

def noticeReserved : ℕ := 5

/-! ### The queue -/

/-- `while j < #msg_queue do tbl_remove(msg_queue); j = j + 1 end`: the bound moves towards the end
of the queue while the end moves towards the bound. -/
def popTail (q : List Msg) (j : ℕ) : List Msg :=
  if j < q.length then popTail q.dropLast (j + 1) else q
termination_by q.length - j

/-- The `for` loop that makes room, with `i` messages left to look at and `n` notices seen: the
oldest message that is not a notice goes, unless more than `noticeReserved` notices are older. -/
def evictFrom (q : List Msg) (n : ℕ) : ℕ → List Msg
  | 0 => q
  | i + 1 =>
      if (q[i]?.bind fun m => m.type) = some 1 then
        if n + 1 > noticeReserved then popTail q (i + 1) else evictFrom q (n + 1) i
      else q.eraseIdx i

/-- `while #msg_queue > MAX_QUEUE_SIZE`. -/
def trimLoop : ℕ → List Msg → List Msg
  | 0, q => q
  | k + 1, q => if q.length > maxQueueSize then trimLoop k (evictFrom q 0 q.length) else q

/-- A pass of the loop takes a message away, so that there are no more passes than messages. -/
def trim (q : List Msg) : List Msg := trimLoop q.length q

/-- The messages above the first one with the `bid`. -/
def fresh (bid : ℕ) (q : List Msg) : List Msg := q.takeWhile fun m => m.bid ≠ bid

/-! ### The functions of the module -/

/-- **`M.init`**, when the app has a channel. -/
def State.init (m : State) (s : Option Conf) : State :=
  { m with channel := true, subscribed := true, conf := s }

/-- `M.close`. -/
def State.close (m : State) : State := { m with subscribed := false }

/-- **A message comes in**: every request that waits is answered with it. -/
def State.dispatch (m : State) (msg : Msg) : State :=
  { m with
    msgQueue := trim (msg :: m.msgQueue)
    waitResponse := fun co =>
      if m.waitResponse co = some .wait then some (.message ⟨msg.bid, [msg]⟩)
      else m.waitResponse co }

/-- **A removal comes in**: the oldest message with the `id` goes. -/
def State.dispatchRem (m : State) (id : ℕ) : State :=
  { m with msgQueue := (m.msgQueue.reverse.eraseP fun msg => msg.id = some id).reverse }

/-- A packet of the channel; it is dropped after `M.close`. -/
def State.receive (m : State) (p : Packet) : State :=
  if m.subscribed then
    match p with
    | .msg msg => m.dispatch msg
    | .rem id => m.dispatchRem id
  else m

/-- How `M.pull` goes on: it returns nothing, returns a reply, or waits in a coroutine. -/
inductive Pulled where
  | nil
  | reply (r : Reply)
  | wait (co : ℕ)

/-- **`M.pull`**. -/
def State.pull (m : State) (bid : ℕ) : State × Pulled :=
  if m.channel then
    match fresh bid m.msgQueue with
    | [] =>
        let co := m.coroutines
        ({ m with
          waitResponse := Function.update m.waitResponse co (some .wait)
          coroutines := co + 1 }, .wait co)
    | msg :: q => (m, .reply ⟨msg.bid, msg :: q⟩)
  else (m, .nil)

/-- `S.system.color`. -/
def State.systemColor (m : State) : Option ℕ := (m.conf.bind Conf.system).map Style.color

/-- **`M.notice`**; there is no message if the service has no channel, or if `S` lacks the colour
and the function raises. -/
def State.notice (m : State) (text : String) : State × Option Body :=
  if m.channel then
    let bid := m.broadcastId + 1
    ({ m with broadcastId := bid }, m.systemColor.map fun color =>
      { bid := bid, content := text, color := color, time := some 10, type := some 2 })
  else (m, none)

/-- **`M.noticeitem`** at the time `now`. -/
def State.noticeitem (m : State) (item : Item) (now : ℕ) : State × Option Body :=
  if m.channel then
    if item.expire.any fun expire => now > expire then (m, none)
    else
      let bid := m.broadcastId + 1
      ({ m with broadcastId := bid }, (item.color.or m.systemColor).map fun color =>
        { bid := bid, id := item.id, content := item.content, color := color,
          time := some (item.time.getD 10), type := some (item.type.getD 1) })
  else (m, none)

/-- **`M.smallhorn`**. -/
def State.smallhorn (m : State) (text : String) : State × Option Body :=
  if m.channel then
    let bid := m.broadcastId + 1
    ({ m with broadcastId := bid }, (m.conf.bind Conf.smallhorn).map fun horn =>
      { bid := bid, content := "［" ++ horn.sign ++ "］" ++ text, color := horn.color })
  else (m, none)

/-- A call of one of the functions that publish. -/
inductive Pub where
  | notice (text : String)
  | noticeitem (item : Item) (now : ℕ)
  | smallhorn (text : String)
  | remove (id : ℕ)

/-- **A publication**, and what it puts on the channel as its message number `no`. -/
def State.publish (m : State) (no : ℕ) : Pub → State × Option Packet
  | .notice text => ((m.notice text).1, (m.notice text).2.map fun b => .msg ⟨b, no⟩)
  | .noticeitem item now =>
      ((m.noticeitem item now).1, (m.noticeitem item now).2.map fun b => .msg ⟨b, no⟩)
  | .smallhorn text => ((m.smallhorn text).1, (m.smallhorn text).2.map fun b => .msg ⟨b, no⟩)
  | .remove id => (m, if m.channel then some (.rem id) else none)

/-! ### Making room -/

theorem popTail_sublist (q : List Msg) (j : ℕ) : (popTail q j).Sublist q := by
  fun_induction popTail q j with
  | case1 q j _ ih => exact ih.trans (List.dropLast_sublist q)
  | case2 q j _ => exact List.Sublist.refl q

theorem length_popTail_lt {q : List Msg} {j : ℕ} (h : j < q.length) :
    (popTail q j).length < q.length := by
  rw [popTail, if_pos h]
  have hle := (popTail_sublist q.dropLast (j + 1)).length_le
  rw [List.length_dropLast] at hle
  omega

theorem evictFrom_sublist (q : List Msg) (n i : ℕ) : (evictFrom q n i).Sublist q := by
  induction i generalizing n with
  | zero => exact List.Sublist.refl q
  | succ i ih =>
      unfold evictFrom
      split
      · split
        · exact popTail_sublist q (i + 1)
        · exact ih (n + 1)
      · exact List.eraseIdx_sublist q i

/-- A pass over a queue that is too long takes a message away: the walk cannot reach the front,
since the messages behind it are at most `noticeReserved` notices. -/
theorem length_evictFrom_lt {q : List Msg} (h : q.length > maxQueueSize) {n i : ℕ}
    (hn : n ≤ noticeReserved) (hi : n + i = q.length) : (evictFrom q n i).length < q.length := by
  induction i generalizing n with
  | zero =>
      unfold maxQueueSize at h
      unfold noticeReserved at hn
      omega
  | succ i ih =>
      unfold evictFrom
      split
      · split
        · rename_i hres
          refine length_popTail_lt ?_
          unfold noticeReserved at hres
          omega
        · rename_i hres
          exact ih (Nat.le_of_not_gt hres) (by omega)
      · rw [List.length_eraseIdx_of_lt (by omega)]
        omega

theorem trimLoop_sublist (k : ℕ) (q : List Msg) : (trimLoop k q).Sublist q := by
  induction k generalizing q with
  | zero => exact List.Sublist.refl q
  | succ k ih =>
      unfold trimLoop
      split
      · exact (ih _).trans (evictFrom_sublist q 0 q.length)
      · exact List.Sublist.refl q

theorem trim_sublist (q : List Msg) : (trim q).Sublist q := trimLoop_sublist _ q

/-- **The loop ends** with at most `maxQueueSize` messages. -/
theorem length_trim_le (q : List Msg) : (trim q).length ≤ maxQueueSize := by
  have hloop : ∀ (k : ℕ) (q : List Msg), q.length ≤ k → (trimLoop k q).length ≤ maxQueueSize := by
    intro k
    induction k with
    | zero =>
        intro q hq
        exact le_trans hq (Nat.zero_le _)
    | succ k ih =>
        intro q hq
        unfold trimLoop
        split
        · rename_i hlong
          have hlt := length_evictFrom_lt (n := 0) hlong (Nat.zero_le _) (Nat.zero_add _)
          exact ih _ (by omega)
        · rename_i hshort
          exact Nat.le_of_not_gt hshort
  exact hloop _ q (Nat.le_refl _)

theorem sublist_dispatchRem (m : State) (id : ℕ) :
    (m.dispatchRem id).msgQueue.Sublist m.msgQueue := by
  have h := (List.eraseP_sublist (p := fun msg : Msg => msg.id = some id) (l := m.msgQueue.reverse))
  simpa [State.dispatchRem] using h.reverse

/-! ### Walking the queue -/

/-- Newest first. -/
def Newest (q : List Msg) : Prop := q.Pairwise fun m m' => m'.no < m.no

/-- **The client's place in the queue**: what is newer than its newest message does not carry the
`bid` of that message, and the first message that is not newer does. -/
structure Finds (q : List Msg) (bid mark : ℕ) : Prop where
  newer : ∀ m ∈ q, mark < m.no → m.bid ≠ bid
  place : ∀ m, q.find? (fun m => m.no ≤ mark) = some m → m.bid = bid

theorem fresh_cons_self {bid : ℕ} {m : Msg} (h : m.bid = bid) (q : List Msg) :
    fresh bid (m :: q) = [] := by
  simp [fresh, h]

theorem fresh_cons_of_ne {bid : ℕ} {m : Msg} (h : m.bid ≠ bid) (q : List Msg) :
    fresh bid (m :: q) = m :: fresh bid q := by
  simp [fresh, h]

theorem fresh_sublist (bid : ℕ) (q : List Msg) : (fresh bid q).Sublist q := List.takeWhile_sublist _

/-- **A walk of the queue finds exactly the messages above a place** if and only if the place is the
first one with the `bid`. -/
theorem mem_fresh_iff {q : List Msg} (h : Newest q) (bid mark : ℕ) :
    Finds q bid mark ↔ ∀ m ∈ q, m ∈ fresh bid q ↔ mark < m.no := by
  induction q with
  | nil => exact ⟨fun _ m hm => absurd hm List.not_mem_nil, fun _ => ⟨nofun, nofun⟩⟩
  | cons m q ih =>
      obtain ⟨hm, hq⟩ := List.pairwise_cons.1 h
      by_cases hno : mark < m.no
      · by_cases hbid : m.bid = bid
        · -- the walk stops above the place
          refine ⟨fun hf => absurd hbid (hf.newer m List.mem_cons_self hno), fun hall => ?_⟩
          have := (hall m List.mem_cons_self).2 hno
          rw [fresh_cons_self hbid] at this
          exact absurd this List.not_mem_nil
        · rw [fresh_cons_of_ne hbid]
          have hfind : (m :: q).find? (fun m => m.no ≤ mark) = q.find? fun m => m.no ≤ mark :=
            List.find?_cons_of_neg (by simpa using hno)
          have hne : ∀ m' ∈ q, m' ≠ m := fun m' hm' heq => by
            have := hm m' hm'
            rw [heq] at this
            exact absurd this (Nat.lt_irrefl _)
          constructor
          · intro hf m' hm'
            rcases List.mem_cons.1 hm' with rfl | hm'
            · exact ⟨fun _ => hno, fun _ => List.mem_cons_self⟩
            · have hq' : Finds q bid mark :=
                ⟨fun m hm => hf.newer m (List.mem_cons_of_mem _ hm), fun m hm =>
                  hf.place m (hfind.trans hm)⟩
              rw [List.mem_cons, or_iff_right (hne m' hm')]
              exact (ih hq).1 hq' m' hm'
          · intro hall
            have hq' : Finds q bid mark := (ih hq).2 fun m' hm' => by
              have := hall m' (List.mem_cons_of_mem _ hm')
              rwa [List.mem_cons, or_iff_right (hne m' hm')] at this
            refine ⟨fun m' hm' hlt => ?_, fun m' hm' => hq'.place m' (hfind.symm.trans hm')⟩
            rcases List.mem_cons.1 hm' with rfl | hm'
            · exact hbid
            · exact hq'.newer m' hm' hlt
      · have hfind : (m :: q).find? (fun m => m.no ≤ mark) = some m :=
          List.find?_cons_of_pos (by simpa using hno)
        have hold : ∀ m' ∈ m :: q, ¬ mark < m'.no := by
          intro m' hm'
          rcases List.mem_cons.1 hm' with rfl | hm'
          · exact hno
          · have := hm m' hm'
            omega
        by_cases hbid : m.bid = bid
        · rw [fresh_cons_self hbid]
          refine ⟨fun _ m' hm' => ⟨fun hmem => absurd hmem List.not_mem_nil, fun hlt =>
            absurd hlt (hold m' hm')⟩, fun _ => ⟨fun m' hm' hlt => absurd hlt (hold m' hm'), ?_⟩⟩
          intro m' hm'
          obtain rfl := Option.some_inj.1 (hfind.symm.trans hm')
          exact hbid
        · -- the walk goes on below the place
          refine ⟨fun hf => absurd (hf.place m hfind) hbid, fun hall => ?_⟩
          rw [fresh_cons_of_ne hbid] at hall
          exact absurd ((hall m List.mem_cons_self).1 List.mem_cons_self) hno

end Halieutics.Broadcast
