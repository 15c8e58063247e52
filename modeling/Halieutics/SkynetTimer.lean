/-
**The timer of the runtime: `skynet-src/skynet_timer.c`.**

`skynet_timeout` puts a node into a timing wheel, and the timer thread moves the wheel by one tick
for every hundredth of a second that has passed.  `T->time` and `node->expire` are 32-bit numbers
that wrap around, the lists of the wheel are found by masks and shifts of them, and while the timer
thread dispatches a list it does not hold the lock.

The wheel is the one of `Halieutics.TimingWheel` with 256 slots of one tick and four levels of 64.
The ghost variables of the machine count the ticks without wrapping and record which timers have
been added, each with its tick, and which events have been dispatched at which tick.

Main definitions:

* `Halieutics.SkynetTimer.Timer`, `Halieutics.SkynetTimer.addNode`,
  `Halieutics.SkynetTimer.timerShift`, `Halieutics.SkynetTimer.timerExecute` — **the code**;
* `Halieutics.SkynetTimer.Step` — the timer thread, between whose steps other threads add timers;
* `Halieutics.SkynetTimer.Kept` — the invariant.

Main results:

* `Halieutics.SkynetTimer.place_eq`, `Halieutics.SkynetTimer.timerShift_spec` — the code moves the
  wheel;
* `Halieutics.SkynetTimer.fires_on_time` — **every timer fires once, at its tick, and in order**.
-/

import Halieutics.TimingWheel
import Mathlib.Data.BitVec
import Mathlib.Logic.Relation
import Mathlib.Tactic.FinCases
import Mathlib.Tactic.IntervalCases

set_option relaxedAutoImplicit false
set_option autoImplicit false

namespace Halieutics.SkynetTimer

open TimingWheel

/-! ### The code -/

/-- `struct timer_event`. -/
structure Event where
  handle : BitVec 32
  session : ℤ
  deriving DecidableEq

/-- `struct timer_node`, with the event behind it. -/
structure Node where
  expire : BitVec 32
  event : Event
  deriving DecidableEq

/-- **`struct timer`**: the lists `near[idx]` and `t[i][idx]`, and the time. -/
structure Timer where
  near : ℕ → List Node := fun _ => []
  t : ℕ × ℕ → List Node := fun _ => []
  time : BitVec 32 := 0

/-- The loop of `add_node` over the levels. -/
def findLevel (time current mask : BitVec 32) (i : ℕ) : ℕ → ℕ
  | 0 => i
  | n + 1 =>
      if time ||| (mask - 1) = current ||| (mask - 1) then i
      else findLevel time current (mask <<< 6) (i + 1) n

/-- **`add_node`**. -/
def addNode (T : Timer) (node : Node) : Timer :=
  let time := node.expire
  if time ||| 255 = T.time ||| 255 then
    let idx := (time &&& 255).toNat
    { T with near := Function.update T.near idx (T.near idx ++ [node]) }
  else
    let i := findLevel time T.time (256 <<< 6) 0 3
    let idx := ((time >>> (8 + i * 6)) &&& 63).toNat
    { T with t := Function.update T.t (i, idx) (T.t (i, idx) ++ [node]) }

/-- **`timer_add`**. -/
def timerAdd (T : Timer) (event : Event) (time : ℤ) : Timer :=
  addNode T ⟨BitVec.ofInt 32 time + T.time, event⟩

/-- **`skynet_timeout`**, with the message that is pushed at once. -/
def skynetTimeout (T : Timer) (event : Event) (time : ℤ) : Timer × Option Event :=
  if time ≤ 0 then (T, some event) else (timerAdd T event time, none)

/-- **`move_list`**. -/
def moveList (T : Timer) (p : ℕ × ℕ) : Timer :=
  (T.t p).foldl addNode { T with t := Function.update T.t p [] }

/-- The loop of `timer_shift`, for at most `n` rounds. -/
def shiftLoop (T : Timer) (ct time mask : BitVec 32) (i : ℕ) : ℕ → Timer
  | 0 => T
  | n + 1 =>
      if ct &&& (mask - 1) = 0 then
        let idx := (time &&& 63).toNat
        if idx ≠ 0 then moveList T (i, idx)
        else shiftLoop T ct (time >>> 6) (mask <<< 6) (i + 1) n
      else T

/-- **`timer_shift`**.  A number that is not zero has a digit that is not, so the loop has no more
than four rounds. -/
def timerShift (T : Timer) : Timer :=
  let ct := T.time + 1
  let T := { T with time := ct }
  if ct = 0 then moveList T (3, 0) else shiftLoop T ct (ct >>> 8) 256 0 4

/-- **One round of the loop of `timer_execute`**: the list to dispatch, if there is one. -/
def timerExecute (T : Timer) : Timer × List Node :=
  let idx := (T.time &&& 255).toNat
  ({ T with near := Function.update T.near idx [] }, T.near idx)

/-! ### The timer thread -/

/-- Where the timer thread is: it does not hold the lock. -/
inductive Pc where
  | rest
  | first (current : List Node)
  | second (current : List Node)
  deriving DecidableEq

/-- **The timer**: `left` calls of `timer_update` are still to be made, and `ticks`, `added` and
`fired` are ghost variables. -/
structure Sys where
  T : Timer := {}
  pc : Pc := .rest
  left : ℕ := 0
  start : ℕ
  current : ℕ
  point : ℕ
  ticks : ℕ := 0
  added : List (ℕ × Event) := []
  fired : List (ℕ × Event) := []

/-- The second `timer_execute` of `timer_update`. -/
def executeSecond (s : Sys) : Sys :=
  match timerExecute s.T with
  | (_, []) => { s with pc := .rest }
  | (T, current) => { s with T := T, pc := .second current }

/-- The first one, and `timer_shift` behind it. -/
def executeFirst (s : Sys) : Sys :=
  match timerExecute s.T with
  | (_, []) => executeSecond { s with T := timerShift s.T, ticks := s.ticks + 1 }
  | (T, current) => { s with T := T, pc := .first current }

/-- `dispatch_list`. -/
def dispatchList (s : Sys) (current : List Node) : Sys :=
  { s with fired := s.fired ++ current.map fun node => (s.ticks, node.event) }

/-- **`skynet_updatetime`**, up to its loop. -/
def updatetime (s : Sys) (cp : ℕ) : Sys :=
  if cp < s.point then { s with point := cp }
  else if cp ≠ s.point then
    let diff := (cp - s.point) % 2 ^ 32
    { s with point := cp, current := s.current + diff, left := diff }
  else s

/-- **One step**: of the timer thread, up to the point where it gives the lock back, or of another
thread that calls `skynet_timeout`. -/
inductive Step (s : Sys) : Sys → Prop
  | updatetime (cp : ℕ) : s.pc = .rest → s.left = 0 → Step s (updatetime s cp)
  | update : s.pc = .rest → 0 < s.left → Step s (executeFirst { s with left := s.left - 1 })
  | first (current : List Node) : s.pc = .first current →
    Step s (executeFirst (dispatchList s current))
  | second (current : List Node) : s.pc = .second current →
    Step s (executeSecond (dispatchList s current))
  | timeout (event : Event) (time : ℤ) : time < 2 ^ 31 →
      Step s { s with
        T := (skynetTimeout s.T event time).1
        added := if 0 < time then s.added ++ [(s.ticks + time.toNat, event)] else s.added }

/-- `skynet_timer_init`. -/
def init (start point : ℕ) : Sys where
  start := start
  current := start
  point := point

/-- **The runs.** -/
abbrev Run (s s' : Sys) : Prop := Relation.ReflTransGen Step s s'

/-! ### Masks and shifts -/

section Masks

variable {x y : BitVec 32} {k : ℕ}

theorem toNat_and_mask (hk : k ≤ 32) (x : BitVec 32) :
    (x &&& BitVec.ofNat 32 (2 ^ k - 1)).toNat = x.toNat % 2 ^ k := by
  have hlt : 2 ^ k - 1 < 2 ^ 32 := by
    have := Nat.pow_le_pow_right (n := 2) (by decide) hk
    omega
  rw [BitVec.toNat_and, BitVec.toNat_ofNat, Nat.mod_eq_of_lt hlt, Nat.and_two_pow_sub_one_eq_mod]

/-- Setting the low bits leaves the quotient. -/
theorem or_mask_eq_iff (hk : k ≤ 32) :
    x ||| BitVec.ofNat 32 (2 ^ k - 1) = y ||| BitVec.ofNat 32 (2 ^ k - 1) ↔
    x.toNat / 2 ^ k = y.toNat / 2 ^ k := by
  have hlt : 2 ^ k - 1 < 2 ^ 32 := by
    have := Nat.pow_le_pow_right (n := 2) (by decide) hk
    omega
  rw [← BitVec.toNat_inj, BitVec.toNat_or, BitVec.toNat_or, BitVec.toNat_ofNat,
    Nat.mod_eq_of_lt hlt]
  constructor
  · intro h
    refine Nat.eq_of_testBit_eq fun i => ?_
    have hbit := congrArg (fun n => Nat.testBit n (i + k)) h
    simpa [Nat.testBit_or, Nat.testBit_two_pow_sub_one, Nat.testBit_div_two_pow] using hbit
  · intro h
    refine Nat.eq_of_testBit_eq fun i => ?_
    rw [Nat.testBit_or, Nat.testBit_or, Nat.testBit_two_pow_sub_one]
    by_cases hi : i < k
    · rw [decide_eq_true hi, Bool.or_true, Bool.or_true]
    · have hbit := congrArg (fun n => Nat.testBit n (i - k)) h
      have hik : i - k + k = i := by omega
      simp only [Nat.testBit_div_two_pow, hik] at hbit
      rw [hbit]

end Masks

/-! ### The wheel -/

/-- **The gears of the wheel**: 256 slots of one tick, and four levels of 64. -/
def gears : Gears where
  top := 4
  size i := if i = 0 then 1 else 2 ^ (2 + 6 * i)
  size_zero := if_pos rfl
  dvd i := by
    by_cases hi : i = 0
    · rw [if_pos hi]
      exact one_dvd _
    · rw [if_neg hi, if_neg (Nat.succ_ne_zero i)]
      exact Nat.pow_dvd_pow 2 (by omega)
  lt i := by
    by_cases hi : i = 0
    · rw [if_pos hi, if_neg (Nat.succ_ne_zero i)]
      exact Nat.one_lt_two_pow (by omega)
    · rw [if_neg hi, if_neg (Nat.succ_ne_zero i)]
      exact Nat.pow_lt_pow_right (by decide) (by omega)

/-- The lists, by level and slot. -/
def lists (T : Timer) : Wheel Node
  | (0, idx) => T.near idx
  | (i + 1, idx) => T.t (i, idx)

/-- Where `add_node` puts a node. -/
def place (time current : BitVec 32) : ℕ × ℕ :=
  if time ||| 255 = current ||| 255 then (0, (time &&& 255).toNat)
  else
    let i := findLevel time current (256 <<< 6) 0 3
    (i + 1, ((time >>> (8 + i * 6)) &&& 63).toNat)

section Wheel

variable {T : Timer} {E now : ℕ}

@[simp] theorem time_addNode (T : Timer) (node : Node) : (addNode T node).time = T.time := by
  unfold addNode
  dsimp only
  split <;> rfl

theorem lists_update_near (T : Timer) (idx : ℕ) (nodes : List Node) :
    lists { T with near := Function.update T.near idx nodes } = Function.update (lists T)
    (0, idx) nodes := by
  funext ⟨i, j⟩
  cases i with
  | zero =>
      by_cases hj : j = idx
      · subst hj
        rw [Function.update_self]
        exact Function.update_self ..
      · rw [Function.update_of_ne (by simpa using hj)]
        exact Function.update_of_ne hj ..
  | succ i => rw [Function.update_of_ne (by simp)]; rfl

theorem lists_update_t (T : Timer) (i idx : ℕ) (nodes : List Node) :
    lists { T with t := Function.update T.t (i, idx) nodes } = Function.update (lists T)
    (i + 1, idx) nodes := by
  funext ⟨i', j⟩
  cases i' with
  | zero => rw [Function.update_of_ne (by simp)]; rfl
  | succ i' =>
      by_cases hj : (i', j) = (i, idx)
      · obtain ⟨rfl, rfl⟩ := Prod.mk.inj hj
        rw [Function.update_self]
        exact Function.update_self ..
      · rw [Function.update_of_ne (by simpa using hj)]
        exact Function.update_of_ne hj ..

/-- **`add_node`** appends the node to one list. -/
theorem lists_addNode (T : Timer) (node : Node) : lists (addNode T node) =
    Function.update (lists T) (place node.expire T.time)
    (lists T (place node.expire T.time) ++ [node]) := by
  unfold addNode place
  dsimp only
  split
  · exact lists_update_near T _ _
  · exact lists_update_t T _ _ _

/-- In half the range of the numbers the turns of the wheel do not wrap. -/
theorem wrap_div {k : ℕ} (hk : k ∈ [8, 14, 20, 26]) (hle : now ≤ E) (hlt : E < now + 2 ^ 31) :
    (BitVec.ofNat 32 E).toNat / 2 ^ k = (BitVec.ofNat 32 now).toNat / 2 ^ k ↔
    E / 2 ^ k = now / 2 ^ k := by
  rw [BitVec.toNat_ofNat, BitVec.toNat_ofNat]
  fin_cases hk <;> omega

theorem size_succ (i : ℕ) : gears.size (i + 1) = 2 ^ (8 + 6 * i) := by
  change (if i + 1 = 0 then 1 else 2 ^ (2 + 6 * (i + 1))) = _
  rw [if_neg (Nat.succ_ne_zero i)]
  congr 1
  omega

theorem slots_zero : gears.slots 0 = 256 := rfl

theorem slots_succ (i : ℕ) : gears.slots (i + 1) = 64 := by
  rw [Gears.slots, size_succ, size_succ, Nat.pow_div (by omega) (by decide)]
  rw [show 8 + 6 * (i + 1) - (8 + 6 * i) = 6 by omega]

theorem findLevel_eq (time current : BitVec 32) : findLevel time current (256 <<< 6) 0 3 =
    if time.toNat / 2 ^ 14 = current.toNat / 2 ^ 14 then 0
    else if time.toNat / 2 ^ 20 = current.toNat / 2 ^ 20 then 1
    else if time.toNat / 2 ^ 26 = current.toNat / 2 ^ 26 then 2
    else 3 := by
  simp only [← or_mask_eq_iff (x := time) (y := current) (k := 14) (by decide),
    ← or_mask_eq_iff (x := time) (y := current) (k := 20) (by decide),
    ← or_mask_eq_iff (x := time) (y := current) (k := 26) (by decide)]
  rfl

/-- The slot of a deadline in level `i + 1`, from the bits of the number. -/
theorem slot_of_level {i : ℕ} (hi : i ≤ 3) (hlevel : gears.level now E = i + 1) :
    gears.slot now E = (i + 1, ((BitVec.ofNat 32 E >>> (8 + i * 6)) &&& 63).toNat) := by
  have hmask : ((BitVec.ofNat 32 E >>> (8 + i * 6)) &&& 63).toNat =
    E % 2 ^ 32 / 2 ^ (8 + i * 6) % 64 := by
    rw [show (63 : BitVec 32) = BitVec.ofNat 32 (2 ^ 6 - 1) from rfl, toNat_and_mask (by decide),
      BitVec.toNat_ushiftRight, BitVec.toNat_ofNat, Nat.shiftRight_eq_div_pow]
    rfl
  rw [Gears.slot, hlevel, Gears.slotAt, slots_succ, size_succ, hmask]
  interval_cases i <;> congr 1 <;> omega

/-- **`add_node` finds the slot of the wheel**, however often the time has wrapped. -/
theorem place_eq (hle : now ≤ E) (hlt : E < now + 2 ^ 31) :
    place (BitVec.ofNat 32 E) (BitVec.ofNat 32 now) = gears.slot now E := by
  have hnear : BitVec.ofNat 32 E ||| 255 = BitVec.ofNat 32 now ||| 255 ↔ E / 2 ^ 8 = now / 2 ^ 8 :=
    (or_mask_eq_iff (k := 8) (by decide)).trans (wrap_div (by decide) hle hlt)
  have hup : ∀ {k j : ℕ}, k ≤ j → E / 2 ^ k = now / 2 ^ k → E / 2 ^ j = now / 2 ^ j :=
    fun {k j} hkj h => by
    rw [← Nat.add_sub_cancel' hkj, Nat.pow_add, ← Nat.div_div_eq_div_mul,
      ← Nat.div_div_eq_div_mul, h]
  unfold place
  split
  · rename_i h
    have hlevel : gears.level now E = 0 :=
      gears.level_eq (Nat.zero_le _) (fun _ => hnear.1 h) fun _ h => absurd h (Nat.not_lt_zero _)
    rw [show (255 : BitVec 32) = BitVec.ofNat 32 (2 ^ 8 - 1) from rfl, toNat_and_mask (by decide),
      BitVec.toNat_ofNat, Gears.slot, hlevel, Gears.slotAt, slots_zero, gears.size_zero,
      Nat.div_one]
    congr 1
    omega
  · rename_i h
    have h8 : E / 2 ^ 8 ≠ now / 2 ^ 8 := fun hd => h (hnear.2 hd)
    -- the level is the first one whose turns agree
    have hfound : ∀ i ≤ 3, (i < 3 → E / 2 ^ (8 + 6 * (i + 1)) = now / 2 ^ (8 + 6 * (i + 1))) →
        (E / 2 ^ (8 + 6 * i) ≠ now / 2 ^ (8 + 6 * i)) → gears.level now E = i + 1 := by
      intro i hi hagree hdiffer
      refine gears.level_eq (Nat.succ_le_succ hi) (fun hlt => ?_) fun i' hi' hd => ?_
      · rw [size_succ]
        exact hagree (Nat.lt_of_succ_lt_succ hlt)
      · rw [size_succ] at hd
        exact hdiffer (hup (by omega) hd)
    rw [findLevel_eq]
    simp only [wrap_div (k := 14) (by decide) hle hlt, wrap_div (k := 20) (by decide) hle hlt,
      wrap_div (k := 26) (by decide) hle hlt]
    split
    · rename_i h14
      exact (slot_of_level (by decide) (hfound 0 (by decide) (fun _ => h14) h8)).symm
    · rename_i h14
      split
      · rename_i h20
        exact (slot_of_level (by decide) (hfound 1 (by decide) (fun _ => h20) h14)).symm
      · rename_i h20
        split
        · rename_i h26
          exact (slot_of_level (by decide) (hfound 2 (by decide) (fun _ => h26) h20)).symm
        · rename_i h26
          exact (slot_of_level (by decide)
            (hfound 3 (by decide) (fun h => absurd h (by decide)) h26)).symm

/-! ### Moving the wheel -/

/-- The node of a timer. -/
def node (x : ℕ × Event) : Node := ⟨BitVec.ofNat 32 x.1, x.2⟩

/-- The lists of a wheel of timers. -/
def nodes (w : Wheel (ℕ × Event)) : Wheel Node := fun p => (w p).map node

theorem nodes_update (w : Wheel (ℕ × Event)) (p : ℕ × ℕ) (xs : List (ℕ × Event)) :
    nodes (Function.update w p xs) = Function.update (nodes w) p (xs.map node) := by
  funext q
  by_cases hq : q = p
  · subst hq
    rw [Function.update_self, nodes, Function.update_self]
  · rw [Function.update_of_ne hq, nodes, nodes, Function.update_of_ne hq]

/-- A timer is not due before `now`, and not too late. -/
def Soon (now E : ℕ) : Prop := now ≤ E ∧ E < now + 2 ^ 31

theorem Soon.ahead (h : Soon now E) (hlt : now < E) : gears.Ahead now E := by
  refine ⟨hlt, ?_⟩
  rw [show gears.size gears.top = 2 ^ 26 from rfl,
    show gears.size (gears.top + 1) = 2 ^ 32 from rfl]
  have := h.2
  omega

/-- **`add_node`** adds to the wheel. -/
theorem addNode_spec {w : Wheel (ℕ × Event)} {x : ℕ × Event} (htime : T.time = BitVec.ofNat 32 now)
    (hlists : lists T = nodes w) (hx : Soon now x.1) :
    (addNode T (node x)).time = BitVec.ofNat 32 now ∧
      lists (addNode T (node x)) = nodes (gears.add Prod.fst now w x) := by
  refine ⟨(time_addNode T _).trans htime, ?_⟩
  have hplace : place (node x).expire T.time = gears.slot now x.1 := by
    rw [htime]
    exact place_eq hx.1 hx.2
  rw [lists_addNode, hplace, hlists, Gears.add, nodes_update, List.map_append]
  rfl

/-- **`move_list`** puts the nodes of a list in again. -/
theorem moveList_spec {w : Wheel (ℕ × Event)} {i idx : ℕ} (htime : T.time = BitVec.ofNat 32 now)
    (hlists : lists T = nodes w) (hsoon : ∀ x ∈ w (i + 1, idx), Soon now x.1) :
    (moveList T (i, idx)).time = BitVec.ofNat 32 now ∧
      lists (moveList T (i, idx)) = nodes (gears.refill Prod.fst now w (i + 1, idx)) := by
  have key : ∀ (xs : List (ℕ × Event)) (T : Timer) (w : Wheel (ℕ × Event)),
    T.time = BitVec.ofNat 32 now →
      lists T = nodes w → (∀ x ∈ xs, Soon now x.1) →
      ((xs.map node).foldl addNode T).time = BitVec.ofNat 32 now ∧
        lists ((xs.map node).foldl addNode T) = nodes (xs.foldl (gears.add Prod.fst now) w) := by
    intro xs
    induction xs with
    | nil => exact fun T w htime hlists _ => ⟨htime, hlists⟩
    | cons x xs ih =>
        intro T w htime hlists hsoon
        obtain ⟨htime', hlists'⟩ := addNode_spec htime hlists (hsoon x List.mem_cons_self)
        exact ih _ _ htime' hlists' fun y hy => hsoon y (List.mem_cons_of_mem x hy)
  have hold : T.t (i, idx) = (w (i + 1, idx)).map node := congrFun hlists (i + 1, idx)
  rw [moveList, hold]
  refine key _ _ _ htime ?_ hsoon
  rw [lists_update_t, hlists, nodes_update]
  rfl

/-- One round of the loop of `timer_shift`. -/
theorem shiftLoop_succ {i : ℕ} (hi : i ≤ 3) (T : Timer) (t n : ℕ) :
    shiftLoop T (BitVec.ofNat 32 t) (BitVec.ofNat 32 t >>> (8 + 6 * i))
    (BitVec.ofNat 32 (2 ^ (8 + 6 * i))) i (n + 1) =
      if 2 ^ (8 + 6 * i) ∣ t then
        if t / 2 ^ (8 + 6 * i) % 64 ≠ 0 then moveList T (i, t / 2 ^ (8 + 6 * i) % 64)
        else shiftLoop T (BitVec.ofNat 32 t) (BitVec.ofNat 32 t >>> (8 + 6 * (i + 1)))
          (BitVec.ofNat 32 (2 ^ (8 + 6 * (i + 1)))) (i + 1) n
      else T := by
  have hmask : BitVec.ofNat 32 (2 ^ (8 + 6 * i)) - 1 = BitVec.ofNat 32 (2 ^ (8 + 6 * i) - 1) := by
    interval_cases i <;> rfl
  have hnext : BitVec.ofNat 32 (2 ^ (8 + 6 * i)) <<< 6 =
    BitVec.ofNat 32 (2 ^ (8 + 6 * (i + 1))) := by
    interval_cases i <;> rfl
  have hshift : BitVec.ofNat 32 t >>> (8 + 6 * i) >>> 6 =
    BitVec.ofNat 32 t >>> (8 + 6 * (i + 1)) := by
    rw [← BitVec.shiftRight_add]
    congr 1
  have hcond : BitVec.ofNat 32 t &&& (BitVec.ofNat 32 (2 ^ (8 + 6 * i)) - 1) = 0 ↔
    2 ^ (8 + 6 * i) ∣ t := by
    have hdvd : 2 ^ (8 + 6 * i) ∣ 2 ^ 32 := Nat.pow_dvd_pow 2 (by omega)
    rw [hmask, ← BitVec.toNat_inj, toNat_and_mask (by omega), BitVec.toNat_ofNat,
      Nat.mod_mod_of_dvd t hdvd]
    exact (Nat.dvd_iff_mod_eq_zero).symm
  have hidx : ((BitVec.ofNat 32 t >>> (8 + 6 * i)) &&& 63).toNat = t / 2 ^ (8 + 6 * i) % 64 := by
    rw [show (63 : BitVec 32) = BitVec.ofNat 32 (2 ^ 6 - 1) from rfl, toNat_and_mask (by decide),
      BitVec.toNat_ushiftRight, BitVec.toNat_ofNat, Nat.shiftRight_eq_div_pow]
    interval_cases i <;> omega
  rw [shiftLoop]
  simp only [hcond, hidx, hnext, hshift]

/-- **The loop of `timer_shift`** finds the level that moves. -/
theorem shiftLoop_spec {t n i : ℕ} (hi : i ≤ 3) (hn : 4 ≤ i + n) (ht : t % 2 ^ 32 ≠ 0)
    (hlow : i = 0 ∨ gears.size (i + 1) ∣ t) (T : Timer) :
    shiftLoop T (BitVec.ofNat 32 t) (BitVec.ofNat 32 t >>> (8 + 6 * i))
    (BitVec.ofNat 32 (2 ^ (8 + 6 * i))) i n =
      if gears.turn t = 0 then T
      else moveList T (gears.turn t - 1, t / gears.size (gears.turn t) % 64) := by
  induction n generalizing i with
  | zero => omega
  | succ n ih =>
      have hup : ∀ {m : ℕ}, m ∣ t → (m * 64 ∣ t ↔ t / m % 64 = 0) := fun {m} hm => by
        rw [← Nat.dvd_iff_mod_eq_zero]
        exact (Nat.dvd_div_iff_mul_dvd hm).symm
      have hsize : gears.size (i + 1 + 1) = 2 ^ (8 + 6 * i) * 64 := by
        rw [size_succ, show 8 + 6 * (i + 1) = 8 + 6 * i + 6 by omega, Nat.pow_add]
      rw [shiftLoop_succ hi]
      by_cases hdvd : 2 ^ (8 + 6 * i) ∣ t
      · rw [if_pos hdvd]
        by_cases hdigit : t / 2 ^ (8 + 6 * i) % 64 = 0
        · rw [if_neg (not_not.2 hdigit)]
          have hdvd' : gears.size (i + 1 + 1) ∣ t := by
            rw [hsize]
            exact (hup hdvd).2 hdigit
          have hi' : i < 3 := by
            by_contra hge
            obtain rfl : i = 3 := by omega
            rw [hsize] at hdvd'
            exact ht (Nat.dvd_iff_mod_eq_zero.1 hdvd')
          exact ih hi' (by omega) (Or.inr hdvd')
        · have hturn : gears.turn t = i + 1 := by
            refine gears.turn_eq (Nat.succ_le_succ hi) (by rw [size_succ]; exact hdvd)
              fun _ hd => hdigit ?_
            rw [hsize] at hd
            exact (hup hdvd).1 hd
          rw [if_pos hdigit, hturn, if_neg (Nat.succ_ne_zero i), size_succ, Nat.add_sub_cancel]
      · rw [if_neg hdvd]
        rw [size_succ] at hlow
        obtain rfl := hlow.resolve_right hdvd
        have hturn : gears.turn t = 0 := by
          refine gears.turn_eq (Nat.zero_le _) (gears.size_zero ▸ one_dvd t) fun _ hd => hdvd ?_
          rw [size_succ] at hd
          exact hd
        rw [if_pos hturn]

/-- **`timer_shift`** moves the wheel, also when the time wraps. -/
theorem timerShift_spec {w : Wheel (ℕ × Event)} (htime : T.time = BitVec.ofNat 32 now)
    (hlists : lists T = nodes w) (hsoon : ∀ p, ∀ x ∈ w p, Soon (now + 1) x.1) :
    (timerShift T).time = BitVec.ofNat 32 (now + 1) ∧
      lists (timerShift T) = nodes (gears.cascade Prod.fst (now + 1) w) := by
  set T' : Timer := { T with time := BitVec.ofNat 32 (now + 1) } with hT'
  have hct : T.time + 1 = BitVec.ofNat 32 (now + 1) := by
    rw [htime, BitVec.ofNat_add]
    rfl
  have hmoves : timerShift T = if gears.turn (now + 1) = 0 then T'
      else moveList T' (gears.turn (now + 1) - 1,
      (now + 1) / gears.size (gears.turn (now + 1)) % 64) := by
    rw [timerShift, hct]
    by_cases hzero : BitVec.ofNat 32 (now + 1) = 0
    · -- the time wraps: the first list of the last level
      have hmod : (now + 1) % 2 ^ 32 = 0 := by
        have hnat := congrArg BitVec.toNat hzero
        rw [BitVec.toNat_ofNat] at hnat
        exact hnat
      have hturn : gears.turn (now + 1) = 4 := by
        refine gears.turn_eq le_rfl ?_ fun h => absurd h (by decide)
        rw [size_succ]
        omega
      have hidx : (now + 1) / gears.size 4 % 64 = 0 := by
        rw [size_succ]
        omega
      rw [if_pos hzero, hturn, if_neg (by decide), hidx]
    · have hmod : (now + 1) % 2 ^ 32 ≠ 0 :=
        fun h => hzero (BitVec.eq_of_toNat_eq (by rw [BitVec.toNat_ofNat, h]; rfl))
      rw [if_neg hzero]
      exact shiftLoop_spec (i := 0) (by decide) le_rfl hmod (Or.inl rfl) T'
  rw [hmoves, Gears.cascade]
  by_cases hturn : gears.turn (now + 1) = 0
  · rw [if_pos hturn, if_neg (by omega)]
    exact ⟨rfl, hlists⟩
  · obtain ⟨i, hi⟩ := Nat.exists_eq_succ_of_ne_zero hturn
    rw [if_neg hturn, if_pos (by omega), hi, Gears.slotAt, slots_succ]
    exact moveList_spec rfl hlists fun x hx => hsoon _ x hx

end Wheel

/-! ### The timer thread -/

section Thread

variable {s s' : Sys}

/-- The timers that are still to fire. -/
def Sys.pending (s : Sys) : List (ℕ × Event) := s.added.filter fun x => s.ticks < x.1

/-- What the timer thread has taken out and not yet dispatched. -/
def Sys.taken (s : Sys) : List (ℕ × Event) :=
  match s.pc with
  | .second current => current.map fun node => (s.ticks, node.event)
  | _ => []

/-- What has been dispatched or taken out for the tick `M`. -/
def Sys.out (s : Sys) (M : ℕ) : List (ℕ × Event) :=
  s.fired.filter (fun x => x.1 = M) ++ if M = s.ticks then s.taken else []

/-- **The invariant.** -/
structure Kept (s : Sys) : Prop where
  time : s.T.time = BitVec.ofNat 32 s.ticks
  soon : ∀ x ∈ s.added, x.1 < s.ticks + 2 ^ 31
  wheel : ∃ w, gears.Holds Prod.fst s.ticks w s.pending ∧ lists s.T = nodes w
  out : ∀ M, s.out M = if M ≤ s.ticks then s.added.filter (fun x => x.1 = M) else []
  first : ∀ current, s.pc ≠ .first current
  clock : s.current = s.start + s.ticks + s.left

/-- **One round of the loop of `timer_execute`** takes what is due. -/
theorem timerExecute_spec {T : Timer} {now : ℕ} {w : Wheel (ℕ × Event)} {xs : List (ℕ × Event)}
    (htime : T.time = BitVec.ofNat 32 now) (hlists : lists T = nodes w)
    (hw : gears.Holds Prod.fst now w xs)
    (hsoon : ∀ x ∈ xs, Soon now x.1) :
    (timerExecute T).2 = (xs.filter fun x => x.1 = now).map node ∧
      (timerExecute T).1.time = BitVec.ofNat 32 now ∧
      ∃ w', gears.Holds Prod.fst now w' (xs.filter fun x => x.1 ≠ now) ∧ lists (timerExecute T).1 =
      nodes w' := by
  have hahead : ∀ x ∈ xs, x.1 = now ∨ gears.Ahead now x.1 := fun x hx => by
    rcases (hsoon x hx).1.lt_or_eq with hlt | heq
    · exact Or.inr ((hsoon x hx).ahead hlt)
    · exact Or.inl heq.symm
  have hidx : (T.time &&& 255).toNat = now % 256 := by
    rw [htime, show (255 : BitVec 32) = BitVec.ofNat 32 (2 ^ 8 - 1) from rfl,
      toNat_and_mask (by decide),
      BitVec.toNat_ofNat]
    omega
  have hslot : gears.slotAt 0 now = (0, now % 256) := by
    rw [Gears.slotAt, slots_zero, gears.size_zero, Nat.div_one]
  refine ⟨?_, htime, gears.clear now w, hw.clear hahead, ?_⟩
  · have hnear : T.near (now % 256) = (w (0, now % 256)).map node := congrFun hlists (0, now % 256)
    rw [timerExecute, hidx, hnear, ← hslot, hw.atTime hahead]
  · rw [timerExecute, hidx, Gears.clear, hslot, lists_update_near, hlists, nodes_update]
    rfl

theorem executeSecond_nil (h : (timerExecute s.T).2 = []) :
    executeSecond s = { s with pc := .rest } := by
  unfold executeSecond
  split
  · rfl
  · rename_i T current hne hT
    rw [hT] at h
    obtain rfl : current = [] := h
    exact (hne rfl).elim

theorem executeSecond_ne (h : (timerExecute s.T).2 ≠ []) :
    executeSecond s = { s with T := (timerExecute s.T).1, pc := .second (timerExecute s.T).2 } := by
  unfold executeSecond
  split
  · rename_i T hT
    rw [hT] at h
    exact absurd rfl h
  · rename_i T current hne hT
    rw [hT]

theorem executeFirst_nil (h : (timerExecute s.T).2 = []) :
    executeFirst s = executeSecond { s with T := timerShift s.T, ticks := s.ticks + 1 } := by
  unfold executeFirst
  split
  · rfl
  · rename_i T current hne hT
    rw [hT] at h
    obtain rfl : current = [] := h
    exact (hne rfl).elim

theorem Kept.soon_pending (h : Kept s) : ∀ x ∈ s.pending, Soon (s.ticks + 1) x.1 := by
  intro x hx
  obtain ⟨hx, hlt⟩ := List.mem_filter.1 hx
  have := h.soon x hx
  have := of_decide_eq_true hlt
  exact ⟨by omega, by omega⟩

/-- **Nothing is due** between the ticks: the loop of `timer_execute` has no second round, and its
first call in `timer_update` none at all. -/
theorem Kept.none_due (h : Kept s) : (timerExecute s.T).2 = [] := by
  obtain ⟨w, hw, hlists⟩ := h.wheel
  obtain ⟨hdue, -⟩ := timerExecute_spec h.time hlists hw fun x hx =>
    ⟨(Nat.le_succ _).trans (h.soon_pending x hx).1, h.soon x (List.mem_filter.1 hx).1⟩
  rw [hdue, List.map_eq_nil_iff, List.filter_eq_nil_iff]
  intro x hx heq
  have := (h.soon_pending x hx).1
  have := of_decide_eq_true heq
  omega

/-- What is taken out is recorded as it was added. -/
theorem map_node (M : ℕ) (xs : List (ℕ × Event)) :
    ((xs.filter fun x => x.1 = M).map node).map (fun n => (M, n.event)) = xs.filter fun x =>
      x.1 = M := by
  rw [List.map_map]
  refine (List.map_congr_left fun x hx => ?_).trans (List.map_id _)
  have hM : x.1 = M := of_decide_eq_true (List.mem_filter.1 hx).2
  rw [← hM]
  rfl

/-- **`timer_update`**: the time goes on by one tick, and what is due is taken out. -/
theorem Kept.update (h : Kept s) (hpc : s.pc = .rest) (hleft : 0 < s.left) :
    Kept (executeFirst { s with left := s.left - 1 }) := by
  obtain ⟨w, hw, hlists⟩ := h.wheel
  have hnone : (timerExecute s.T).2 = [] := h.none_due
  have hclock := h.clock
  obtain ⟨htime, hmoved⟩ := timerShift_spec h.time hlists fun p x hx => by
    rw [hw p] at hx
    exact h.soon_pending x (List.mem_filter.1 hx).1
  have hheld := hw.cascade fun x hx => by
    have hsoon := h.soon_pending x hx
    exact Soon.ahead ⟨(Nat.le_succ _).trans hsoon.1, h.soon x (List.mem_filter.1 hx).1⟩ hsoon.1
  obtain ⟨hdue, htime', w', hw', hlists'⟩ := timerExecute_spec htime hmoved hheld h.soon_pending
  have hfilter : s.pending.filter (fun x => x.1 = s.ticks + 1) = s.added.filter fun x => x.1 =
    s.ticks + 1 := by
    rw [Sys.pending, List.filter_filter]
    refine List.filter_congr fun x _ => ?_
    by_cases hx : x.1 = s.ticks + 1
    · simp [hx]
    · simp [hx]
  have hrest : s.pending.filter (fun x => x.1 ≠ s.ticks + 1) = s.added.filter fun x =>
    s.ticks + 1 < x.1 := by
    rw [Sys.pending, List.filter_filter]
    refine List.filter_congr fun x _ => ?_
    rw [Bool.eq_iff_iff, Bool.and_eq_true, decide_eq_true_iff, decide_eq_true_iff,
      decide_eq_true_iff]
    omega
  rw [hfilter] at hdue
  rw [hrest] at hw'
  have hfired : ∀ M, s.fired.filter (fun x => x.1 = M) =
      if M ≤ s.ticks then s.added.filter (fun x => x.1 = M) else [] := fun M => by
    rw [← h.out M, Sys.out, Sys.taken, hpc]
    dsimp only
    rw [ite_self, List.append_nil]
  -- what comes out at the new tick
  have hout : ∀ M, s.fired.filter (fun x => x.1 = M) ++
      (if M = s.ticks + 1 then s.added.filter (fun x => x.1 = s.ticks + 1) else []) =
      if M ≤ s.ticks + 1 then s.added.filter (fun x => x.1 = M) else [] := fun M => by
    rw [hfired M]
    rcases Nat.lt_trichotomy M (s.ticks + 1) with hlt | rfl | hgt
    · rw [if_pos (by omega), if_neg (by omega), if_pos (by omega), List.append_nil]
    · rw [if_neg (by omega), if_pos rfl, if_pos le_rfl, List.nil_append]
    · rw [if_neg (by omega), if_neg (by omega), if_neg (by omega), List.append_nil]
  have hsoon : ∀ x ∈ s.added, x.1 < s.ticks + 1 + 2 ^ 31 := fun x hx => by
    have := h.soon x hx
    omega
  rw [executeFirst_nil (s := { s with left := s.left - 1 }) hnone]
  generalize timerShift s.T = T at *
  by_cases hempty : (timerExecute T).2 = []
  · rw [executeSecond_nil (by exact hempty)]
    have hnil : s.added.filter (fun x => x.1 = s.ticks + 1) = [] := by
      rw [hdue] at hempty
      exact List.map_eq_nil_iff.1 hempty
    have hall : s.pending = s.added.filter fun x => s.ticks + 1 < x.1 := by
      rw [← hrest, eq_comm, List.filter_eq_self]
      intro x hx
      have hne : x ∉ s.pending.filter fun x => x.1 = s.ticks + 1 := by
        rw [hfilter, hnil]
        exact List.not_mem_nil
      exact decide_eq_true fun heq => hne (List.mem_filter.2 ⟨hx, decide_eq_true heq⟩)
    rw [hall] at hheld
    refine ⟨htime, hsoon, ⟨_, hheld, hmoved⟩, fun M => ?_, nofun, ?_⟩
    · refine Eq.trans ?_ (hout M)
      rw [Sys.out, Sys.taken, hnil]
    · change s.current = s.start + (s.ticks + 1) + (s.left - 1)
      omega
  · rw [executeSecond_ne (by exact hempty)]
    refine ⟨htime', hsoon, ⟨w', hw', hlists'⟩, fun M => ?_, nofun, ?_⟩
    · refine Eq.trans ?_ (hout M)
      rw [Sys.out, Sys.taken, ← map_node (s.ticks + 1) s.added, ← hdue]
    · change s.current = s.start + (s.ticks + 1) + (s.left - 1)
      omega

/-- **`dispatch_list`**, and the end of `timer_update`. -/
theorem Kept.second (h : Kept s) {current : List Node} (hpc : s.pc = .second current) :
    executeSecond (dispatchList s current) = { dispatchList s current with pc := .rest } ∧
      Kept (executeSecond (dispatchList s current)) := by
  have hend := executeSecond_nil (s := dispatchList s current) h.none_due
  refine ⟨hend, ?_⟩
  rw [hend]
  refine ⟨h.time, h.soon, h.wheel, fun M => ?_, nofun, h.clock⟩
  refine Eq.trans ?_ (h.out M)
  rw [Sys.out, Sys.out, Sys.taken, Sys.taken, hpc]
  change (s.fired ++ current.map fun n => (s.ticks, n.event)).filter (fun x => x.1 = M) ++
    (if M = s.ticks then [] else []) = _
  rw [ite_self, List.append_nil, List.filter_append]
  congr 1
  by_cases hM : M = s.ticks
  · rw [if_pos hM, List.filter_eq_self]
    intro x hx
    obtain ⟨n, -, rfl⟩ := List.mem_map.1 hx
    exact decide_eq_true hM.symm
  · rw [if_neg hM, List.filter_eq_nil_iff]
    intro x hx
    obtain ⟨n, -, rfl⟩ := List.mem_map.1 hx
    exact fun heq => hM (of_decide_eq_true heq).symm

/-- **`skynet_timeout`**, at any time. -/
theorem Kept.timeout (h : Kept s) (event : Event) {time : ℤ} (hint : time < 2 ^ 31) :
    Kept { s with
      T := (skynetTimeout s.T event time).1
      added := if 0 < time then s.added ++ [(s.ticks + time.toNat, event)] else s.added } := by
  by_cases hpos : 0 < time
  · obtain ⟨d, rfl⟩ := Int.eq_ofNat_of_zero_le hpos.le
    have hd : 0 < d := by exact_mod_cast hpos
    have hd31 : d < 2 ^ 31 := by exact_mod_cast hint
    obtain ⟨w, hw, hlists⟩ := h.wheel
    have hexpire : BitVec.ofInt 32 d + s.T.time = BitVec.ofNat 32 (s.ticks + d) := by
      rw [h.time, BitVec.ofInt_natCast, ← BitVec.ofNat_add, Nat.add_comm]
    obtain ⟨htime, hadd⟩ := addNode_spec (x := (s.ticks + d, event)) h.time hlists
      ⟨by dsimp only; omega, by dsimp only; omega⟩
    have hT : (skynetTimeout s.T event d).1 = addNode s.T (node (s.ticks + d, event)) := by
      rw [skynetTimeout, if_neg (not_le.2 hpos), timerAdd, hexpire]
      rfl
    have hearlier : ∀ M ≤ s.ticks, (s.added ++ [(s.ticks + d, event)]).filter (fun x => x.1 = M) =
        s.added.filter fun x => x.1 = M := fun M hM => by
      rw [List.filter_append, List.filter_cons_of_neg (by simp; omega), List.filter_nil,
        List.append_nil]
    rw [if_pos hpos, hT]
    refine ⟨htime, fun x hx => ?_, ⟨_, ?_, hadd⟩, fun M => ?_, h.first, h.clock⟩
    · rcases List.mem_append.1 hx with hold | hnew
      · exact h.soon x hold
      · rw [List.mem_singleton.1 hnew]
        dsimp only
        omega
    · have hpending : (s.added ++ [(s.ticks + d, event)]).filter (fun x => s.ticks < x.1) =
          s.pending ++ [(s.ticks + d, event)] := by
        rw [List.filter_append, List.filter_cons_of_pos (by simpa using hd), List.filter_nil]
        rfl
      change gears.Holds Prod.fst s.ticks _ (List.filter _ _)
      dsimp only [Int.toNat_natCast]
      rw [hpending]
      exact hw.add _
    · refine (h.out M).trans ?_
      dsimp only [Int.toNat_natCast]
      split
      · rename_i hM
        exact (hearlier M hM).symm
      · rfl
  · rw [if_neg hpos, skynetTimeout, if_pos (not_lt.1 hpos)]
    exact h

/-- **`skynet_updatetime`.** -/
theorem Kept.updatetime (h : Kept s) (hleft : s.left = 0) (cp : ℕ) : Kept (updatetime s cp) := by
  have hclock := h.clock
  unfold SkynetTimer.updatetime
  split
  · exact ⟨h.time, h.soon, h.wheel, h.out, h.first, h.clock⟩
  · split
    · refine ⟨h.time, h.soon, h.wheel, h.out, h.first, ?_⟩
      dsimp only
      omega
    · exact h

theorem Kept.step (h : Kept s) (hs : Step s s') : Kept s' := by
  cases hs with
  | updatetime cp _ hleft => exact h.updatetime hleft cp
  | update hpc hleft => exact h.update hpc hleft
  | first current hpc => exact absurd hpc (h.first current)
  | second current hpc => exact (h.second hpc).2
  | timeout event time hint => exact h.timeout event hint

theorem kept_init (start point : ℕ) : Kept (init start point) := by
  refine ⟨rfl, nofun, ⟨fun _ => [], Gears.holds_nil 0, ?_⟩, fun M => ?_, nofun, rfl⟩
  · funext ⟨i, idx⟩
    cases i <;> rfl
  · rw [Sys.out]
    split <;> split <;> rfl

theorem kept_of_run {start point : ℕ} (h : Run (init start point) s) : Kept s := by
  induction h with
  | refl => exact kept_init start point
  | tail _ hs ih => exact ih.step hs

/-- **Every timer fires once, at its tick, and in order**: whatever the threads do, and however
often the time wraps.  `skynet_now` is ahead of the ticks by the calls of `timer_update` that are
still to be made. -/
theorem fires_on_time {start point : ℕ} (h : Run (init start point) s) :
    (s.pc = .rest → ∀ M, s.fired.filter (fun x => x.1 = M) =
      if M ≤ s.ticks then s.added.filter (fun x => x.1 = M) else []) ∧
    (∀ current, s.pc ≠ .first current) ∧
    (∀ current, s.pc = .second current → executeSecond (dispatchList s current) =
      { dispatchList s current with pc := .rest }) ∧
    s.current = s.start + s.ticks + s.left := by
  have hkept := kept_of_run h
  refine ⟨fun hpc M => ?_, hkept.first, fun current hpc => (hkept.second hpc).1, hkept.clock⟩
  rw [← hkept.out M, Sys.out, Sys.taken, hpc]
  dsimp only
  rw [ite_self, List.append_nil]

end Thread

/-- A timer of two ticks is added, and two ticks go by. -/
def armed : Sys := { init 0 0 with T := (skynetTimeout {} ⟨1, 7⟩ 2).1, added := [(2, ⟨1, 7⟩)] }

/-- The first of them. -/
def ticked : Sys := executeFirst { updatetime armed 2 with left := 1 }

/-- The second. -/
def due : Sys := executeFirst { ticked with left := 0 }

/-- It is dispatched at the second tick. -/
theorem fires_on_time_second :
    ∃ s, Run (init 0 0) s ∧ s.fired.filter (fun x => x.1 = 2) = [(2, ⟨1, 7⟩)] := by
  have hrun : Run (init 0 0) (executeSecond (dispatchList due [⟨2, ⟨1, 7⟩⟩])) :=
    ((((Relation.ReflTransGen.single (.timeout ⟨1, 7⟩ 2 (by decide))).tail
      (.updatetime 2 rfl rfl)).tail
      (.update rfl (by decide))).tail (.update (by decide +kernel) (by decide +kernel))).tail
        (.second _ (by decide +kernel))
  refine ⟨_, hrun, ((fires_on_time hrun).1 (by decide +kernel) 2).trans ?_⟩
  decide +kernel

end Halieutics.SkynetTimer
