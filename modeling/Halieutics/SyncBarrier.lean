/-
**What a wait on a `sync` object waits for.**

A wait with seats registered is meant to be a barrier: it is released when every registered seat has
arrived.  The object does not remember who has arrived; it counts arrivals, and it compares the
count with the number of registered seats.  The count is reset when a wait is released, but not when
it times out.

This module keeps, next to the object, the calls of `sync:arrive` that were made since the wait
began, and compares the two.

Main definitions:

* `Halieutics.SyncUsers.regs` — the registered seats;
* `Halieutics.Barrier`, `Halieutics.Barrier.step` — an object with the calls made during the wait;
* `Halieutics.Barrier.due` — every registered seat has called;
* `Halieutics.Barrier.ExactAt` — the wait goes on as long as it is not due, and an arrival releases
  it exactly if it makes it due;
* `Halieutics.Barrier.fair` — the condition: a wait begins with a count of zero and with seats, no
  registered seat arrives twice, and seats that come and go during a wait have not arrived.

Main results:

* `Halieutics.Sync.add_new`, `Halieutics.Sync.regs_enter`, `Halieutics.Barrier.arrive_registered` —
  what the methods do;
* `Halieutics.Barrier.Counts.step` — under the condition the count is the number of registered seats
  that have called;
* `Halieutics.Barrier.exactAt_of_fair` — **a wait is released exactly when it is due, in every run
  that meets the condition**;
* `Halieutics.Barrier.repeated_arrival_releases` — **repeated and left-over arrivals release a wait
  early**.
-/

import Halieutics.Sync

set_option relaxedAutoImplicit false
set_option autoImplicit false

namespace Halieutics

open LuaTable

/-! ### The registered seats -/

/-- The registered seats. -/
def SyncUsers.regs (us : SyncUsers) : Finset ℤ :=
  us.seats.keys.toFinset.filter fun seat => us.seats.lookup seat = some true

theorem SyncUsers.mem_regs {us : SyncUsers} {seat : ℤ} :
    seat ∈ us.regs ↔ us.seats.lookup seat = some true := by
  unfold SyncUsers.regs
  rw [Finset.mem_filter, List.mem_toFinset, and_iff_right_iff_imp]
  intro h
  rw [← lookup_isSome_iff_mem_keys, h]
  rfl

theorem SyncUsers.getD_eq_true {us : SyncUsers} {seat : ℤ} :
    (us.seats.lookup seat).getD false = true ↔ seat ∈ us.regs := by
  rw [SyncUsers.mem_regs]
  cases us.seats.lookup seat with
  | none => simp
  | some ud => simp

/-- Entering a seat. -/
theorem SyncUsers.regs_insert_true (us : SyncUsers) (seat n m : ℤ) :
    SyncUsers.regs ⟨us.seats.insert seat true, n, m⟩ = insert seat us.regs := by
  ext k
  rw [Finset.mem_insert, SyncUsers.mem_regs, SyncUsers.mem_regs, lookup_insert_eq]
  by_cases hk : k = seat
  · simp [hk]
  · simp [hk]

/-- Taking a seat out. -/
theorem SyncUsers.regs_insert_false (us : SyncUsers) (seat n m : ℤ) :
    SyncUsers.regs ⟨us.seats.insert seat false, n, m⟩ = us.regs.erase seat := by
  ext k
  rw [Finset.mem_erase, SyncUsers.mem_regs, SyncUsers.mem_regs, lookup_insert_eq]
  by_cases hk : k = seat
  · simp [hk]
  · simp [hk]

/-- The registered seats of an object; there are none before the first is entered. -/
def Sync.regs (s : Sync) : Finset ℤ := (s.users.getD {}).regs

/-- `sync:add` enters a seat that is not registered. -/
theorem Sync.add_new {s : Sync} {seat : ℤ} (hnew : seat ∉ s.regs) :
    s.add seat true = { s with users := some ⟨(s.users.getD {}).seats.insert seat true,
      (s.users.getD {}).count + 1, (s.users.getD {}).counter⟩ } := by
  have hnew' : ¬ ((s.users.getD {}).seats.lookup seat).getD false = true := by
    rw [SyncUsers.getD_eq_true]
    exact hnew
  simp only [Sync.add, if_neg hnew', if_true]

/-- `sync:add` has nothing to enter. -/
theorem Sync.add_old {s : Sync} {seat : ℤ} (hreg : seat ∈ s.regs) :
    s.add seat true = { s with users := some (s.users.getD {}) } := by
  have hreg' : ((s.users.getD {}).seats.lookup seat).getD false = true :=
    SyncUsers.getD_eq_true.2 hreg
  simp only [Sync.add, if_pos hreg', if_true]

/-- Entering a seat leaves the arrivals alone. -/
theorem Sync.regs_enter (s : Sync) (seat : ℤ) :
    (s.add seat true).regs = insert seat s.regs ∧
      ((s.add seat true).users.getD {}).counter = (s.users.getD {}).counter := by
  by_cases hreg : seat ∈ s.regs
  · rw [Sync.add_old hreg, Finset.insert_eq_of_mem hreg]
    exact ⟨rfl, rfl⟩
  · rw [Sync.add_new hreg]
    exact ⟨SyncUsers.regs_insert_true _ _ _ _, rfl⟩

/-! ### The object and the calls -/

/-- A `sync` object with the seats for which `sync:arrive` was called, under the name of the wait,
since the wait began. -/
structure Barrier where
  sync : Sync := {}
  arrived : List ℤ := []

/-- The operations.  A coroutine that is woken runs as soon as the one that woke it yields, and
after `wakeup` the rest of `sync:wait` does nothing, so a release needs no step of its own. -/
inductive Op where
  | add (seat : ℤ) (ud : Bool)
  | wait (st : St)
  | arrive (st : St) (seat : ℤ)
  | timeout
  deriving DecidableEq

namespace Barrier

/-- One operation. -/
def step (b : Barrier) : Op → Barrier
  | .add seat ud => { b with sync := b.sync.add seat ud }
  | .wait st =>
      match b.sync.wait st with
      | none => b
      | some s => ⟨s, []⟩
  | .arrive st seat =>
      ⟨(b.sync.arrive st seat).1,
        if b.sync.waiting = some st then seat :: b.arrived else b.arrived⟩
  | .timeout => if b.sync.waiting.isSome then { b with sync := b.sync.resumed } else b

/-- A sequence of operations. -/
def run (b : Barrier) (ops : List Op) : Barrier := ops.foldl step b

/-- Every registered seat has called. -/
def due (b : Barrier) : Prop := ∀ seat ∈ b.sync.regs, seat ∈ b.arrived

/-- **The barrier**: a wait that goes on is not due, and an arrival releases it exactly if every
registered seat has then called. -/
def ExactAt (b : Barrier) (op : Op) : Prop :=
  b.sync.waiting.isSome → ¬ b.due ∧
    ∀ st seat, op = .arrive st seat → ((b.step op).sync.waiting = none ↔ (b.step op).due)

/-- **The condition.**  A wait begins with a count of zero and at least one registered seat.  During
the wait a registered seat arrives for the first time; a seat that is entered has not called before;
and a seat that is taken out has not called and is not the only one that is missing. -/
def fair (b : Barrier) : Op → Bool
  | .add seat true =>
      b.sync.waiting.isNone || decide (seat ∈ b.sync.regs) || decide (seat ∉ b.arrived)
  | .add seat false =>
      b.sync.waiting.isNone || decide (seat ∉ b.sync.regs) ||
        (decide (seat ∉ b.arrived) && decide (∃ k ∈ b.sync.regs, k ≠ seat ∧ k ∉ b.arrived))
  | .wait _ =>
      b.sync.waiting.isSome ||
        (decide ((b.sync.users.getD {}).counter = 0) && decide (b.sync.regs.Nonempty))
  | .arrive st seat =>
      decide (b.sync.waiting ≠ some st) || decide (seat ∉ b.sync.regs) ||
        decide (seat ∉ b.arrived)
  | .timeout => true

/-- Every operation of a sequence meets the condition. -/
def fairRun (b : Barrier) : List Op → Bool
  | [] => true
  | op :: ops => b.fair op && (b.step op).fairRun ops

/-! ### Counting arrivals -/

/-- **The invariant**: `count` is the number of registered seats, and during a wait `counter` is the
number of those that have called, and one of them has not. -/
structure Counts (b : Barrier) : Prop where
  count : ∀ us, b.sync.users = some us → us.count = us.regs.card
  counter : b.sync.waiting.isSome → ∃ us, b.sync.users = some us ∧
    us.counter = (us.regs.filter fun seat => seat ∈ b.arrived).card ∧
    ∃ seat ∈ us.regs, seat ∉ b.arrived

variable {b : Barrier}

/-- A wait that goes on is not due. -/
theorem Counts.not_due (h : Counts b) (hw : b.sync.waiting.isSome) : ¬ b.due := by
  obtain ⟨us, hus, -, seat, hreg, hout⟩ := h.counter hw
  intro hdue
  refine hout (hdue seat ?_)
  rw [Sync.regs, hus]
  exact hreg

/-- While the wait goes on it is neither released nor due. -/
theorem Counts.goes_on (h : Counts b) (hw : b.sync.waiting.isSome) :
    b.sync.waiting = none ↔ b.due :=
  iff_of_false (Option.isSome_iff_ne_none.1 hw) (h.not_due hw)

theorem counts_new : Counts {} where
  count := fun _ h => by cases h
  counter := fun h => by cases h

/-- `count` is the number of registered seats also before the first is entered. -/
theorem Counts.count_getD (h : Counts b) :
    (b.sync.users.getD {}).count = (b.sync.users.getD {}).regs.card := by
  cases hus : b.sync.users with
  | none => decide
  | some us => exact h.count us hus

/-- `sync:add` where it has nothing to do. -/
theorem Counts.same (h : Counts b) :
    Counts { b with sync := { b.sync with users := some (b.sync.users.getD {}) } } where
  count := by
    intro us hus
    obtain rfl := Option.some_inj.1 hus
    exact h.count_getD
  counter := by
    intro hw
    obtain ⟨us, hus, hrest⟩ := h.counter hw
    exact ⟨us, by simp [hus], hrest⟩

/-- A seat is entered. -/
theorem Counts.enter (h : Counts b) {seat : ℤ} (hnew : seat ∉ b.sync.regs)
    (hfair : b.sync.waiting.isSome → seat ∉ b.arrived) :
    Counts (b.step (.add seat true)) := by
  unfold step
  dsimp only
  rw [Sync.add_new hnew]
  constructor
  · intro us hus
    obtain rfl := Option.some_inj.1 hus
    have hcard := Finset.card_insert_of_notMem hnew
    have hcount := h.count_getD
    unfold Sync.regs at hcard
    rw [SyncUsers.regs_insert_true, hcard]
    push_cast
    omega
  · intro hw
    obtain ⟨us, hus, hcounter, k, hk, hkout⟩ := h.counter hw
    refine ⟨_, rfl, ?_, k, ?_, hkout⟩
    · -- the new seat has not called, so the count stays right
      rw [SyncUsers.regs_insert_true, Finset.filter_insert, if_neg (hfair hw), hus]
      exact hcounter
    · rw [SyncUsers.regs_insert_true, hus]
      exact Finset.mem_insert_of_mem hk

/-- A seat is taken out. -/
theorem Counts.leave (h : Counts b) {seat : ℤ} (hreg : seat ∈ b.sync.regs)
    (hfair : b.sync.waiting.isSome →
      seat ∉ b.arrived ∧ ∃ k ∈ b.sync.regs, k ≠ seat ∧ k ∉ b.arrived) :
    Counts (b.step (.add seat false)) := by
  have hreg' : ((b.sync.users.getD {}).seats.lookup seat).getD false = true :=
    SyncUsers.getD_eq_true.2 hreg
  have heq : b.sync.add seat false =
      { b.sync with users := some ⟨(b.sync.users.getD {}).seats.insert seat false,
        (b.sync.users.getD {}).count - 1, (b.sync.users.getD {}).counter⟩ } := by
    simp only [Sync.add, if_pos hreg', Bool.false_eq_true, if_false]
  unfold step
  dsimp only
  rw [heq]
  constructor
  · intro us hus
    obtain rfl := Option.some_inj.1 hus
    rw [SyncUsers.regs_insert_false]
    have hcard := Finset.card_erase_add_one hreg
    have hcount := h.count_getD
    unfold Sync.regs at hcard
    dsimp only
    omega
  · intro hw
    obtain ⟨us, hus, hcounter, -⟩ := h.counter hw
    obtain ⟨hout, k, hk, hne, hkout⟩ := hfair hw
    refine ⟨_, rfl, ?_, k, ?_, hkout⟩
    · rw [SyncUsers.regs_insert_false, Finset.filter_erase, Finset.erase_eq_of_notMem, hus]
      · exact hcounter
      · exact fun hmem => hout (Finset.mem_filter.1 hmem).2
    · rw [SyncUsers.regs_insert_false]
      exact Finset.mem_erase.2 ⟨hne, hk⟩

/-- **`sync:add`** keeps the count right. -/
theorem Counts.add (h : Counts b) {seat : ℤ} {ud : Bool} (hfair : b.fair (.add seat ud) = true) :
    Counts (b.step (.add seat ud)) := by
  by_cases hreg : seat ∈ b.sync.regs
  · cases ud with
    | false =>
        refine h.leave hreg fun hw => ?_
        simpa [fair, hreg, Option.isSome_iff_ne_none.1 hw] using hfair
    | true =>
        unfold step
        dsimp only
        rw [Sync.add_old hreg]
        exact h.same
  · cases ud with
    | false =>
        have hreg' : ¬ ((b.sync.users.getD {}).seats.lookup seat).getD false = true := by
          rw [SyncUsers.getD_eq_true]
          exact hreg
        have heq : b.sync.add seat false =
          { b.sync with users := some (b.sync.users.getD {}) } := by
          simp only [Sync.add, if_neg hreg', Bool.false_eq_true, if_false]
        unfold step
        dsimp only
        rw [heq]
        exact h.same
    | true =>
        refine h.enter hreg fun hw => ?_
        simpa [fair, hreg, Option.isSome_iff_ne_none.1 hw] using hfair

/-- **`sync:wait`** begins with a count of zero and somebody to wait for. -/
theorem Counts.wait (h : Counts b) {st : St} (hfair : b.fair (.wait st) = true) :
    Counts (b.step (.wait st)) := by
  unfold step Sync.wait
  cases hw : b.sync.waiting with
  | some st' => exact h
  | none =>
      simp only [fair, hw, Option.isSome_none, Bool.false_or, Bool.and_eq_true,
        decide_eq_true_eq] at hfair
      obtain ⟨hzero, seat, hseat⟩ := hfair
      refine ⟨h.count, fun _ => ?_⟩
      cases hus : b.sync.users with
      | none =>
          simp only [Sync.regs, hus, SyncUsers.mem_regs] at hseat
          cases hseat
      | some us =>
          refine ⟨us, rfl, ?_, seat, ?_, List.not_mem_nil⟩
          · simpa [hus] using hzero
          · simpa [Sync.regs, hus] using hseat

/-- What `sync:arrive` does for a registered seat. -/
theorem arrive_registered {s : Sync} {us : SyncUsers} {st : St} {seat : ℤ}
    (hw : s.waiting = some st) (hus : s.users = some us) (hreg : seat ∈ us.regs) :
    (s.arrive st seat).1 =
      if us.count = us.counter + 1 then ⟨some { us with counter := 0 }, none, some .message⟩
      else { s with users := some { us with counter := us.counter + 1 } } := by
  have hreg' : (us.seats.lookup seat).getD false = true := SyncUsers.getD_eq_true.2 hreg
  simp only [Sync.arrive, hw, hus, if_true, if_pos hreg']
  split
  · simp [Sync.wakeup]
  · rfl

/-- `sync:arrive` under another name, or for a seat that is not registered. -/
theorem arrive_other {s : Sync} {st : St} {seat : ℤ} (h : s.waiting ≠ some st ∨ seat ∉ s.regs) :
    (s.arrive st seat).1 = s := by
  unfold Sync.arrive
  split
  · rename_i hw
    have hreg : seat ∉ s.regs := h.resolve_left (not_not.2 hw)
    cases hus : s.users with
    | none => rfl
    | some us =>
        have hreg' : ¬ (us.seats.lookup seat).getD false = true := by
          rw [SyncUsers.getD_eq_true]
          simpa [Sync.regs, hus] using hreg
        simp only [if_neg hreg']
  · rfl

/-- A call for a seat that has not called before adds one. -/
theorem card_filter_cons {regs : Finset ℤ} {arrived : List ℤ} {seat : ℤ} (hreg : seat ∈ regs)
    (hout : seat ∉ arrived) :
    (regs.filter fun k => k ∈ seat :: arrived).card =
      (regs.filter fun k => k ∈ arrived).card + 1 := by
  have heq : (regs.filter fun k => k ∈ seat :: arrived) =
      insert seat (regs.filter fun k => k ∈ arrived) := by
    ext k
    simp only [Finset.mem_filter, List.mem_cons, Finset.mem_insert]
    constructor
    · rintro ⟨hk, rfl | ha⟩
      · exact Or.inl rfl
      · exact Or.inr ⟨hk, ha⟩
    · rintro (rfl | ⟨hk, ha⟩)
      · exact ⟨hreg, Or.inl rfl⟩
      · exact ⟨hk, Or.inr ha⟩
  rw [heq, Finset.card_insert_of_notMem]
  exact fun hmem => hout (Finset.mem_filter.1 hmem).2

/-- **`sync:arrive`** keeps the count right, and it releases the wait exactly if it makes it due. -/
theorem Counts.arrive (h : Counts b) {st : St} {seat : ℤ}
    (hfair : b.fair (.arrive st seat) = true) :
    Counts (b.step (.arrive st seat)) ∧ (b.sync.waiting.isSome →
      ((b.step (.arrive st seat)).sync.waiting = none ↔ (b.step (.arrive st seat)).due)) := by
  by_cases hw : b.sync.waiting = some st
  swap
  · -- another wait, or none: nothing happens
    have heq : b.step (.arrive st seat) = b := by
      simp only [step, arrive_other (Or.inl hw), if_neg hw]
    rw [heq]
    exact ⟨h, h.goes_on⟩
  have hsome : b.sync.waiting.isSome := by rw [hw]; rfl
  obtain ⟨us, hus, hcounter, k, hk, hkout⟩ := h.counter hsome
  have hregs : b.sync.regs = us.regs := by rw [Sync.regs, hus]; rfl
  by_cases hreg : seat ∈ us.regs
  swap
  · -- a seat that is not registered
    have heq : b.step (.arrive st seat) = ⟨b.sync, seat :: b.arrived⟩ := by
      simp only [step, arrive_other (Or.inr (hregs ▸ hreg)), if_pos hw]
    have hne : ∀ k ∈ us.regs, k ≠ seat := fun k hk he => hreg (he ▸ hk)
    have hmem : ∀ k ∈ us.regs, (k ∈ seat :: b.arrived ↔ k ∈ b.arrived) := fun k hk => by
      rw [List.mem_cons, or_iff_right (hne k hk)]
    have hc : Counts ⟨b.sync, seat :: b.arrived⟩ := by
      refine ⟨h.count, fun _ => ⟨us, hus, ?_, k, hk, ?_⟩⟩
      · rw [hcounter, Finset.filter_congr hmem]
      · exact fun hin => hkout ((hmem k hk).1 hin)
    rw [heq]
    exact ⟨hc, fun hsome => hc.goes_on hsome⟩
  -- a registered seat calls for the first time
  have hout : seat ∉ b.arrived := by simpa [fair, hw, hregs, hreg] using hfair
  have hcard := card_filter_cons hreg hout
  have hcount := h.count us hus
  by_cases hlast : us.count = us.counter + 1
  · have heq : b.step (.arrive st seat) =
        ⟨⟨some { us with counter := 0 }, none, some .message⟩, seat :: b.arrived⟩ := by
      simp only [step, arrive_registered hw hus hreg, if_pos hlast, if_pos hw]
    rw [heq]
    refine ⟨⟨?_, fun hw' => by cases hw'⟩, fun _ => ⟨fun _ => ?_, fun _ => rfl⟩⟩
    · intro us' hus'
      obtain rfl := Option.some_inj.1 hus'
      exact hcount
    · -- as many registered seats have called as there are
      have hall : (us.regs.filter fun k => k ∈ seat :: b.arrived) = us.regs := by
        refine Finset.eq_of_subset_of_card_le (Finset.filter_subset _ _) ?_
        omega
      intro k hk
      have hk : k ∈ us.regs := hk
      rw [← hall] at hk
      exact (Finset.mem_filter.1 hk).2
  · have heq : b.step (.arrive st seat) =
        ⟨{ b.sync with users := some { us with counter := us.counter + 1 } },
        seat :: b.arrived⟩ := by
      simp only [step, arrive_registered hw hus hreg, if_neg hlast, if_pos hw]
    have hlt : (us.regs.filter fun k => k ∈ seat :: b.arrived).card < us.regs.card := by
      have hle := Finset.card_le_card
        (Finset.filter_subset (fun k => k ∈ seat :: b.arrived) us.regs)
      omega
    obtain ⟨k', hk', hkout'⟩ := Finset.exists_mem_notMem_of_card_lt_card hlt
    have hc : Counts
        ⟨{ b.sync with users := some { us with counter := us.counter + 1 } },
        seat :: b.arrived⟩ := by
      refine ⟨?_, fun _ =>
        ⟨_, rfl, ?_, k', hk', fun hin => hkout' (Finset.mem_filter.2 ⟨hk', hin⟩)⟩⟩
      · intro us' hus'
        obtain rfl := Option.some_inj.1 hus'
        exact hcount
      · rw [show SyncUsers.regs { us with counter := us.counter + 1 } = us.regs from rfl, hcard]
        push_cast
        omega
    rw [heq]
    exact ⟨hc, fun hsome => hc.goes_on hsome⟩

/-- A time-out ends the wait and leaves the count as it is. -/
theorem Counts.timeout (h : Counts b) : Counts (b.step .timeout) := by
  unfold step
  dsimp only
  split
  · unfold Sync.resumed
    split
    · exact ⟨h.count, fun hw => by cases hw⟩
    · exact h
  · exact h

/-- **One operation** that meets the condition. -/
theorem Counts.step (h : Counts b) {op : Op} (hfair : b.fair op = true) : Counts (b.step op) := by
  cases op with
  | add seat ud => exact h.add hfair
  | wait st => exact h.wait hfair
  | arrive st seat => exact (h.arrive hfair).1
  | timeout => exact h.timeout

/-- A sequence of operations that meet the condition. -/
theorem Counts.run (h : Counts b) {ops : List Op} (hfair : b.fairRun ops = true) :
    Counts (b.run ops) := by
  induction ops generalizing b with
  | nil => exact h
  | cons op ops ih =>
      simp only [fairRun, Bool.and_eq_true] at hfair
      exact ih (h.step hfair.1) hfair.2

theorem fairRun_append {ops ops' : List Op} :
    b.fairRun (ops ++ ops') = (b.fairRun ops && (b.run ops).fairRun ops') := by
  induction ops generalizing b with
  | nil => rfl
  | cons op ops ih =>
      simp only [List.cons_append, fairRun, ih, Bool.and_assoc, run, List.foldl_cons]

/-- **A wait is released exactly when it is due**: at every moment of every run that meets the
condition, the wait that goes on is not due, and the next arrival releases it exactly if it makes it
due. -/
theorem exactAt_of_fair {ops : List Op} {op : Op}
    (hfair : Barrier.fairRun {} (ops ++ [op]) = true) : ExactAt (Barrier.run {} ops) op := by
  rw [fairRun_append, Bool.and_eq_true] at hfair
  have hc : Counts (Barrier.run {} ops) := counts_new.run hfair.1
  intro hw
  refine ⟨hc.not_due hw, ?_⟩
  rintro st seat rfl
  have hop : (Barrier.run {} ops).fair (.arrive st seat) = true := by
    simpa [fairRun] using hfair.2
  exact (hc.arrive hop).2 hw

/-- Two seats arrive once each, in a second wait after a first that timed out. -/
theorem exactAt_twoSeats :
    ExactAt (Barrier.run {} [.add 1 true, .add 2 true, .wait .banker, .timeout, .wait .gamerun,
      .arrive .gamerun 2]) (.arrive .gamerun 1) ∧
    (Barrier.run {} [.add 1 true, .add 2 true, .wait .banker, .timeout, .wait .gamerun,
      .arrive .gamerun 2, .arrive .gamerun 1]).sync.waiting = none :=
  ⟨exactAt_of_fair (by decide +kernel), by decide +kernel⟩

/-- **Repeated and left-over arrivals release a wait early**: one seat that arrives twice does, and
so does an arrival in an earlier wait that timed out. -/
theorem repeated_arrival_releases :
    ¬ ExactAt (Barrier.run {} [.add 1 true, .add 2 true, .wait .banker, .arrive .banker 1])
      (.arrive .banker 1) ∧
    ¬ ExactAt (Barrier.run {} [.add 1 true, .add 2 true, .wait .banker, .arrive .banker 1, .timeout,
      .wait .gamerun]) (.arrive .gamerun 1) := by
  constructor
  · intro h
    have hdue := ((h (by decide +kernel)).2 .banker 1 rfl).1 (by decide +kernel) 2
      (by decide +kernel)
    exact absurd hdue (by decide +kernel)
  · intro h
    have hdue := ((h (by decide +kernel)).2 .gamerun 1 rfl).1 (by decide +kernel) 2
      (by decide +kernel)
    exact absurd hdue (by decide +kernel)

end Barrier

end Halieutics
