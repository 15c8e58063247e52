/-
**Hierarchical timing wheels.**

A timing wheel keeps its entries in lists, one for each slot.  The slots of the lowest level are one
tick each; those of the next level are as long as all slots of the level below.  An entry is in the
lowest level at which its deadline and the present time are in one turn of the wheel, so it moves
down as time goes by: whenever a slot of a higher level is entered, its entries are put in again.

Only one list has to move at a tick.  Where an entry belongs depends on its deadline and on the time
alone, and the entries of the other lists still belong where they are
(`TimingWheel.Gears.slot_succ`).  The lists below the one that moves are empty then, so the entries
of a slot are always in the order in which they have come.

Main definitions:

* `TimingWheel.Gears` — the sizes of the slots;
* `TimingWheel.Gears.level`, `TimingWheel.Gears.slot` — **where a deadline belongs**;
* `TimingWheel.Gears.turn` — the level that moves at a tick;
* `TimingWheel.Gears.add`, `TimingWheel.Gears.cascade`, `TimingWheel.Gears.clear` — the operations;
* `TimingWheel.Gears.Holds` — **every entry is where it belongs**.

Main results:

* `TimingWheel.Gears.slot_succ` — what belongs where, one tick later;
* `TimingWheel.Gears.Holds.cascade` — **one tick**;
* `TimingWheel.Gears.Holds.atTime` — the slot of the present time has exactly what is due, in order.
-/

import Mathlib.Data.Nat.Find
import Mathlib.Data.List.Basic
import Mathlib.Data.Nat.ModEq
import Mathlib.Logic.Function.Basic
import Mathlib.Tactic.Linarith

set_option relaxedAutoImplicit false
set_option autoImplicit false

namespace TimingWheel

/-! ### Slots -/

/-- **The gears of a wheel**: a slot of level `i` has `size i` ticks, and the levels are those up to
`top`. -/
structure Gears where
  top : ℕ
  size : ℕ → ℕ
  size_zero : size 0 = 1
  dvd : ∀ i, size i ∣ size (i + 1)
  lt : ∀ i, size i < size (i + 1)

namespace Gears

variable (g : Gears)

/-- The number of slots of level `i`. -/
def slots (i : ℕ) : ℕ := g.size (i + 1) / g.size i

/-- The slot of level `i` to which `t` belongs. -/
def slotAt (i t : ℕ) : ℕ × ℕ := (i, t / g.size i % g.slots i)

/-- **The level of a deadline**: the lowest one at which it is in the turn of the present time. -/
def level (now e : ℕ) : ℕ :=
  Nat.find (⟨g.top, Or.inl rfl⟩ : ∃ i, i = g.top ∨ e / g.size (i + 1) = now / g.size (i + 1))

/-- **The slot of a deadline.** -/
def slot (now e : ℕ) : ℕ × ℕ := g.slotAt (g.level now e) e

/-- **The level that moves** when the time becomes `t`. -/
def turn (t : ℕ) : ℕ := Nat.findGreatest (fun i => g.size i ∣ t) g.top

/-- A deadline is ahead, and by less than the whole wheel without one slot of its top level. -/
def Ahead (now e : ℕ) : Prop := now < e ∧ e + g.size g.top < now + g.size (g.top + 1)

end Gears

section Arithmetic

variable {g : Gears} {now e i j t : ℕ}

theorem Gears.size_pos (g : Gears) (i : ℕ) : 0 < g.size i := by
  cases i with
  | zero =>
      rw [g.size_zero]
      exact Nat.one_pos
  | succ i => exact Nat.zero_lt_of_lt (g.lt i)

theorem Gears.size_mul_slots (g : Gears) (i : ℕ) : g.size i * g.slots i = g.size (i + 1) :=
  Nat.mul_div_cancel' (g.dvd i)

theorem Gears.size_dvd_size (g : Gears) (h : i ≤ j) : g.size i ∣ g.size j := by
  induction h with
  | refl => exact dvd_rfl
  | step _ ih => exact ih.trans (g.dvd _)

/-- One more tick begins a new slot, or is in the old one. -/
theorem div_succ (now m : ℕ) : (now + 1) / m = now / m + if m ∣ now + 1 then 1 else 0 :=
  Nat.succ_div

/-- Two times in one slot are in one slot of every higher level. -/
theorem Gears.div_congr (g : Gears) (h : i ≤ j) (hdiv : e / g.size i = t / g.size i) :
    e / g.size j = t / g.size j := by
  obtain ⟨c, hc⟩ := g.size_dvd_size h
  rw [hc, ← Nat.div_div_eq_div_mul, ← Nat.div_div_eq_div_mul, hdiv]

theorem Gears.level_le (g : Gears) (now e : ℕ) :
    g.level now e ≤ g.top := Nat.find_min' _ (Or.inl rfl)

theorem Gears.level_le_of_div (h : e / g.size (i + 1) = now / g.size (i + 1)) : g.level now e ≤ i :=
  Nat.find_min' _ (Or.inr h)

theorem Gears.div_level (h : g.level now e < g.top) :
    e / g.size (g.level now e + 1) = now / g.size (g.level now e + 1) :=
  (Nat.find_spec (⟨g.top, Or.inl rfl⟩ : ∃ i,
    i = g.top ∨ e / g.size (i + 1) = now / g.size (i + 1))).resolve_left h.ne

/-- The level is the first one at which the turns agree. -/
theorem Gears.level_eq (htop : i ≤ g.top)
    (hdiv : i < g.top → e / g.size (i + 1) = now / g.size (i + 1))
    (hbelow : ∀ i' < i, e / g.size (i' + 1) ≠ now / g.size (i' + 1)) : g.level now e = i := by
  refine (Nat.find_eq_iff _).2 ⟨?_, fun i' hi' => ?_⟩
  · rcases htop.lt_or_eq with hlt | heq
    · exact Or.inr (hdiv hlt)
    · exact Or.inl heq
  · rintro (rfl | h)
    · omega
    · exact hbelow i' hi' h

theorem Gears.turn_le (g : Gears) (t : ℕ) : g.turn t ≤ g.top := Nat.findGreatest_le _

theorem Gears.size_turn_dvd (g : Gears) (t : ℕ) : g.size (g.turn t) ∣ t := by
  refine Nat.findGreatest_spec (P := fun i => g.size i ∣ t) (Nat.zero_le g.top) ?_
  rw [g.size_zero]
  exact one_dvd t

/-- The level that moves is the last one of which a slot is entered. -/
theorem Gears.turn_eq (htop : i ≤ g.top) (hdvd : g.size i ∣ t)
    (hnot : i < g.top → ¬ g.size (i + 1) ∣ t) :
    g.turn t = i := by
  refine Nat.findGreatest_eq_iff.2 ⟨htop, fun _ => hdvd, fun j hij hj hd => ?_⟩
  exact hnot (hij.trans_le hj) ((g.size_dvd_size hij).trans hd)

/-- No slot of a higher level is entered. -/
theorem Gears.div_of_turn_lt (hi : g.turn (now + 1) < i) (htop : i ≤ g.top) :
    (now + 1) / g.size i = now / g.size i := by
  rw [div_succ, if_neg (Nat.findGreatest_is_greatest hi htop), add_zero]

/-- A deadline ahead is in no list below the one that moves. -/
theorem Gears.turn_le_level (h : now < e) : g.turn (now + 1) ≤ g.level now e := by
  by_contra hlt
  have hlt : g.level now e < g.turn (now + 1) := Nat.lt_of_not_le hlt
  have hdiv := g.div_level (hlt.trans_le (g.turn_le _))
  have hdvd : g.size (g.level now e + 1) ∣ now + 1 :=
    (g.size_dvd_size hlt).trans (g.size_turn_dvd _)
  have hnext : (now + 1) / g.size (g.level now e + 1) = now / g.size (g.level now e + 1) + 1 := by
    rw [div_succ, if_pos hdvd]
  have hle : (now + 1) / g.size (g.level now e + 1) ≤ e / g.size (g.level now e + 1) :=
    Nat.div_le_div_right h
  omega

/-- **What is in the slot that moves is in the present one.** -/
theorem Gears.div_of_slot_turn (h : g.Ahead now e)
    (hslot : g.slot now e = g.slotAt (g.turn (now + 1)) (now + 1)) :
    e / g.size (g.turn (now + 1)) = (now + 1) / g.size (g.turn (now + 1)) := by
  have hlevel : g.level now e = g.turn (now + 1) := congrArg Prod.fst hslot
  have hmod : e / g.size (g.level now e) % g.slots (g.level now e) =
      (now + 1) / g.size (g.turn (now + 1)) % g.slots (g.turn (now + 1)) := congrArg Prod.snd hslot
  rw [hlevel] at hmod
  rcases (g.turn_le (now + 1)).lt_or_eq with hlt | heq
  · -- the turns agree, and the places in it
    have hdiv := g.div_level (hlevel ▸ hlt)
    rw [hlevel, ← g.div_of_turn_lt (Nat.lt_succ_self _) hlt, ← g.size_mul_slots,
      ← Nat.div_div_eq_div_mul,
      ← Nat.div_div_eq_div_mul] at hdiv
    rw [← Nat.div_add_mod (e / g.size (g.turn (now + 1))) (g.slots (g.turn (now + 1))), hdiv, hmod,
      Nat.div_add_mod]
  · -- at the top the deadline is not a whole turn ahead
    obtain ⟨hlater, hbound⟩ := h
    rw [heq] at hmod ⊢
    set m := g.size g.top with hm
    set c := g.slots g.top with hc
    have hmc : m * c = g.size (g.top + 1) := g.size_mul_slots g.top
    have hdvd : m ∣ now + 1 := by
      rw [hm, ← heq]
      exact g.size_turn_dvd _
    have hle : (now + 1) / m ≤ e / m := Nat.div_le_div_right hlater
    have hlt : e / m < (now + 1) / m + c := by
      rw [Nat.div_lt_iff_lt_mul (g.size_pos _), Nat.add_mul, Nat.div_mul_cancel hdvd,
        mul_comm c m, hmc]
      omega
    obtain ⟨q, hq⟩ := Nat.exists_eq_add_of_le hle
    have hcong : ((now + 1) / m + q) % c = ((now + 1) / m + 0) % c := by
      rw [← hq, hmod, add_zero]
    have hq0 : q % c = 0 % c := Nat.ModEq.add_left_cancel' ((now + 1) / m) hcong
    have hzero : q = 0 := by
      rw [Nat.zero_mod, Nat.mod_eq_of_lt (by omega)] at hq0
      exact hq0
    rw [hq, hzero, add_zero]

/-- **One tick later** a deadline belongs where it was, unless it is in the slot that moves; then it
belongs further down. -/
theorem Gears.slot_succ (h : g.Ahead now e) :
    (g.slot now e ≠ g.slotAt (g.turn (now + 1)) (now + 1) → g.slot (now + 1) e = g.slot now e) ∧
      (g.slot now e = g.slotAt (g.turn (now + 1)) (now + 1) → 0 < g.turn (now + 1) →
        g.level (now + 1) e < g.turn (now + 1)) := by
  have hturn := g.turn_le_level h.1
  refine ⟨fun hne => ?_, fun heq hpos => ?_⟩
  · have hlevel : g.level (now + 1) e = g.level now e := by
      refine g.level_eq (g.level_le now e) (fun hlt => ?_) fun i' hi' hdiv => ?_
      · rw [g.div_level hlt, g.div_of_turn_lt (Nat.lt_succ_of_le hturn) hlt]
      · have hbefore : e / g.size (i' + 1) ≠ now / g.size (i' + 1) := fun hd =>
          absurd (g.level_le_of_div hd) (Nat.not_le_of_lt hi')
        rcases Nat.lt_or_ge (g.turn (now + 1)) (i' + 1) with hlt | hge
        · -- no slot of this level is entered
          rw [g.div_of_turn_lt hlt (by have := g.level_le now e; omega)] at hdiv
          exact hbefore hdiv
        · -- the deadline is in the slot that is entered
          have hdiv := g.div_congr hge hdiv
          rcases hturn.lt_or_eq with hlt | heq
          · have hup := g.div_congr (Nat.le_succ (g.turn (now + 1))) hdiv
            have htop : g.turn (now + 1) + 1 ≤ g.top := Nat.le_trans hlt (g.level_le now e)
            rw [g.div_of_turn_lt (Nat.lt_succ_self _) htop] at hup
            exact absurd (g.level_le_of_div hup) (Nat.not_le_of_lt hlt)
          · refine hne ?_
            rw [slot, ← heq, slotAt, slotAt, hdiv]
    rw [slot, slot, hlevel]
  · have hdiv := g.div_of_slot_turn h heq
    obtain ⟨i, hi⟩ := Nat.exists_eq_add_of_lt hpos
    rw [Nat.zero_add] at hi
    rw [hi] at hdiv ⊢
    exact Nat.lt_succ_of_le (g.level_le_of_div hdiv)

/-- **The slot of the present time** has only what is due. -/
theorem Gears.slot_eq_now (h : e = now ∨ g.Ahead now e) : g.slot now e = g.slotAt 0 now ↔
    e = now := by
  constructor
  · intro hslot
    rcases h with rfl | hahead
    · rfl
    · have hlevel : g.level now e = 0 := congrArg Prod.fst hslot
      have hmod : e / g.size (g.level now e) % g.slots (g.level now e) =
        now / g.size 0 % g.slots 0 :=
        congrArg Prod.snd hslot
      rw [hlevel, g.size_zero, Nat.div_one, Nat.div_one] at hmod
      have hslots : g.slots 0 = g.size 1 := by rw [slots, g.size_zero, Nat.div_one]
      rw [hslots] at hmod
      obtain ⟨hlater, hbound⟩ := hahead
      rcases Nat.eq_zero_or_pos g.top with htop | htop
      · -- a wheel with one level
        rw [htop, g.size_zero, Nat.zero_add] at hbound
        obtain ⟨q, rfl⟩ := Nat.exists_eq_add_of_lt hlater
        have hq0 : (q + 1) % g.size 1 = 0 % g.size 1 :=
          Nat.ModEq.add_left_cancel' now (by rw [add_zero, ← add_assoc]; exact hmod)
        rw [Nat.zero_mod, Nat.mod_eq_of_lt (by omega)] at hq0
        omega
      · have hdiv := g.div_level (show g.level now e < g.top by omega)
        rw [hlevel] at hdiv
        rw [← Nat.div_add_mod e (g.size 1), hdiv, hmod, Nat.div_add_mod]
  · rintro rfl
    have hlevel : g.level e e = 0 := g.level_eq (Nat.zero_le _) (fun _ => rfl) fun _ h =>
      absurd h (Nat.not_lt_zero _)
    rw [slot, hlevel]

end Arithmetic

/-! ### The wheel -/

/-- The lists of a wheel. -/
abbrev Wheel (α : Type) := ℕ × ℕ → List α

section TheWheel

variable {α : Type} (g : Gears) (due : α → ℕ)

/-- An entry is put in. -/
def Gears.add (now : ℕ) (w : Wheel α) (x : α) : Wheel α :=
  Function.update w (g.slot now (due x)) (w (g.slot now (due x)) ++ [x])

/-- The entries of a slot are put in again. -/
def Gears.refill (now : ℕ) (w : Wheel α) (p : ℕ × ℕ) : Wheel α :=
  (w p).foldl (g.add due now) (Function.update w p [])

/-- **The wheel moves** when the time becomes `t`. -/
def Gears.cascade (t : ℕ) (w : Wheel α) : Wheel α :=
  if 0 < g.turn t then g.refill due t w (g.slotAt (g.turn t) t) else w

/-- The slot of the present time is emptied. -/
def Gears.clear (now : ℕ) (w : Wheel α) : Wheel α := Function.update w (g.slotAt 0 now) []

/-- **Every entry is where it belongs**, and the entries of a slot are in their order. -/
def Gears.Holds (now : ℕ) (w : Wheel α) (xs : List α) : Prop :=
  ∀ p, w p = xs.filter fun x => g.slot now (due x) = p

variable {g due} {now : ℕ} {w : Wheel α} {xs : List α}

/-- The empty wheel. -/
theorem Gears.holds_nil (now : ℕ) : g.Holds due now (fun _ => []) [] := fun _ => rfl

theorem Gears.Holds.add (h : g.Holds due now w xs) (x : α) :
    g.Holds due now (g.add due now w x) (xs ++ [x]) := by
  intro p
  rw [List.filter_append]
  by_cases hp : g.slot now (due x) = p
  · subst hp
    rw [Gears.add, Function.update_self, h, List.filter_cons_of_pos (by simp), List.filter_nil]
  · rw [Gears.add, Function.update_of_ne (Ne.symm hp), h,
      List.filter_cons_of_neg (by simpa using hp),
      List.filter_nil, List.append_nil]

/-- Adding the entries of a list one by one. -/
theorem Gears.foldl_add (ys : List α) (w : Wheel α) (p : ℕ × ℕ) :
    ys.foldl (g.add due now) w p = w p ++ ys.filter fun x => g.slot now (due x) = p := by
  induction ys generalizing w with
  | nil => rw [List.foldl_nil, List.filter_nil, List.append_nil]
  | cons y ys ih =>
      rw [List.foldl_cons, ih]
      by_cases hp : g.slot now (due y) = p
      · subst hp
        rw [Gears.add, Function.update_self, List.filter_cons_of_pos (by simp), List.append_assoc,
          List.singleton_append]
      · rw [Gears.add, Function.update_of_ne (Ne.symm hp),
          List.filter_cons_of_neg (by simpa using hp)]

/-- **One tick**: the wheel moves, and every entry is where it belongs. -/
theorem Gears.Holds.cascade (h : g.Holds due now w xs) (hahead : ∀ x ∈ xs, g.Ahead now (due x)) :
    g.Holds due (now + 1) (g.cascade due (now + 1) w) xs := by
  set m := g.slotAt (g.turn (now + 1)) (now + 1) with hm
  intro p
  rw [Gears.cascade]
  split
  · rename_i hpos
    rw [Gears.refill, Gears.foldl_add, h m, List.filter_filter]
    -- the part that has not moved, and the part that has
    by_cases hp : p.1 < g.turn (now + 1)
    · have hne : p ≠ m := fun heq => absurd (congrArg Prod.fst heq) (Nat.ne_of_lt hp)
      have hold : w p = [] := by
        rw [h p, List.filter_eq_nil_iff]
        intro x hx heq
        have hlevel : g.level now (due x) = p.1 := congrArg Prod.fst (of_decide_eq_true heq)
        have := g.turn_le_level (hahead x hx).1
        omega
      rw [Function.update_of_ne hne, hold, List.nil_append]
      refine List.filter_congr fun x hx => ?_
      by_cases hslot : g.slot now (due x) = m
      · simp only [hslot, decide_true, Bool.and_true]
      · have hstay := (g.slot_succ (hahead x hx)).1 hslot
        have hlevel := g.turn_le_level (hahead x hx).1
        have hout : g.slot (now + 1) (due x) ≠ p := by
          rw [hstay]
          intro heq
          have : g.level now (due x) = p.1 := congrArg Prod.fst heq
          omega
        simp only [hout, decide_false, Bool.false_and]
    · have hmoved : (xs.filter fun x => decide (g.slot (now + 1) (due x) = p) && decide
        (g.slot now (due x) = m)) =
          [] := by
        rw [List.filter_eq_nil_iff]
        intro x hx hboth
        obtain ⟨hto, hfrom⟩ := (Bool.and_eq_true _ _).mp hboth
        have hlt := (g.slot_succ (hahead x hx)).2 (of_decide_eq_true hfrom) hpos
        have hlevel : g.level (now + 1) (due x) = p.1 := congrArg Prod.fst (of_decide_eq_true hto)
        omega
      rw [hmoved, List.append_nil]
      by_cases hpm : p = m
      · subst hpm
        rw [Function.update_self, eq_comm, List.filter_eq_nil_iff]
        intro x hx hto
        have hto := of_decide_eq_true hto
        by_cases hslot : g.slot now (due x) = m
        · have hlt := (g.slot_succ (hahead x hx)).2 hslot hpos
          have hlevel : g.level (now + 1) (due x) = g.turn (now + 1) := congrArg Prod.fst hto
          omega
        · exact hslot ((g.slot_succ (hahead x hx)).1 hslot ▸ hto)
      · rw [Function.update_of_ne hpm, h p]
        refine List.filter_congr fun x hx => ?_
        by_cases hslot : g.slot now (due x) = m
        · have hlt := (g.slot_succ (hahead x hx)).2 hslot hpos
          have hout : g.slot (now + 1) (due x) ≠ p := by
            intro heq
            have : g.level (now + 1) (due x) = p.1 := congrArg Prod.fst heq
            omega
          simp only [hslot, Ne.symm hpm, hout]
        · rw [(g.slot_succ (hahead x hx)).1 hslot]
  · rename_i hpos
    rw [h p]
    refine List.filter_congr fun x hx => ?_
    have hzero : g.turn (now + 1) = 0 := by omega
    by_cases hslot : g.slot now (due x) = m
    · -- what is due next is in its slot already
      have hdiv := g.div_of_slot_turn (hahead x hx) hslot
      rw [hzero, g.size_zero, Nat.div_one, Nat.div_one] at hdiv
      have hnow : g.slot (now + 1) (due x) = g.slotAt 0 (now + 1) :=
        (g.slot_eq_now (Or.inl hdiv)).2 hdiv
      rw [hslot, hnow, hm, hzero]
    · rw [(g.slot_succ (hahead x hx)).1 hslot]

/-- **What is due is in the slot of the present time**, in order. -/
theorem Gears.Holds.atTime (h : g.Holds due now w xs)
    (hahead : ∀ x ∈ xs, due x = now ∨ g.Ahead now (due x)) :
    w (g.slotAt 0 now) = xs.filter fun x => due x = now := by
  rw [h]
  refine List.filter_congr fun x hx => ?_
  exact decide_eq_decide.2 (g.slot_eq_now (hahead x hx))

/-- It is taken out. -/
theorem Gears.Holds.clear (h : g.Holds due now w xs)
    (hahead : ∀ x ∈ xs, due x = now ∨ g.Ahead now (due x)) :
    g.Holds due now (g.clear now w) (xs.filter fun x => due x ≠ now) := by
  intro p
  rw [List.filter_filter]
  by_cases hp : p = g.slotAt 0 now
  · subst hp
    rw [Gears.clear, Function.update_self, eq_comm, List.filter_eq_nil_iff]
    intro x hx hboth
    obtain ⟨hslot, hne⟩ := (Bool.and_eq_true _ _).mp hboth
    exact of_decide_eq_true hne ((g.slot_eq_now (hahead x hx)).1 (of_decide_eq_true hslot))
  · rw [Gears.clear, Function.update_of_ne hp, h p]
    refine List.filter_congr fun x hx => ?_
    by_cases hslot : g.slot now (due x) = p
    · have hne : due x ≠ now := fun hdue => hp (hslot ▸ (g.slot_eq_now (hahead x hx)).2 hdue)
      simp only [hslot, hne, ne_eq, not_false_eq_true, decide_true, Bool.and_self]
    · simp only [hslot, decide_false, Bool.false_and]

end TheWheel

end TimingWheel
