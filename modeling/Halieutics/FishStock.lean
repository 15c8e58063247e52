/-
**The shared stock.**

All desks of all desk services share one number, `fish:stock`, that the service `gmdb` keeps.
`catchfish` reads it with one message, decides, and pays with another; `d.cs` puts the commands of
one desk in order, but nothing puts those of two desks in order.  This module puts any number of
desks together with the stock.

A call to `gmdb` is answered when it is executed, and the answer may take its time: the answer to
`get_stock` is the stock, or what the stock was before.

Main definitions:

* `Halieutics.Shoal`, `Halieutics.Shoal.exec`, `Halieutics.Shoal.Reach` — the desks and the stock,
  an event of one of the desks, and the states reachable under a condition;
* `Halieutics.Fresh` — **the condition**: whoever pays has read no more than there is.

Main results:

* `Halieutics.catch_origin` — where a catch in flight comes from;
* `Halieutics.pay_reach` — whoever pays has checked that the stock he read covers the fish;
* `Halieutics.covered_of_fresh` — **the stock is never overdrawn** under the condition;
* `Halieutics.two_desks_overdraw` — two desks pay from the same stock.
-/

import Halieutics.DeskAlone
import Halieutics.FishScores

set_option relaxedAutoImplicit false
set_option autoImplicit false

namespace Halieutics

open LuaTable Coroutine

/-! ### Desks and stock -/

/-- The desks of all services, and the stock: its value, the values it has had, and the fish that
were paid, each with the stock at that moment. -/
structure Shoal (ι : Type) where
  desks : ι → Sys
  stock : ℤ
  past : List ℤ := []
  paid : List (ℤ × Catch) := []

/-- The point from which an event goes on. -/
def pcOf (s : Sys) : Ev → Option Pc
  | .call _ _ => none
  | .resume k _ => s.cos[k]?.map Co.pc

/-- What the call that an event has executed adds to the stock. -/
def stockChange (s : Sys) (e : Ev) : ℤ :=
  match pcOf s e with
  | some (.fish (.miss c)) => c.multiple
  | some (.fish (.pay c)) => c.multiple - c.score
  | some (.fish (.sweep _ score)) => score
  | _ => 0

/-- The fish that an event has paid. -/
def paidFish (s : Sys) (e : Ev) : Option Catch :=
  match pcOf s e with
  | some (.fish (.pay c)) => some c
  | _ => none

/-- The answer to `get_stock` is the stock, now or before. -/
def Shoal.answers {ι : Type} (w : Shoal ι) (i : ι) (e : Ev) : Bool :=
  match e, pcOf (w.desks i) e with
  | .resume _ inp, some (.fish (.stock _)) => decide (inp.ret ∈ w.stock :: w.past)
  | _, _ => true

namespace Shoal

variable {ι : Type} [DecidableEq ι]

/-- **An event of one of the desks.** -/
def exec (w : Shoal ι) (i : ι) (e : Ev) : Option (Shoal ι) :=
  if w.answers i e then
    (desk.exec (w.desks i) e).map fun s =>
      { desks := Function.update w.desks i s
        stock := w.stock + stockChange (w.desks i) e
        past := w.stock :: w.past
        paid := (paidFish (w.desks i) e).toList.map (fun c => (w.stock, c)) ++ w.paid }
  else none

/-- The states reachable by events that meet a condition. -/
inductive Reach (C : Shoal ι → ι → Ev → Prop) (w₀ : Shoal ι) : Shoal ι → Prop
  | init : Reach C w₀ w₀
  | step {w w' : Shoal ι} {i : ι} {e : Ev} :
      Reach C w₀ w → C w i e → w.exec i e = some w' → Reach C w₀ w'

/-- A schedule of events, each of which is checked against a condition. -/
def run (C : Shoal ι → ι → Ev → Prop) [∀ w i e, Decidable (C w i e)] (w : Shoal ι) :
    List (ι × Ev) → Option (Shoal ι)
  | [] => some w
  | (i, e) :: es => if C w i e then (w.exec i e).bind fun w' => run C w' es else none

theorem exec_eq_some {w w' : Shoal ι} {i : ι} {e : Ev} (h : w.exec i e = some w') :
    w.answers i e = true ∧ ∃ s, desk.exec (w.desks i) e = some s ∧
      w' = { desks := Function.update w.desks i s
             stock := w.stock + stockChange (w.desks i) e
             past := w.stock :: w.past
             paid := (paidFish (w.desks i) e).toList.map (fun c => (w.stock, c)) ++ w.paid } := by
  unfold exec at h
  split at h
  · obtain ⟨s, hs, rfl⟩ := Option.map_eq_some_iff.1 h
    exact ⟨by assumption, s, hs, rfl⟩
  · simp at h

theorem reach_of_run {C : Shoal ι → ι → Ev → Prop} [∀ w i e, Decidable (C w i e)] {w₀ : Shoal ι}
    {es : List (ι × Ev)} {w w' : Shoal ι} (hw : Reach C w₀ w) (h : run C w es = some w') :
    Reach C w₀ w' := by
  induction es generalizing w with
  | nil =>
      obtain rfl := Option.some_inj.1 h
      exact hw
  | cons p es ih =>
      by_cases hc : C w p.1 p.2
      · simp only [run, hc, if_true] at h
        obtain ⟨w₁, he, h⟩ := Option.bind_eq_some_iff.1 h
        exact ih (.step hw hc he) h
      · simp [run, hc] at h

/-- Running a schedule and testing the state it ends in finds a reachable state. -/
theorem exists_reach {C : Shoal ι → ι → Ev → Prop} [∀ w i e, Decidable (C w i e)] {i : Shoal ι}
    (es : List (ι × Ev)) {p : Shoal ι → Bool} (h : (run C i es).any p = true) :
    ∃ w, Reach C i w ∧ p w = true := by
  obtain ⟨w, hw, hp⟩ := (Option.any_eq_true _ _).1 h
  exact ⟨w, reach_of_run .init hw, hp⟩

/-- Each desk runs as it does alone. -/
theorem Reach.desk {C : Shoal ι → ι → Ev → Prop} {w₀ w : Shoal ι} (h : Reach C w₀ w) (i : ι) :
    Halieutics.desk.Reach Always (w₀.desks i) (w.desks i) := by
  induction h with
  | init => exact .init
  | @step w w' j e _ _ he ih =>
      obtain ⟨-, s, hs, rfl⟩ := exec_eq_some he
      by_cases hij : i = j
      · subst hij
        simpa using ih.step trivial hs
      · simpa [Function.update_of_ne hij] using ih

end Shoal

/-! ### Paying -/

/-- What `catchfish` checks before it pays. -/
def Catch.covered (c : Catch) (stock : ℤ) : Prop := 0 ≤ stock + c.multiple - c.score

instance (c : Catch) (stock : ℤ) :
    Decidable (c.covered stock) := inferInstanceAs (Decidable (0 ≤ _))

theorem catchStock_pay {d d' : Desk} {c c' : Catch} {inp : Inp}
    (h : catchStock d c inp = .wait d' (.pay c')) :
    c'.covered c'.stock ∧ c' = { c with stock := inp.ret } := by
  unfold catchStock at h
  dsimp only at h
  split at h
  · simp at h
  · rename_i hcheck
    split at h
    · split at h <;> simp at h
    · split at h
      · exact absurd h (catchPay_ne_wait _ _)
      · rename_i hhuman
        obtain ⟨-, h⟩ := FishOut.wait.inj h
        obtain rfl := FishPc.pay.inj h
        refine ⟨?_, rfl⟩
        simp only [hhuman, Bool.not_false, and_true, not_lt] at hcheck
        exact hcheck

/-- The catch that a coroutine of `catchfish` is about, until it pays. -/
def Pc.catch? : Pc → Option Catch
  | .fish (.stock c) => some c
  | .fish (.pay c) => some c
  | _ => none

/-- **Where a catch comes from**: a request has found its fish, or the stock is known. -/
theorem catch_origin {d : Desk} {inp : Inp} {j : Job} (ht : ∀ pc ∈ j.pcs, pc.timely d) {pc : Pc}
    {c : Catch} (hm : pc ∈ (j.out d inp).pcs) (hc : pc.catch? = some c) :
    (∃ u req d', j.command d = some (u, .catchfish req) ∧ pc = .fish (.stock c) ∧
      catchfish d u req inp = .wait d' (.stock c)) ∨
    (∃ c₀ d', j = .seg (.fish (.stock c₀)) ∧ pc = .fish (.pay c) ∧
      catchStock (executed d inp (.fish (.stock c₀))) c₀ inp = .wait d' (.pay c)) := by
  have fish : ∀ {o : FishOut}, pc ∈ (Out.fish o).pcs → ∃ d' p, o = .wait d' p ∧ pc = .fish p := by
    intro o hm
    cases o with
    | ret d' r => simp [Out.fish] at hm
    | wait d' p => exact ⟨d', p, rfl, by simpa [Out.fish] using hm⟩
  cases hp : j.plays d with
  | false =>
      have hno := (quiet_job d inp hp).pcs pc hm
      cases pc with
      | fish p => simp [Pc.catching] at hno
      | _ => simp [Pc.catch?] at hc
  | true =>
      have hplays := job_plays d inp hp
      generalize hout : j.out d inp = o at hplays hm
      cases hplays with
      | @fire _ u kind _ =>
          obtain ⟨d', p, h, -⟩ := fish hm
          rcases userfire_cases d u kind inp with
            ⟨r, h'⟩ | ⟨g, k, m, -, -, -, -, ⟨r, h'⟩ | ⟨roles, -, -, h'⟩⟩
          · rw [h'] at h; simp at h
          · rw [h'] at h; simp at h
          · rw [h'] at h; simp at h
      | @hit _ u req hcmd =>
          obtain ⟨d', p, h, rfl⟩ := fish hm
          rcases catchfish_cases d u req inp with
            ⟨r, h'⟩ | ⟨g, _, _, b, -, -, -, ⟨r, h'⟩ | ⟨f, fc, h'⟩⟩
          · rw [h'] at h; simp at h
          · rw [h'] at h; simp at h
          · obtain ⟨-, rfl⟩ := FishOut.wait.inj (h'.symm.trans h)
            obtain rfl := Option.some_inj.1 hc
            exact Or.inl ⟨u, req, d', hcmd, rfl, h⟩
      | @sweep _ u req _ =>
          obtain ⟨d', p, h, rfl⟩ := fish hm
          rcases catchsweepfish_cases d u req inp with
            ⟨r, h'⟩ | ⟨g, _, r', score, -, -, -, ⟨r, h'⟩ | h' | h'⟩
          · rw [h'] at h; simp at h
          · rw [h'] at h; simp at h
          · obtain ⟨r, hs⟩ := sweepPay_cases (d.withRoles g r') req.seatId score
            rw [h', hs] at h
            simp at h
          · obtain ⟨-, rfl⟩ := FishOut.wait.inj (h'.symm.trans h)
            simp [Pc.catch?] at hc
      | @segment p₀ =>
          obtain ⟨d', p, h, rfl⟩ := fish hm
          cases p₀ with
          | stock c₀ =>
              have h : catchStock (executed d inp (.fish (.stock c₀))) c₀ inp = .wait d' p := h
              rcases catchStock_cases (executed d inp (.fish (.stock c₀))) c₀ inp with
                ⟨r, h'⟩ | ⟨c', h'⟩ | ⟨c', h'⟩ | ⟨c', h'⟩
              · rw [h'] at h; simp at h
              · obtain ⟨-, rfl⟩ := FishOut.wait.inj (h'.symm.trans h)
                simp [Pc.catch?] at hc
              · obtain ⟨-, rfl⟩ := FishOut.wait.inj (h'.symm.trans h)
                obtain rfl := Option.some_inj.1 hc
                exact Or.inr ⟨c₀, d', rfl, rfl, h⟩
              · exact absurd (h'.symm.trans h) (catchPay_ne_wait _ _)
          | miss c₀ => simp [fishSegment] at h
          | pay c₀ => exact absurd h (catchPay_ne_wait _ _)
          | sweep seat score =>
              obtain ⟨r, hs⟩ := sweepPay_cases
                (executed d inp (.fish (.sweep seat score))) seat score
              rw [fishSegment, hs] at h
              simp at h
      | timer _ =>
          unfold onTimer at hm
          repeat' split at hm
          all_goals simp at hm
      | @newDesk p₀ hnew =>
          rw [← hout] at hm
          have hno := serving_job d inp (j := .seg p₀) ht (serving_of_newDesk hnew) pc hm
          cases pc with
          | fish p => simp [Pc.serving, Pc.background, Pc.freeing] at hno
          | _ => simp [Pc.catch?] at hc

/-- **Whoever is about to pay has checked the stock he read.** -/
theorem pay_job {d : Desk} {inp : Inp} {j : Job} (ht : ∀ pc ∈ j.pcs, pc.timely d) {c : Catch}
    (hm : .fish (.pay c) ∈ (j.out d inp).pcs) : c.covered c.stock := by
  rcases catch_origin ht hm rfl with ⟨u, req, d', -, h, -⟩ | ⟨c₀, d', -, -, h⟩
  · cases h
  · exact (catchStock_pay h).1

/-- Every coroutine that is about to pay has checked the stock it read. -/
theorem pay_reach {C : Sys → Ev → Prop} {id creater timelimit : ℕ} {pay : Pay} {s : Sys}
    (h : desk.Reach C (created id creater pay timelimit) s) :
    ∀ c, .fish (.pay c) ∈ pcs s → c.covered c.stock := by
  refine desk_inv (I := fun _ l => ∀ c, .fish (.pay c) ∈ l → c.covered c.stock) ?_ ?_ ?_ ?_ ?_
    (h.and_inv fun s hs => one_newDesk hs)
  · exact fun d l l' hp hI c hm => hI c (hp.mem_iff.2 hm)
  · exact fun d l b q hI => hI
  · intro d l u cmd hI c hm
    exact hI c (by simpa using hm)
  · intro c hm
    simp [created, pcs] at hm
  · rintro s e j inp rest ⟨-, hone⟩ hj hp _ hI c hm
    rcases List.mem_append.1 hm with hm | hm
    · exact pay_job (fun pc hm => (hone.perm hp).timely pc (List.mem_append_left _ hm)) hm
    · exact hI c (List.mem_append_right _ hm)

/-! ### The condition -/

/-- **Whoever pays has read no more than there is**: since he read it, the stock has not sunk. -/
def Fresh {ι : Type} (w : Shoal ι) (i : ι) (e : Ev) : Prop :=
  ∀ c ∈ paidFish (w.desks i) e, c.stock ≤ w.stock

instance {ι : Type} (w : Shoal ι) (i : ι) (e : Ev) : Decidable (Fresh w i e) :=
  inferInstanceAs (Decidable (∀ c ∈ paidFish (w.desks i) e, _))

section Runs

variable {ι : Type} [DecidableEq ι]

/-- Desks that have just been created, and a stock. -/
def Shoal.opened (id creater : ι → ℕ) (pay : ι → Pay) (timelimit : ι → ℕ) (stock : ℤ) : Shoal ι :=
  { desks := fun i => created (id i) (creater i) (pay i) (timelimit i), stock := stock }

theorem mem_of_paidFish {s : Sys} {e : Ev} {c : Catch} (h : paidFish s e = some c) :
    pcOf s e = some (.fish (.pay c)) ∧ .fish (.pay c) ∈ pcs s := by
  have hpc : pcOf s e = some (.fish (.pay c)) := by
    unfold paidFish at h
    split at h
    · rename_i c' hc
      obtain rfl := Option.some_inj.1 h
      exact hc
    · simp at h
  refine ⟨hpc, ?_⟩
  cases e with
  | call r inp => simp [pcOf] at hpc
  | resume k inp =>
      obtain ⟨co, hco, hpc⟩ := Option.map_eq_some_iff.1 hpc
      exact List.mem_map.2 ⟨co, List.mem_of_getElem? hco, hpc⟩

/-- A call that does not pay does not lower the stock. -/
theorem stockChange_nonneg {s : Sys} {e : Ev} (h : paidFish s e = none) : 0 ≤ stockChange s e := by
  unfold stockChange
  split
  · exact Int.natCast_nonneg _
  · rename_i c hc
    simp [paidFish, hc] at h
  · exact Int.natCast_nonneg _
  · exact le_refl 0

variable {id creater timelimit : ι → ℕ} {pay : ι → Pay} {stock : ℤ} {w : Shoal ι}

/-- **The stock is never overdrawn** in a run in which whoever pays has read no more than there is:
it stays non-negative, and every fish was covered by the stock from which it was paid. -/
theorem covered_of_fresh (hstock : 0 ≤ stock)
    (h : Shoal.Reach Fresh (.opened id creater pay timelimit stock) w) :
    0 ≤ w.stock ∧ ∀ p ∈ w.paid, p.2.covered p.1 := by
  induction h with
  | init => exact ⟨hstock, fun p hp => absurd hp List.not_mem_nil⟩
  | @step w w' i e hr hC he ih =>
      obtain ⟨-, s, hs, rfl⟩ := Shoal.exec_eq_some he
      have hpay := pay_reach (Shoal.Reach.desk hr i)
      cases hp : paidFish (w.desks i) e with
      | none =>
          refine ⟨?_, by simpa [hp] using ih.2⟩
          have := stockChange_nonneg hp
          have := ih.1
          dsimp only
          omega
      | some c =>
          obtain ⟨hpc, hm⟩ := mem_of_paidFish hp
          have hcov : c.covered w.stock := by
            have h₁ : c.covered c.stock := hpay c hm
            have h₂ := hC c hp
            unfold Catch.covered at h₁ ⊢
            omega
          refine ⟨?_, ?_⟩
          · simp only [stockChange, hpc]
            unfold Catch.covered at hcov
            omega
          · simp only [Option.toList_some, List.map_cons, List.map_nil, List.cons_append,
              List.nil_append, List.mem_cons]
            rintro p (rfl | hpm)
            · exact hcov
            · exact ih.2 p hpm

end Runs

/-- Two desks. -/
def twoDesks (stock : ℤ) : Shoal Bool :=
  .opened (fun i => if i then 100001 else 100002) (fun _ => 1) (fun _ => ⟨true, 3⟩)
    (fun _ => 30) stock

/-- On a desk, user 2 fires and catches a fish worth 2; the stock he reads is 1. -/
def catchWithOne : List Ev :=
  gameOn ++ [.call (.client 2 (.userfire (some 0))) { cfg := pond },
    .call (.client 2 (.catchfish ⟨2, 1, 0, 1⟩)) { cfg := pond },
    .resume 1 { ret := 1, hit := true }]

/-- One of the desks pays its fish, and the stock is empty. -/
theorem covered_catchWithOne :
    ∃ w, Shoal.Reach Fresh (twoDesks 1) w ∧ w.paid.length = 1 ∧ w.stock = 0 ∧
      ∀ p ∈ w.paid, p.2.covered p.1 := by
  obtain ⟨w, hw, hp⟩ := Shoal.exists_reach (C := Fresh) (i := twoDesks 1)
    (catchWithOne.map (fun e => (true, e)) ++ [(true, .resume 1 {})])
    (p := fun w => decide (w.paid.length = 1 ∧ w.stock = 0)) (by decide +kernel)
  obtain ⟨hlen, hstock⟩ := of_decide_eq_true hp
  exact ⟨w, hw, hlen, hstock, (covered_of_fresh (by decide) hw).2⟩

/-- **Two desks pay from the same stock**: both read 1, both may pay, and the stock is overdrawn. -/
theorem two_desks_overdraw :
    ¬ ∀ (ι : Type) (_ : DecidableEq ι) (id creater timelimit : ι → ℕ) (pay : ι → Pay) (stock : ℤ)
      (w : Shoal ι), 0 ≤ stock →
        Shoal.Reach (fun _ _ _ => True) (.opened id creater pay timelimit stock) w →
        0 ≤ w.stock ∧ ∀ p ∈ w.paid, p.2.covered p.1 := by
  intro hall
  obtain ⟨w, hw, hp⟩ := Shoal.exists_reach (C := fun _ _ _ => True) (i := twoDesks 1)
    (catchWithOne.map (fun e => (true, e)) ++ catchWithOne.map (fun e => (false, e)) ++
      [(true, .resume 1 {}), (false, .resume 1 {})])
    (p := fun w => decide (w.stock < 0)) (by decide +kernel)
  exact absurd (hall _ _ _ _ _ _ _ w (by decide) hw).1 (not_le.2 (of_decide_eq_true hp))

end Halieutics
