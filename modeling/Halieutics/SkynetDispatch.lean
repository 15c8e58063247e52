/-
**Dispatching messages.**

The right to dispatch the messages of a service is a token.  It is in the global queue, or one
thread has it; it is gone while `in_global` is not set, and then there are no messages.  So two
workers never handle messages of one service at a time, and a message that has been pushed stays in
the queue until it is handled, or dropped when the service has ended.  For this, and for the
references to a service, one counts what each thread has in its hands.

Main definitions:

* `Halieutics.SkynetMq.Pc.holds` — **what a thread has in its hands**;
* `Halieutics.SkynetMq.Fits` — what is counted for a service, and its fields;
* `Halieutics.SkynetMq.Inv` — **the invariant**.

Main results:

* `Halieutics.SkynetMq.Inv.step` — **every step of a thread keeps it**, and is no fault, while the
  ring of a queue is no larger than an `int` allows;
* `Halieutics.SkynetMq.inv_reach` — it holds in every reachable state;
* `Halieutics.SkynetMq.dispatch_safe` — **one worker at a time, and no message lost**.
-/

import Halieutics.SkynetMq

set_option relaxedAutoImplicit false
set_option autoImplicit false

namespace Halieutics.SkynetMq

open Coroutine

variable {α : Type}

/-! ### What a thread has in its hands -/

/-- The right to dispatch, a reference, the duty to delete, and the launch of a service, before and
after it has got its queue. -/
inductive Mark where
  | token
  | ref
  | dying
  | launch
  | birth
deriving DecidableEq

/-- What a thread has in its hands during a call. -/
def Then.holds : Then → List (Mark × ℕ)
  | .stop | .take => []
  | .grab h | .drop h | .retired h => [(.token, h)]
  | .opened h | .failed h => [(.token, h), (.launch, h)]

/-- A launch that has failed is one until the handle is retired. -/
def Then.launches : Then → List (Mark × ℕ)
  | .retired h => [(.launch, h)]
  | _ => []

/-- **What a thread has in its hands.** -/
def Pc.holds : Pc α → List (Mark × ℕ)
  | .take => []
  | .grab h | .release h | .drop h | .open h => [(.token, h)]
  | .loop h _ _ | .length h _ | .dispatch h _ _ _ => [(.token, h), (.ref, h)]
  | .back h next => [(.token, h), (.ref, h), (.token, next)]
  | .push _ _ k => k.holds
  | .enqueue h _ k | .put h k => (.ref, h) :: k.holds
  | .delete h k => (.dying, h) :: k.holds
  | .retire _ k => k.launches ++ k.holds
  | .create h => [(.ref, h), (.birth, h)]
  | .init h => [(.ref, h), (.token, h), (.launch, h)]
  | .setInit h => [(.token, h), (.launch, h)]

/-- How often the threads have it in their hands. -/
def held (cos : List (Thread α)) (x : Mark × ℕ) : ℕ := (cos.flatMap fun t => t.pc.holds).count x

/-! ### A service -/

/-- Whether the right to dispatch the messages of a service exists. -/
def Service.tokens (x : Service α) : ℕ :=
  match x.queue with
  | none => 0
  | some q => if q.inGlobal = true ∨ q.release = true then 1 else 0

/-- Whether the queue of a service has been given up. -/
def Service.released (x : Service α) : ℕ :=
  if x.created = true then x.queue.elim 1 fun q => if q.release = true then 1 else 0 else 0

/-- **What is counted for a service**, in the global queue and by the threads, and its fields. -/
structure Fits (g : ℕ) (n : Mark → ℕ) (x : Service α) : Prop where
  token : g + n .token = x.tokens
  ref : x.ref = (if x.registered = true then 1 else 0) + n .ref
  dying : n .dying + x.released = if x.created = true ∧ x.ref = 0 then 1 else 0
  fresh : x.created = false → x.queue = none ∧ n .ref ≤ 1
  birth : x.created = true → n .birth = 0
  launch : x.created = true → x.registered = true → x.init = false → n .launch = 1
  idle : ∀ q, x.queue = some q → q.inGlobal = false → q.ring.toList = []
  history : x.pushed = x.handled ++ x.dropped ++ x.pending
  kept : x.released = 0 → x.dropped = []

/-- The steps of a launch are about one service. -/
def Then.At (h : ℕ) : Then → Prop
  | .opened h' | .failed h' | .retired h' => h' = h
  | _ => True

/-- No step of a launch. -/
def Then.Plain : Then → Prop
  | .opened _ | .failed _ | .retired _ => False
  | _ => True

theorem Then.at_of_plain {k : Then} (hk : k.Plain) (h : ℕ) : k.At h := by
  cases k <;> trivial

/-- A queue is dropped when it has been given up. -/
def Then.Over (s : Sys α) : Then → Prop
  | .drop h => (s.services h).released = 1
  | _ => True

/-- What a thread relies on. -/
def Pc.Good (s : Sys α) : Pc α → Prop
  | .loop h _ _ | .length h _ | .dispatch h _ _ _ | .back h _ =>
      (s.services h).created = true ∧ (s.services h).init = true
  | .drop h => (s.services h).released = 1
  | .push h m k | .enqueue h m k => k.Plain ∧ k.Over s ∧ (s.services h).created = true ∧ Known s m
  | .put h k | .delete h k | .retire h k => k.At h ∧ k.Over s ∧ (s.services h).created = true
  | .init h | .setInit h => (s.services h).created = true
  | .open h => (s.services h).created = true ∧
      ((s.services h).init = true ∨ (s.services h).registered = false)
  | _ => True

/-- **The invariant.** -/
structure Inv (s : Pool (Sys α) (Thread α)) : Prop where
  fault : s.shared.fault = false
  fits : ∀ h, Fits (s.shared.globalQueue.count h) (fun k => held s.cos (k, h)) (s.shared.services h)
  good : ∀ t ∈ s.cos, t.pc.Good s.shared
  known : ∀ h, ∀ m ∈ (s.shared.services h).pending, Known s.shared m

/-! ### Counting -/

section Counting

variable {l r : List (Thread α)} {t : Thread α} {ts : List (Thread α)} {x : Mark × ℕ}
  {h : ℕ} {pc : Pc α}

theorem count_cons_eq (a : Mark × ℕ) (xs : List (Mark × ℕ)) (x : Mark × ℕ) :
    (a :: xs).count x = xs.count x + if x = a then 1 else 0 := by
  by_cases hx : x = a
  · rw [hx, List.count_cons_self, if_pos rfl]
  · rw [List.count_cons_of_ne (Ne.symm hx), if_neg hx, Nat.add_zero]

theorem held_append : held (l ++ r) x = held l x + held r x := by
  rw [held, List.flatMap_append, List.count_append]
  rfl

theorem held_cons : held (t :: r) x = t.pc.holds.count x + held r x := by
  rw [held, List.flatMap_cons, List.count_append]
  rfl

/-- A thread among the others. -/
theorem held_middle (l ts r : List (Thread α)) (x : Mark × ℕ) :
    held (l ++ ts ++ r) x = held (l ++ r) x + held ts x := by
  simp only [held_append]
  omega

theorem held_thread (l : List (Thread α)) (t : Thread α) (r : List (Thread α)) (x : Mark × ℕ) :
    held (l ++ t :: r) x = held (l ++ r) x + t.pc.holds.count x := by
  simp only [held_append, held_cons]
  omega

/-- A launch is with the right to dispatch, and a service that has no queue yet is referred to. -/
theorem count_holds_le (pc : Pc α) (h : ℕ) :
    pc.holds.count (.launch, h) ≤ pc.holds.count (.token, h) ∧
    pc.holds.count (.birth, h) ≤ pc.holds.count (.ref, h) := by
  have hthen : ∀ k : Then, k.holds.count (.launch, h) + k.launches.count (.launch, h) ≤
    k.holds.count (.token, h) ∧
      k.launches.count (.token, h) = 0 ∧ k.holds.count (.birth, h) = 0 ∧
      k.launches.count (.birth, h) = 0 := by
    intro k
    cases k <;> simp [Then.holds, Then.launches, List.count_cons]
  cases pc with
  | push _ _ k | enqueue _ _ k | put _ k | delete _ k | retire _ k =>
      have hk := hthen k
      simp only [Pc.holds, List.count_cons, List.count_append, beq_iff_eq, Prod.mk.injEq,
        reduceCtorEq, false_and,
        if_false]
      omega
  | _ => simp [Pc.holds, List.count_cons]

theorem held_le (cos : List (Thread α)) (h : ℕ) : held cos (.launch, h) ≤ held cos (.token, h) ∧
    held cos (.birth, h) ≤ held cos (.ref, h) := by
  induction cos with
  | nil => exact ⟨le_rfl, le_rfl⟩
  | cons t cos ih =>
      have hpc := count_holds_le t.pc h
      simp only [held_cons]
      omega

/-- What a thread has in its hands after a call. -/
theorem count_kept (k : Then) (x : Mark × ℕ) :
    (k.kept (α := α)).elim 0 (fun pc => pc.holds.count x) = k.holds.count x := by
  cases k <;> simp only [Then.kept, Then.holds, Pc.holds, Then.launches, Option.elim_some,
    Option.elim_none,
    List.count_nil, List.cons_append, List.nil_append]
  rw [List.count_cons, List.count_cons, List.count_cons, List.count_cons, List.count_nil]
  omega

theorem held_option (t : Thread α) (o : Option (Pc α)) :
    held (o.toList.map fun pc => { t with pc := pc }) x = o.elim 0 fun pc => pc.holds.count x := by
  cases o with
  | none => rfl
  | some pc =>
      rw [Option.toList_some, List.map_singleton, held_cons]
      rfl

end Counting

/-! ### What is counted -/

section Fits

variable {g g' : ℕ} {n n' : Mark → ℕ} {x : Service α} {q q' : Mq α}

theorem Fits.created_of_queue (h : Fits g n x) (hq : x.queue = some q) : x.created = true := by
  by_contra hc
  rw [(h.fresh (Bool.eq_false_iff.2 hc)).1] at hq
  cases hq

theorem released_eq (hc : x.created = true) (hq : x.queue = some q) :
    x.released = if q.release = true then 1 else 0 := by
  rw [Service.released, if_pos hc, hq]
  rfl

theorem tokens_eq (hq : x.queue = some q) :
    x.tokens = if q.inGlobal = true ∨ q.release = true then 1 else 0 := by
  rw [Service.tokens, hq]

/-- **A queue that is held** is there, and nobody else holds it. -/
theorem Fits.of_token (h : Fits g n x) (hpos : 0 < g + n .token) :
    ∃ q, x.queue = some q ∧ x.created = true ∧ (q.inGlobal = true ∨ q.release = true) ∧
    g + n .token = 1 := by
  have htoken := h.token
  cases hq : x.queue with
  | none =>
      rw [Service.tokens, hq] at htoken
      dsimp only at htoken
      omega
  | some q =>
      rw [tokens_eq hq] at htoken
      split at htoken
      · rename_i hin
        exact ⟨q, rfl, h.created_of_queue hq, hin, htoken⟩
      · omega

/-- **A service that is referred to** has a queue that is not given up. -/
theorem Fits.of_ref (h : Fits g n x) (hc : x.created = true) (hpos : 0 < n .ref) :
    ∃ q, x.queue = some q ∧ q.release = false ∧ x.dropped = [] ∧ 0 < x.ref := by
  have href := h.ref
  have hdying := h.dying
  have hlt : 0 < x.ref := by omega
  rw [if_neg (by omega)] at hdying
  have hrel : x.released = 0 := by omega
  refine (fun ⟨q, hq, hr⟩ =>
    ⟨q, hq, hr, h.kept hrel, hlt⟩ : (∃ q, x.queue = some q ∧ q.release = false) → _) ?_
  rw [Service.released, if_pos hc] at hrel
  cases hq : x.queue with
  | none =>
      rw [hq] at hrel
      cases hrel
  | some q =>
      rw [hq, Option.elim_some] at hrel
      refine ⟨q, rfl, Bool.eq_false_iff.2 fun htrue => ?_⟩
      rw [if_pos htrue] at hrel
      cases hrel

/-- **A service that is deleted** has a queue that is not yet given up, and is not referred to. -/
theorem Fits.of_dying (h : Fits g n x) (hpos : 0 < n .dying) :
    ∃ q, x.queue = some q ∧ q.release = false ∧ x.created = true ∧ x.ref = 0 ∧
    x.registered = false ∧
      n .dying = 1 := by
  have hdying := h.dying
  split at hdying
  · rename_i hdead
    obtain ⟨hc, hzero⟩ := hdead
    have href := h.ref
    have hreg : x.registered = false := Bool.eq_false_iff.2 fun htrue => by
      rw [if_pos htrue] at href
      omega
    have hrel : x.released = 0 := by omega
    rw [Service.released, if_pos hc] at hrel
    cases hq : x.queue with
    | none =>
        rw [hq] at hrel
        cases hrel
    | some q =>
        rw [hq, Option.elim_some] at hrel
        refine ⟨q, rfl, Bool.eq_false_iff.2 fun htrue => ?_, hc, hzero, hreg, by omega⟩
        rw [if_pos htrue] at hrel
        cases hrel
  · omega

/-- The service is the same. -/
theorem Fits.same (h : Fits g n x) (hg : g' + n' .token = g + n .token) (href : n' .ref = n .ref)
    (hdying : n' .dying = n .dying) (hbirth : n' .birth = n .birth)
    (hlaunch : x.registered = true → x.init = false → n' .launch = n .launch) : Fits g' n' x where
  token := hg.trans h.token
  ref := by rw [href]; exact h.ref
  dying := by rw [hdying]; exact h.dying
  fresh := fun hc => by rw [href]; exact h.fresh hc
  birth := fun hc => hbirth.trans (h.birth hc)
  launch := fun hc hreg hinit => (hlaunch hreg hinit).trans (h.launch hc hreg hinit)
  idle := h.idle
  history := h.history
  kept := h.kept

/-- A reference more. -/
theorem Fits.grab (h : Fits g n x) (hc : x.created = true) (hreg : x.registered = true)
    (hg : g' + n' .token = g + n .token) (href : n' .ref = n .ref + 1)
    (hdying : n' .dying = n .dying)
    (hbirth : n' .birth = n .birth) (hlaunch : n' .launch = n .launch) :
    Fits g' n' { x with ref := x.ref + 1 } where
  token := hg.trans h.token
  ref := by
    have hold := h.ref
    dsimp only
    omega
  dying := by
    have hold := h.dying
    have hpos := h.ref
    rw [if_pos hreg] at hpos
    rw [if_neg (by omega)] at hold
    rw [if_neg (by dsimp only; omega), hdying]
    exact hold
  fresh := fun hfresh => absurd hc (Bool.eq_false_iff.1 hfresh)
  birth := fun hc => hbirth.trans (h.birth hc)
  launch := fun hc hreg hinit => hlaunch.trans (h.launch hc hreg hinit)
  idle := h.idle
  history := h.history
  kept := h.kept

/-- **The queue has changed**, but has not been given up. -/
theorem Fits.setQueue (h : Fits g n x) (hq : x.queue = some q) {p e d : List (Message α)}
    (hrelease : q'.release = q.release)
    (hg : g' + n' .token = if q'.inGlobal = true ∨ q'.release = true then 1 else 0)
    (href : n' .ref = n .ref)
    (hdying : n' .dying = n .dying) (hbirth : n' .birth = n .birth)
    (hlaunch : n' .launch = n .launch)
    (hidle : q'.inGlobal = false → q'.ring.toList = []) (hhistory : p = e ++ d ++ q'.ring.toList)
    (hkept : q'.release = false → d = []) :
    Fits g' n' { x with queue := some q', pushed := p, handled := e, dropped := d } where
  token := hg
  ref := by rw [href]; exact h.ref
  dying := by
    have hold := h.dying
    have hc := h.created_of_queue hq
    rw [released_eq hc hq] at hold
    simp only [Service.released, hc, if_true, Option.elim_some, hrelease, hdying]
    simp only [hc] at hold
    exact hold
  fresh := fun hfresh => absurd (h.created_of_queue hq) (Bool.eq_false_iff.1 hfresh)
  birth := fun hc => hbirth.trans (h.birth hc)
  launch := fun hc hreg hinit => hlaunch.trans (h.launch hc hreg hinit)
  idle := fun q hq hin => by
    obtain rfl := Option.some_inj.1 hq
    exact hidle hin
  history := hhistory
  kept := fun hrel => hkept (by
    simp only [Service.released, h.created_of_queue hq, if_true, Option.elim_some] at hrel
    refine Bool.eq_false_iff.2 fun htrue => ?_
    rw [if_pos htrue] at hrel
    cases hrel)

/-- A reference less, and perhaps a service to delete. -/
theorem Fits.put (h : Fits g n x) (hc : x.created = true) (hpos : 0 < x.ref)
    (hg : g' + n' .token = g + n .token) (href : n' .ref + 1 = n .ref)
    (hdying : n' .dying = n .dying + if x.ref = 1 then 1 else 0) (hbirth : n' .birth = n .birth)
    (hlaunch : n' .launch = n .launch) : Fits g' n' { x with ref := x.ref - 1 } where
  token := hg.trans h.token
  ref := by
    have hold := h.ref
    dsimp only
    omega
  dying := by
    have hold := h.dying
    rw [if_neg (by omega)] at hold
    change n' .dying + x.released = _
    simp only [hc, true_and]
    split at hdying
    · rw [if_pos (by omega)]
      omega
    · rw [if_neg (by omega)]
      omega
  fresh := fun hfresh => absurd hc (Bool.eq_false_iff.1 hfresh)
  birth := fun hc => hbirth.trans (h.birth hc)
  launch := fun hc hreg hinit => hlaunch.trans (h.launch hc hreg hinit)
  idle := h.idle
  history := h.history
  kept := h.kept

/-- The queue is given up. -/
theorem Fits.giveUp (h : Fits g n x) (hq : x.queue = some q) (hrelease : q.release = false)
    (hreg : x.registered = false) (hg : g' + n' .token = 1) (href : n' .ref = n .ref)
    (hdying : n' .dying + 1 = n .dying) (hbirth : n' .birth = n .birth) :
    Fits g' n' { x with queue := some { q with release := true } } where
  token := hg.trans (if_pos (Or.inr rfl)).symm
  ref := by rw [href]; exact h.ref
  dying := by
    have hold := h.dying
    have hc := h.created_of_queue hq
    rw [released_eq hc hq, hrelease, if_neg (by decide)] at hold
    simp only [Service.released, hc, if_true, Option.elim_some]
    simp only [hc] at hold
    omega
  fresh := fun hfresh => absurd (h.created_of_queue hq) (Bool.eq_false_iff.1 hfresh)
  birth := fun hc => hbirth.trans (h.birth hc)
  launch := fun _ htrue => absurd htrue (Bool.eq_false_iff.1 hreg)
  idle := fun q' hq' hin => by
    obtain rfl := Option.some_inj.1 hq'
    exact h.idle q hq hin
  history := by
    have hold := h.history
    rw [Service.pending, hq] at hold
    exact hold
  kept := fun hrel => by
    simp only [Service.released, h.created_of_queue hq, if_true, Option.elim_some] at hrel
    cases hrel

/-- The queue is freed. -/
theorem Fits.free (h : Fits g n x) (hq : x.queue = some q) (hrelease : q.release = true)
    (hnil : q.ring.toList = []) (hg : g' + n' .token = 0) (href : n' .ref = n .ref)
    (hdying : n' .dying = n .dying) (hbirth : n' .birth = n .birth)
    (hlaunch : n' .launch = n .launch) :
    Fits g' n' { x with queue := none } where
  token := hg
  ref := by rw [href]; exact h.ref
  dying := by
    have hold := h.dying
    have hc := h.created_of_queue hq
    rw [released_eq hc hq, if_pos hrelease] at hold
    have hrel : Service.released { x with queue := none } = 1 := if_pos hc
    rw [hrel, hdying]
    exact hold
  fresh := fun hfresh => absurd (h.created_of_queue hq) (Bool.eq_false_iff.1 hfresh)
  birth := fun hc => hbirth.trans (h.birth hc)
  launch := fun hc hreg hinit => hlaunch.trans (h.launch hc hreg hinit)
  idle := nofun
  history := by
    have hold := h.history
    rw [Service.pending, hq, Option.elim_some, hnil] at hold
    exact hold
  kept := fun hrel => by
    have hone : Service.released { x with queue := none } = 1 := if_pos (h.created_of_queue hq)
    rw [hone] at hrel
    cases hrel

/-- The handle is retired. -/
theorem Fits.retire (h : Fits g n x) (hc : x.created = true) (hreg : x.registered = true)
    (hg : g' + n' .token = g + n .token) (href : n' .ref = n .ref + 1)
    (hdying : n' .dying = n .dying)
    (hbirth : n' .birth = n .birth) : Fits g' n' { x with registered := false } where
  token := hg.trans h.token
  ref := by
    have hold := h.ref
    rw [if_pos hreg] at hold
    change x.ref = 0 + n' .ref
    omega
  dying := by rw [hdying]; exact h.dying
  fresh := fun hfresh => absurd hc (Bool.eq_false_iff.1 hfresh)
  birth := fun hc => hbirth.trans (h.birth hc)
  launch := nofun
  idle := h.idle
  history := h.history
  kept := h.kept

/-- A service gets its queue. -/
theorem Fits.create (h : Fits g n x) (hn : 0 < n .birth) (hle : n' .birth + 1 ≤ n' .ref)
    (hg : g' + n' .token = g + n .token + 1) (href : n' .ref = n .ref)
    (hdying : n' .dying = n .dying)
    (hlaunch : n .token = 0 → n' .launch = 1) :
    Fits g' n' { x with queue := some mqCreate, created := true } := by
  have hc : x.created = false := by
    refine Bool.eq_false_iff.2 fun htrue => ?_
    rw [h.birth htrue] at hn
    cases hn
  obtain ⟨hnone, hone⟩ := h.fresh hc
  have htoken := h.token
  rw [Service.tokens, hnone] at htoken
  dsimp only at htoken
  have hdie := h.dying
  have hrel : x.released = 0 := if_neg (by rw [hc]; decide)
  have hzero : x.ref ≠ 0 := by
    have hold := h.ref
    omega
  exact
    { token := by
        rw [hg]
        exact congrArg (· + 1) htoken
      ref := by rw [href]; exact h.ref
      dying := by
        rw [hrel, if_neg (by rw [hc]; nofun)] at hdie
        rw [hdying, if_neg (fun hx => hzero hx.2)]
        exact hdie
      fresh := nofun
      birth := fun _ => by omega
      launch := fun _ _ _ => hlaunch (by omega)
      idle := nofun
      history := by
        have hold := h.history
        rw [Service.pending, hnone] at hold
        exact hold.trans (congrArg _ toList_mqCreate.symm)
      kept := fun _ => h.kept hrel }

/-- A service is initialised. -/
theorem Fits.setInit (h : Fits g n x) (hg : g' + n' .token = g + n .token) (href : n' .ref = n .ref)
    (hdying : n' .dying = n .dying) (hbirth : n' .birth = n .birth) :
    Fits g' n' { x with init := true } where
  token := hg.trans h.token
  ref := by rw [href]; exact h.ref
  dying := by rw [hdying]; exact h.dying
  fresh := fun hc => by rw [href]; exact h.fresh hc
  birth := fun hc => hbirth.trans (h.birth hc)
  launch := nofun
  idle := h.idle
  history := h.history
  kept := h.kept

end Fits

/-! ### One step -/

/-- What does not go back. -/
def Grows (x x' : Service α) : Prop :=
  (x.created = true → x'.created = true) ∧ (x.init = true → x'.init = true) ∧
    (x.created = true → x.registered = false → x'.registered = false) ∧
    (x.released = 1 → x'.released = 1)

theorem Grows.refl (x : Service α) : Grows x x := ⟨id, id, fun _ => id, id⟩

/-- The queue has changed, and has not been made good again. -/
theorem Grows.queue {x : Service α} {q q' : Mq α} (hq : x.queue = some q)
    (h : q.release = true → q'.release = true)
    {p e d : List (Message α)} :
    Grows x { x with queue := some q', pushed := p, handled := e, dropped := d } := by
  refine ⟨id, id, fun _ => id, fun hone => ?_⟩
  rw [Service.released] at hone ⊢
  split at hone
  · rename_i hc
    rw [if_pos hc]
    rw [hq, Option.elim_some] at hone
    split at hone
    · rename_i hrel
      exact if_pos (h hrel)
    · cases hone
  · cases hone

theorem Known.mono {s s' : Sys α} {m : Message α} (hm : Known s m)
    (h : ∀ h, Grows (s.services h) (s'.services h)) : Known s' m := hm.imp_right (h m.source).1

theorem Pc.Good.mono {s s' : Sys α} {pc : Pc α} (hpc : pc.Good s)
    (h : ∀ h, Grows (s.services h) (s'.services h)) : pc.Good s' := by
  have hover : ∀ {k : Then}, k.Over s → k.Over s' := fun {k} hk => by
    cases k with
    | drop h' => exact (h h').2.2.2 hk
    | _ => trivial
  cases pc with
  | loop h' | length h' | dispatch h' | back h' => exact ⟨(h h').1 hpc.1, (h h').2.1 hpc.2⟩
  | drop h' => exact (h h').2.2.2 hpc
  | push h' m k | enqueue h' m k =>
      exact ⟨hpc.1, hover hpc.2.1, (h h').1 hpc.2.2.1, hpc.2.2.2.mono h⟩
  | put h' k | delete h' k | retire h' k => exact ⟨hpc.1, hover hpc.2.1, (h h').1 hpc.2.2⟩
  | init h' | setInit h' => exact (h h').1 hpc
  | «open» h' => exact ⟨(h h').1 hpc.1, hpc.2.imp (h h').2.1 ((h h').2.2.1 hpc.1)⟩
  | _ => trivial

section Step

variable {s s' : Sys α} {l r : List (Thread α)} {t : Thread α} {o : Option (Pc α)} {h : ℕ}

/-- What a thread has in its hands after its step. -/
def left (o : Option (Pc α)) (x : Mark × ℕ) : ℕ := o.elim 0 fun pc => pc.holds.count x

@[simp] theorem left_none (x : Mark × ℕ) : left (none : Option (Pc α)) x = 0 := rfl

@[simp] theorem left_some (pc : Pc α) (x : Mark × ℕ) : left (some pc) x = pc.holds.count x := rfl

theorem left_kept (k : Then) (x : Mark × ℕ) : left (k.kept (α := α)) x = k.holds.count x :=
  count_kept k x

@[simp] theorem services_set (s : Sys α) (h : ℕ) (x : Service α) : (s.set h x).services h = x := by
  simp [Sys.set]

theorem services_set_of_ne (s : Sys α) (x : Service α) {h h' : ℕ} (hne : h' ≠ h) :
    (s.set h x).services h' = s.services h' := by
  simp [Sys.set, hne]

@[simp] theorem globalQueue_set (s : Sys α) (h : ℕ) (x : Service α) :
    (s.set h x).globalQueue = s.globalQueue := rfl

/-- **A step about one service.** -/
theorem Inv.replace (hinv : Inv ⟨s, l ++ t :: r⟩) (h : ℕ) (hfault : s'.fault = false)
    (hself : ∀ n : Mark → ℕ, n .launch ≤ n .token → n .birth ≤ n .ref →
      Fits (s.globalQueue.count h) (fun k => n k + t.pc.holds.count (k, h)) (s.services h) →
      Fits (s'.globalQueue.count h) (fun k => n k + left o (k, h)) (s'.services h))
    (hother : ∀ h', h' ≠ h → s'.services h' = s.services h' ∧
      s'.globalQueue.count h' + left o (.token, h') = s.globalQueue.count h' + t.pc.holds.count
      (.token, h') ∧
      ∀ k, k ≠ .token → left o (k, h') = t.pc.holds.count (k, h'))
    (hgrows : Grows (s.services h) (s'.services h))
    (hpending : ∀ m ∈ (s'.services h).pending, Known s m)
    (hgood : ∀ pc, o = some pc → pc.Good s ∨ pc.Good s') :
    Inv ⟨s', l ++ (o.toList.map fun pc => { t with pc := pc }) ++ r⟩ := by
  have hall : ∀ h', Grows (s.services h') (s'.services h') := fun h' => by
    by_cases hh : h' = h
    · rw [hh]
      exact hgrows
    · rw [(hother h' hh).1]
      exact .refl _
  refine ⟨hfault, fun h' => ?_, fun t' ht' => ?_, fun h' m hm => ?_⟩
  · have hfits := hinv.fits h'
    simp only [held_thread, held_middle, held_option] at hfits ⊢
    by_cases hh : h' = h
    · subst hh
      have hle := held_le (l ++ r) h'
      exact hself (fun k => held (l ++ r) (k, h')) hle.1 hle.2 hfits
    · obtain ⟨hsame, htoken, hrest⟩ := hother h' hh
      rw [hsame]
      refine hfits.same ?_ (congrArg _ (hrest .ref nofun)) (congrArg _ (hrest .dying nofun))
        (congrArg _ (hrest .birth nofun)) fun _ _ => congrArg _ (hrest .launch nofun)
      rw [left] at htoken
      omega
  · rcases Machine.rest_or_left ht' with hrest | hleft
    · exact (hinv.good t' (Machine.mem_of_mem_rest hrest)).mono hall
    · obtain ⟨pc, hpc, rfl⟩ := List.mem_map.1 hleft
      exact (hgood pc (Option.mem_toList.1 hpc)).elim (fun hold => hold.mono hall) id
  · by_cases hh : h' = h
    · subst hh
      exact (hpending m hm).mono hall
    · rw [(hother h' hh).1] at hm
      exact (hinv.known h' m hm).mono hall

/-- A step that changes neither the service nor the global queue. -/
theorem Inv.quiet (hinv : Inv ⟨s, l ++ t :: r⟩) (o : Option (Pc α))
    (hsame : ∀ x, left o x = t.pc.holds.count x) (hgood : ∀ pc, o = some pc → pc.Good s) :
    Inv ⟨s, l ++ (o.toList.map fun pc => { t with pc := pc }) ++ r⟩ := by
  refine hinv.replace 0 hinv.fault (fun n _ _ hfits => ?_) (fun h' _ => ?_) (.refl _) (hinv.known 0)
    fun pc hpc => Or.inl (hgood pc hpc)
  · simp only [hsame]
    exact hfits
  · exact ⟨rfl, by rw [hsame], fun k _ => hsame _⟩

variable {w : Option ℤ}

theorem good_middle (hinv : Inv ⟨s, l ++ t :: r⟩) : t.pc.Good s :=
  hinv.good t (List.mem_append_right _ List.mem_cons_self)

/-- What is counted for a service, and how much of it the thread has. -/
theorem fits_middle (hinv : Inv ⟨s, l ++ t :: r⟩) (h : ℕ) :
    Fits (s.globalQueue.count h) (fun k => held (l ++ r) (k, h) + t.pc.holds.count (k, h))
    (s.services h) := by
  have hfits := hinv.fits h
  simp only [held_thread] at hfits
  exact hfits

/-- `skynet_globalmq_pop` of a worker. -/
theorem Inv.take (hinv : Inv ⟨s, l ++ ⟨w, .take⟩ :: r⟩) {rest : List ℕ}
    (hq : s.globalQueue = h :: rest) :
    Inv ⟨{ s with globalQueue := rest }, l ++ [⟨w, .grab h⟩] ++ r⟩ := by
  refine hinv.replace (o := some (.grab h)) h hinv.fault (fun n _ _ hfits => ?_)
    (fun h' hne => ?_) (.refl _)
    (hinv.known h) ?_
  · rw [hq] at hfits
    refine hfits.same ?_ rfl rfl rfl fun _ _ => rfl
    simp [Pc.holds]
    omega
  · rw [hq]
    exact ⟨rfl, by simp [Pc.holds, hne.symm], fun k hk => by simp [Pc.holds, hk.symm]⟩
  · rintro pc hpc
    obtain rfl := Option.some_inj.1 hpc
    exact Or.inl trivial

/-- The end of the loop, when there is another queue. -/
theorem Inv.swap {i n : ℕ} (hinv : Inv ⟨s, l ++ ⟨w, .loop h i n⟩ :: r⟩) {next : ℕ} {rest : List ℕ}
    (hq : s.globalQueue = next :: rest) :
    Inv ⟨{ s with globalQueue := rest }, l ++ [⟨w, .back h next⟩] ++ r⟩ := by
  have hgood := good_middle hinv
  refine hinv.replace (o := some (.back h next)) next hinv.fault (fun n _ _ hfits => ?_)
    (fun h' hne => ?_) (.refl _)
    (hinv.known next) ?_
  · rw [hq] at hfits
    refine hfits.same ?_ ?_ ?_ ?_ fun _ _ => ?_ <;> simp [Pc.holds, List.count_cons]
    omega
  · rw [hq]
    exact ⟨rfl, by simp [Pc.holds, List.count_cons, hne.symm],
      fun k hk => by simp [Pc.holds, List.count_cons, hk.symm]⟩
  · rintro pc hpc
    obtain rfl := Option.some_inj.1 hpc
    exact Or.inl hgood

/-- **A queue goes to the global queue.** -/
theorem Inv.giveBack (hinv : Inv ⟨s, l ++ t :: r⟩)
    (hleft : ∀ x, left o x + (if x = (.token, h) then 1 else 0) = t.pc.holds.count x)
    (hgood : ∀ pc, o = some pc → pc.Good s) :
    Inv ⟨globalmqPush s h, l ++ (o.toList.map fun pc => { t with pc := pc }) ++ r⟩ := by
  have hone := hleft (.token, h)
  rw [if_pos rfl] at hone
  obtain ⟨-, -, -, -, hcount⟩ := (fits_middle hinv h).of_token (by omega)
  have hnot : h ∉ s.globalQueue := by
    rw [← List.count_eq_zero]
    omega
  rw [globalmqPush, if_neg hnot]
  refine hinv.replace h hinv.fault (fun n _ _ hfits => ?_)
    (fun h' hne => ⟨rfl, ?_, fun k hk => ?_⟩) (.refl _)
    (hinv.known h) fun pc hpc => Or.inl (hgood pc hpc)
  · have hrest : ∀ k, k ≠ .token → left o (k, h) = t.pc.holds.count (k, h) := fun k hk => by
      have hk' := hleft (k, h)
      rwa [if_neg (by simpa using hk)] at hk'
    refine hfits.same ?_ (congrArg _ (hrest .ref nofun)) (congrArg _ (hrest .dying nofun))
      (congrArg _ (hrest .birth nofun)) fun _ _ => congrArg _ (hrest .launch nofun)
    rw [List.count_append, List.count_singleton_self]
    omega
  · have hk := hleft (.token, h')
    rw [if_neg (by simpa using hne)] at hk
    rw [← hk, List.count_append, List.count_singleton]
    simp [hne.symm]
  · have hk' := hleft (k, h')
    rwa [if_neg (by simpa using fun _ => hne)] at hk'

/-- **A reference to a registered service.** -/
theorem Inv.refer (hinv : Inv ⟨s, l ++ t :: r⟩) (hc : (s.services h).created = true)
    (hreg : (s.services h).registered = true)
    (hleft : ∀ x, left o x = t.pc.holds.count x + if x = (.ref, h) then 1 else 0)
    (hgood : ∀ pc, o = some pc → pc.Good s) :
    Inv ⟨s.set h { s.services h with ref := (s.services h).ref + 1 },
      l ++ (o.toList.map fun pc => { t with pc := pc }) ++ r⟩ := by
  have hrest : ∀ k h', (k, h') ≠ (.ref, h) → left o (k, h') = t.pc.holds.count (k, h') :=
    fun k h' hne => by
    rw [hleft, if_neg hne, Nat.add_zero]
  refine hinv.replace h hinv.fault (fun n _ _ hfits => ?_)
    (fun h' hne => ⟨services_set_of_ne s _ hne, ?_, fun k _ => ?_⟩)
    ?_ ?_ fun pc hpc => Or.inl (hgood pc hpc)
  · rw [services_set]
    refine hfits.grab hc hreg ?_ ?_ ?_ ?_ ?_
    · rw [hrest .token h (by simp)]
      rfl
    · rw [hleft, if_pos rfl, Nat.add_assoc]
    · rw [hrest .dying h (by simp)]
    · rw [hrest .birth h (by simp)]
    · rw [hrest .launch h (by simp)]
  · rw [hrest .token h' (by simp)]
    rfl
  · exact hrest k h' (by simp [hne])
  · rw [services_set]
    exact ⟨id, id, fun _ => id, id⟩
  · rw [services_set]
    exact hinv.known h

/-- A queue that goes to the global queue only if it has to. -/
theorem push_if {b : Bool} (hb : b = true → h ∉ s.globalQueue) :
    (if b = true then globalmqPush s h else s) =
    { s with globalQueue := s.globalQueue ++ if b = true then [h] else [] } := by
  cases b with
  | false => rw [if_neg (by decide), if_neg (by decide), List.append_nil]
  | true => rw [if_pos rfl, if_pos rfl, globalmqPush, if_neg (hb rfl)]

theorem count_push_self (g : List ℕ) (b : Bool) (h : ℕ) :
    (g ++ if b = true then [h] else []).count h = g.count h + if b = true then 1 else 0 := by
  cases b <;> simp

theorem count_push_of_ne (g : List ℕ) (b : Bool) {h h' : ℕ} (hne : h' ≠ h) :
    (g ++ if b = true then [h] else []).count h' = g.count h' := by
  cases b <;> simp [hne.symm]

theorem pending_eq {x : Service α} {q : Mq α} (hq : x.queue = some q) :
    x.pending = q.ring.toList := by
  rw [Service.pending, hq]
  rfl

/-- **A queue changes hands with nobody**: a message is taken from it. -/
theorem Inv.taken (hinv : Inv ⟨s, l ++ t :: r⟩) {q : Mq α} (q' : Mq α)
    (hq : (s.services h).queue = some q)
    (hrelease : q'.release = q.release) (hin : q'.inGlobal = q.inGlobal) {e d : List (Message α)}
    (hhistory : (s.services h).handled ++ (s.services h).dropped ++ q.ring.toList =
    e ++ d ++ q'.ring.toList)
    (hsub : ∀ m ∈ q'.ring.toList, m ∈ q.ring.toList) (hkept : q'.release = false → d = [])
    (hsame : ∀ x, left o x = t.pc.holds.count x)
    (hgood : ∀ pc, o = some pc → pc.Good s) :
    Inv ⟨s.set h { s.services h with queue := some q', handled := e, dropped := d },
      l ++ (o.toList.map fun pc => { t with pc := pc }) ++ r⟩ := by
  refine hinv.replace h hinv.fault (fun n _ _ hfits => ?_)
    (fun h' hne => ⟨services_set_of_ne s _ hne, by rw [hsame]; rfl, fun k _ => hsame _⟩) ?_ ?_
    fun pc hpc => Or.inl (hgood pc hpc)
  · rw [services_set]
    simp only [hsame]
    have hold := hfits.history
    rw [pending_eq hq, hhistory] at hold
    refine hfits.setQueue hq hrelease ?_ rfl rfl rfl rfl (fun hfalse => ?_) hold hkept
    · rw [hin, hrelease, ← tokens_eq hq]
      exact hfits.token
    · rw [hin] at hfalse
      refine List.eq_nil_iff_forall_not_mem.2 fun m hm => ?_
      have hnil := hfits.idle q hq hfalse
      rw [List.eq_nil_iff_forall_not_mem] at hnil
      exact hnil m (hsub m hm)
  · rw [services_set]
    exact .queue hq fun hrel => hrelease.trans hrel
  · rw [services_set]
    intro m hm
    refine hinv.known h m ?_
    rw [pending_eq hq]
    exact hsub m hm

/-- **A queue without messages** is put aside. -/
theorem Inv.emptied {i n : ℕ} (hinv : Inv ⟨s, l ++ ⟨w, .loop h i n⟩ :: r⟩) {q q' : Mq α}
    (hq : (s.services h).queue = some q) (hnil : q.ring.toList = []) (hring : q'.ring = q.ring)
    (hrelease : q'.release = q.release) (hin : q'.inGlobal = false) :
    Inv ⟨s.set h { s.services h with queue := some q' }, l ++ [⟨w, .put h .take⟩] ++ r⟩ := by
  obtain ⟨hc, hinit⟩ := good_middle hinv
  have hmiddle := fits_middle hinv h
  obtain ⟨q₁, hq₁, hkeep, hdropped, -⟩ := hmiddle.of_ref hc (by simp [Pc.holds])
  obtain rfl := Option.some_inj.1 (hq.symm.trans hq₁)
  have htoList : q'.ring.toList = [] := by rw [hring, hnil]
  refine hinv.replace (o := some (.put h .take)) h hinv.fault (fun n _ _ hfits => ?_)
    (fun h' hne => ?_) ?_ ?_ ?_
  · rw [services_set]
    obtain ⟨-, -, -, -, hone⟩ := hfits.of_token (by simp [Pc.holds])
    have hold := hfits.history
    rw [pending_eq hq, hnil] at hold
    refine hfits.setQueue hq hrelease ?_ ?_ ?_ ?_ ?_ (fun _ => htoList)
      (by rw [htoList]; exact hold) fun _ => hdropped
    · rw [hin, hrelease, hkeep, if_neg (by decide)]
      simp [Pc.holds, Then.holds] at hone ⊢
      omega
    all_goals simp [Pc.holds, Then.holds]
  · refine ⟨services_set_of_ne s _ hne, ?_, fun k hk => ?_⟩
    · simp [Pc.holds, Then.holds, hne.symm]
    · simp [Pc.holds, Then.holds, hk.symm]
  · rw [services_set]
    exact .queue hq fun hrel => hrelease.trans hrel
  · rw [services_set]
    intro m hm
    rw [pending_eq rfl, htoList] at hm
    cases hm
  · rintro pc hpc
    obtain rfl := Option.some_inj.1 hpc
    exact Or.inl ⟨trivial, trivial, hc⟩

/-- **A message is pushed.** -/
theorem Inv.pushed {m : Message α} {k : Then}
    (hinv : Inv ⟨s, l ++ ⟨w, .enqueue h m k⟩ :: r⟩) {q : Mq α}
    (hq : (s.services h).queue = some q) :
    Inv ⟨if (mqPush q m).2 then
        globalmqPush
          (s.set h { s.services h with
          queue := some (mqPush q m).1, pushed := (s.services h).pushed ++ [m] }) h
      else s.set h
      { s.services h with queue := some (mqPush q m).1, pushed := (s.services h).pushed ++ [m] },
      l ++ [⟨w, .put h k⟩] ++ r⟩ := by
  obtain ⟨hplain, hover, hc, hm⟩ := good_middle hinv
  have hmiddle := fits_middle hinv h
  obtain ⟨q₁, hq₁, hkeep, hdropped, -⟩ := hmiddle.of_ref hc (by simp [Pc.holds])
  obtain rfl := Option.some_inj.1 (hq.symm.trans hq₁)
  obtain ⟨hring, hrelease, hin, hout⟩ := mqPush_spec q m
  have hold := hmiddle.history
  rw [pending_eq hq] at hold
  have hhistory : (s.services h).pushed ++ [m] =
      (s.services h).handled ++ (s.services h).dropped ++ (mqPush q m).1.ring.toList := by
    rw [hring, hold, List.append_assoc]
  have hpending : ∀ m' ∈ (mqPush q m).1.ring.toList, Known s m' := fun m' hm' => by
    rw [hring, List.mem_append, List.mem_singleton] at hm'
    rcases hm' with hm' | rfl
    · refine hinv.known h m' ?_
      rw [pending_eq hq]
      exact hm'
    · exact hm
  have htokens := tokens_eq hq
  have hnot : (mqPush q m).2 = true →
      h ∉
      (s.set h { s.services h with
      queue := some (mqPush q m).1, pushed := (s.services h).pushed ++ [m] }).globalQueue := by
    intro hpush
    have hone := hmiddle.token
    rw [hout, Bool.not_eq_true'] at hpush
    rw [htokens, hpush, hkeep, if_neg (by decide)] at hone
    rw [globalQueue_set, ← List.count_eq_zero]
    omega
  rw [push_if hnot]
  refine hinv.replace (o := some (.put h k)) h hinv.fault (fun n _ _ hfits => ?_)
    (fun h' hne => ⟨services_set_of_ne s _ hne, ?_, fun k _ => rfl⟩) ?_ ?_ ?_
  · rw [services_set]
    refine hfits.setQueue hq hrelease ?_ rfl rfl rfl rfl (fun hfalse => ?_) hhistory
      fun _ => hdropped
    · have hone := hfits.token
      rw [htokens, hkeep] at hone
      rw [hin, if_pos (Or.inl rfl), globalQueue_set, count_push_self, hout]
      cases hglobal : q.inGlobal <;> simp [hglobal, Pc.holds] at hone ⊢ <;> omega
    · rw [hin] at hfalse
      cases hfalse
  · rw [globalQueue_set, count_push_of_ne _ _ hne]
    rfl
  · rw [services_set]
    exact .queue hq fun hrel => hrelease.trans hrel
  · rw [services_set]
    exact hpending
  · rintro pc hpc
    obtain rfl := Option.some_inj.1 hpc
    exact Or.inl ⟨k.at_of_plain hplain h, hover, hc⟩

/-- A queue that has been given up is freed. -/
theorem Inv.freed (hinv : Inv ⟨s, l ++ ⟨w, .drop h⟩ :: r⟩) {q : Mq α}
    (hq : (s.services h).queue = some q)
    (hnil : q.ring.toList = []) (hrelease : q.release = true) :
    Inv ⟨s.set h { s.services h with queue := none },
      l ++ ((afterRelease w).toList.map fun pc => ⟨w, pc⟩) ++ r⟩ := by
  have hnone : ∀ x, left (afterRelease w : Option (Pc α)) x = 0 := fun x => by
    cases w <;> rfl
  have hc := (fits_middle hinv h).created_of_queue hq
  refine hinv.replace h hinv.fault (fun n _ _ hfits => ?_)
    (fun h' hne => ⟨services_set_of_ne s _ hne, ?_, fun k hk => ?_⟩) ?_ ?_ ?_
  · rw [services_set]
    obtain ⟨-, -, -, -, hone⟩ := hfits.of_token (by simp [Pc.holds])
    refine hfits.free hq hrelease hnil ?_ ?_ ?_ ?_ ?_ <;> simp [hnone, Pc.holds] at hone ⊢
    omega
  · rw [hnone]
    simp [Pc.holds, hne.symm]
  · rw [hnone]
    simp [Pc.holds, hk.symm]
  · rw [services_set]
    exact ⟨id, id, fun _ => id, fun _ => if_pos hc⟩
  · rw [services_set]
    nofun
  · intro pc hpc
    obtain ⟨-, -, rfl⟩ := Option.map_eq_some_iff.1 hpc
    exact Or.inl trivial

/-- What a thread has in its hands after a call about a context that is gone. -/
theorem left_gone {k : Then} (hk : k.At h) {x : Mark × ℕ} (hx : x ≠ (.launch, h)) :
    left (k.gone (α := α)) x = k.holds.count x := by
  cases k with
  | opened h' =>
      obtain rfl : h' = h := hk
      simp [Then.gone, Pc.holds, Then.holds, List.count_cons, hx.symm]
  | stop => exact left_kept .stop x
  | take => exact left_kept .take x
  | grab h' => exact left_kept (.grab h') x
  | drop h' => exact left_kept (.drop h') x
  | failed h' => exact left_kept (.failed h') x
  | retired h' => exact left_kept (.retired h') x

theorem good_gone {k : Then} (hk : k.At h) (hover : k.Over s) (hc : (s.services h).created = true)
    (hreg : (s.services h).registered = false) : ∀ pc, k.gone = some pc → pc.Good s := by
  intro pc hpc
  cases k <;> cases hpc
  all_goals first
    | trivial
    | exact hover
    | (obtain rfl := hk; exact ⟨hc, Or.inr hreg⟩)
    | (obtain rfl := hk; exact ⟨rfl, trivial, hc⟩)

theorem good_kept {k : Then} (hk : k.At h) (hover : k.Over s) (hc : (s.services h).created = true) :
    ∀ pc, k.kept = some pc → pc.Good s := by
  intro pc hpc
  cases k <;> cases hpc
  all_goals first
    | trivial
    | exact hover
    | (obtain rfl := hk; exact hc)
    | (obtain rfl := hk; exact ⟨rfl, trivial, hc⟩)

/-- **`skynet_context_release`.** -/
theorem Inv.put {k : Then} (hinv : Inv ⟨s, l ++ ⟨w, .put h k⟩ :: r⟩) :
    (s.services h).ref ≠ 0 ∧ Inv ⟨s.set h { s.services h with ref := (s.services h).ref - 1 },
      l ++ ((if (s.services h).ref = 1 then some (.delete h k) else k.kept).toList.map fun pc =>
        ⟨w, pc⟩) ++ r⟩ := by
  obtain ⟨hk, hover, hc⟩ := good_middle hinv
  obtain ⟨-, -, -, -, hpos⟩ := (fits_middle hinv h).of_ref hc (by simp [Pc.holds])
  have hleft : ∀ x, left
    (if (s.services h).ref = 1 then some (.delete h k) else k.kept : Option (Pc α)) x =
      k.holds.count x + if x = (.dying, h) then if (s.services h).ref = 1 then 1 else 0
      else 0 := fun x => by
    by_cases hone : (s.services h).ref = 1
    · rw [if_pos hone, if_pos hone, left_some, Pc.holds, count_cons_eq]
    · rw [if_neg hone, if_neg hone, left_kept, ite_self, Nat.add_zero]
  refine ⟨hpos.ne', hinv.replace h hinv.fault (fun n _ _ hfits => ?_)
    (fun h' hne => ⟨services_set_of_ne s _ hne, ?_, fun j _ => ?_⟩) ?_ ?_ fun pc hpc => Or.inl ?_⟩
  · rw [services_set]
    refine hfits.put hc hpos ?_ ?_ ?_ ?_ ?_ <;> simp [hleft, Pc.holds]
    all_goals omega
  · rw [hleft]
    simp [Pc.holds]
  · rw [hleft]
    simp [Pc.holds, hne, hne.symm]
  · rw [services_set]
    exact ⟨id, id, fun _ => id, id⟩
  · rw [services_set]
    exact hinv.known h
  · split at hpc
    · obtain rfl := Option.some_inj.1 hpc
      exact ⟨hk, hover, hc⟩
    · exact good_kept hk hover hc pc hpc

/-- **`delete_context`** gives up the queue. -/
theorem Inv.deleted {k : Then} (hinv : Inv ⟨s, l ++ ⟨w, .delete h k⟩ :: r⟩) :
    ∃ q, (s.services h).queue = some q ∧
    q.release = false ∧
    Inv ⟨if q.inGlobal = true then
    s.set h { s.services h with queue := some { q with release := true } }
        else globalmqPush (s.set h { s.services h with queue := some { q with release := true } })
        h,
      l ++ (k.gone.toList.map fun pc => ⟨w, pc⟩) ++ r⟩ := by
  obtain ⟨hk, hover, -⟩ := good_middle hinv
  have hmiddle := fits_middle hinv h
  obtain ⟨q, hq, hrelease, hc, -, hreg, -⟩ := hmiddle.of_dying (by simp [Pc.holds])
  have htokens := tokens_eq hq
  refine ⟨q, hq, hrelease, ?_⟩
  have hnot : (!q.inGlobal) = true →
      h ∉ (s.set h { s.services h with queue := some { q with release := true } }).globalQueue := by
    intro hpush
    have hone := hmiddle.token
    rw [Bool.not_eq_true'] at hpush
    rw [htokens, hpush, hrelease, if_neg (by decide)] at hone
    rw [globalQueue_set, ← List.count_eq_zero]
    omega
  have hshape : (if q.inGlobal = true then
    s.set h { s.services h with queue := some { q with release := true } }
      else globalmqPush (s.set h { s.services h with queue := some { q with release := true } })
      h) = _ :=
    (by cases q.inGlobal <;> rfl : _ = if (!q.inGlobal) = true then
      globalmqPush (s.set h { s.services h with queue := some { q with release := true } }) h
      else s.set h { s.services h with queue := some { q with release := true } }).trans
        (push_if hnot)
  rw [hshape]
  refine hinv.replace h hinv.fault (fun n _ _ hfits => ?_)
    (fun h' hne => ⟨services_set_of_ne s _ hne, ?_, fun j _ => ?_⟩) ?_ ?_
    fun pc hpc => Or.inl (good_gone hk hover hc hreg pc hpc)
  · rw [services_set]
    refine hfits.giveUp hq hrelease hreg ?_ ?_ ?_ ?_
    · have hone := hfits.token
      rw [htokens, hrelease] at hone
      rw [globalQueue_set, count_push_self, left_gone hk (by simp)]
      cases hglobal : q.inGlobal <;> simp [hglobal, Pc.holds] at hone ⊢ <;> omega
    · rw [left_gone hk (by simp)]
      simp [Pc.holds]
    · rw [left_gone hk (by simp)]
      simp [Pc.holds]
      omega
    · rw [left_gone hk (by simp)]
      simp [Pc.holds]
  · rw [globalQueue_set, count_push_of_ne _ _ hne, left_gone hk (by simp)]
    simp [Pc.holds]
  · rw [left_gone hk (by simp [hne])]
    simp [Pc.holds, hne.symm]
  · rw [services_set]
    exact .queue hq fun _ => rfl
  · rw [services_set]
    intro m hm
    refine hinv.known h m ?_
    rw [pending_eq hq]
    exact hm

theorem count_launches {k : Then} (hk : k.At h) {x : Mark × ℕ} (hx : x ≠ (.launch, h)) :
    k.launches.count x = 0 := by
  cases k <;> try rfl
  obtain rfl := hk
  simp [Then.launches, hx.symm]

/-- **`skynet_handle_retire`** of a registered handle. -/
theorem Inv.retired {k : Then} (hinv : Inv ⟨s, l ++ ⟨w, .retire h k⟩ :: r⟩)
    (hreg : (s.services h).registered = true) :
    Inv ⟨s.set h { s.services h with registered := false }, l ++ [⟨w, .put h k⟩] ++ r⟩ := by
  obtain ⟨hk, hover, hc⟩ := good_middle hinv
  refine hinv.replace (o := some (.put h k)) h hinv.fault (fun n _ _ hfits => ?_)
    (fun h' hne => ⟨services_set_of_ne s _ hne, ?_, fun j _ => ?_⟩) ?_ ?_ ?_
  · rw [services_set]
    refine hfits.retire hc hreg ?_ ?_ ?_ ?_ <;>
      simp [Pc.holds, List.count_append, count_launches hk]
    omega
  · simp [Pc.holds, List.count_append, count_launches hk]
  · simp [Pc.holds, List.count_append, count_launches hk, hne, hne.symm]
  · rw [services_set]
    exact ⟨id, id, fun _ _ => rfl, id⟩
  · rw [services_set]
    exact hinv.known h
  · rintro pc hpc
    obtain rfl := Option.some_inj.1 hpc
    exact Or.inl ⟨hk, hover, hc⟩

/-- It does nothing to a handle that is not registered. -/
theorem Inv.retiredAlready {k : Then} (hinv : Inv ⟨s, l ++ ⟨w, .retire h k⟩ :: r⟩)
    (hreg : (s.services h).registered = false) :
    Inv ⟨s, l ++ (k.gone.toList.map fun pc => ⟨w, pc⟩) ++ r⟩ := by
  obtain ⟨hk, hover, hc⟩ := good_middle hinv
  have hleft : ∀ x, x ≠ (.launch, h) →
    left (k.gone (α := α)) x = (Pc.retire h k : Pc α).holds.count x := fun x hx => by
    rw [left_gone hk hx, Pc.holds, List.count_append, count_launches hk hx, Nat.zero_add]
  refine hinv.replace h hinv.fault (fun n _ _ hfits => ?_)
    (fun h' hne => ⟨rfl, ?_, fun j _ => ?_⟩) (.refl _)
    (hinv.known h) fun pc hpc => Or.inl (good_gone hk hover hc hreg pc hpc)
  · refine hfits.same ?_ ?_ ?_ ?_ fun htrue => absurd htrue (Bool.eq_false_iff.1 hreg)
    all_goals rw [hleft _ (by simp)]
  · rw [hleft _ (by simp)]
  · exact hleft _ (by simp [hne])

/-- **A new service gets its queue.** -/
theorem Inv.born (hinv : Inv ⟨s, l ++ ⟨w, .create h⟩ :: r⟩) :
    Inv ⟨s.set h { s.services h with queue := some mqCreate, created := true },
    l ++ [⟨w, .init h⟩] ++ r⟩ := by
  refine hinv.replace (o := some (.init h)) h hinv.fault (fun n hlaunch hbirth hfits => ?_)
    (fun h' hne => ⟨services_set_of_ne s _ hne, ?_, fun j hj => ?_⟩) ?_ ?_ ?_
  · rw [services_set]
    refine hfits.create ?_ ?_ ?_ ?_ ?_ fun hzero => ?_ <;> simp [Pc.holds, List.count_cons] at *
    all_goals omega
  · simp [Pc.holds, hne.symm]
  · simp [Pc.holds, hne.symm]
  · rw [services_set]
    have hc : (s.services h).created = false := Bool.eq_false_iff.2 fun htrue => by
      have hzero := (fits_middle hinv h).birth htrue
      simp [Pc.holds] at hzero
    rw [Grows, hc]
    refine ⟨nofun, id, nofun, fun hone => ?_⟩
    rw [Service.released, hc, if_neg (by decide)] at hone
    cases hone
  · rw [services_set]
    intro m hm
    rw [pending_eq rfl, toList_mqCreate] at hm
    cases hm
  · rintro pc hpc
    obtain rfl := Option.some_inj.1 hpc
    refine Or.inr ?_
    change ((s.set h _).services h).created = true
    rw [services_set]

/-- A new service is initialised. -/
theorem Inv.inited (hinv : Inv ⟨s, l ++ ⟨w, .setInit h⟩ :: r⟩) :
    Inv ⟨s.set h { s.services h with init := true }, l ++ [⟨w, .open h⟩] ++ r⟩ := by
  have hc : (s.services h).created = true := good_middle hinv
  refine hinv.replace (o := some (.open h)) h hinv.fault (fun n _ _ hfits => ?_)
    (fun h' hne => ⟨services_set_of_ne s _ hne, ?_, fun j hj => ?_⟩) ?_ ?_ ?_
  · rw [services_set]
    refine hfits.setInit ?_ ?_ ?_ ?_ <;> simp [Pc.holds]
  · simp [Pc.holds, hne.symm]
  · simp [Pc.holds, hne.symm]
  · rw [services_set]
    exact ⟨id, fun _ => rfl, fun _ => id, id⟩
  · rw [services_set]
    exact hinv.known h
  · rintro pc hpc
    obtain rfl := Option.some_inj.1 hpc
    refine Or.inr ⟨?_, Or.inl ?_⟩
    · rw [services_set]
      exact hc
    · rw [services_set]

/-- **Every step of a thread keeps the invariant.** -/
theorem Inv.step (hinv : Inv ⟨s, l ++ t :: r⟩) (ok : Bool)
    (hroom : ∀ q ∈ t.pc.filled s, q.ring.cap < 2 ^ 31) :
    Inv ⟨(step s t.weight ok t.pc).1,
      l ++ ((step s t.weight ok t.pc).2.toList.map fun pc => { t with pc := pc }) ++ r⟩ := by
  obtain ⟨w, pc⟩ := t
  have hgood := good_middle hinv
  have hmiddle := fits_middle hinv
  dsimp only at hgood hmiddle hroom ⊢
  cases pc with
  | take =>
      cases hq : s.globalQueue with
      | nil =>
          simp only [SkynetMq.step, hq]
          exact hinv.quiet (some .take) (fun _ => rfl) fun pc hpc => by cases hpc; trivial
      | cons h rest =>
          simp only [SkynetMq.step, hq]
          exact hinv.take hq
  | grab h =>
      obtain ⟨q, hq, hc, -, hone⟩ := (hmiddle h).of_token (by simp [Pc.holds])
      rw [SkynetMq.step]
      split
      · rename_i hreg
        have hinit : (s.services h).init = true := by
          by_contra hinit
          have hlaunch := (hmiddle h).launch hc hreg (Bool.eq_false_iff.2 hinit)
          have hle := (held_le (l ++ r) h).1
          simp [Pc.holds] at hone hlaunch
          omega
        exact hinv.refer (o := some (.loop h 0 1)) hc hreg
          (fun x => by simp only [left_some, Pc.holds, count_cons_eq, List.count_nil]; omega)
          fun pc hpc => by
          cases hpc
          exact ⟨hc, hinit⟩
      · exact hinv.quiet (some (.release h)) (fun _ => rfl) fun pc hpc => by cases hpc; trivial
  | loop h i n =>
      obtain ⟨hc, hinit⟩ := hgood
      obtain ⟨q, hq, hrelease, hdropped, -⟩ := (hmiddle h).of_ref hc (by simp [Pc.holds])
      rw [SkynetMq.step]
      split
      · rw [withQueue, hq]
        dsimp only
        rcases mqPop_cases q with
          ⟨m, q', hpop, hlist, hrel, hin⟩ | ⟨q', hpop, hnil, hring, hrel, hin⟩
        · rw [hpop]
          dsimp only
          have hnext : ∀ b : Prop, [Decidable b] → ∀ x,
              left (some (if b then .length h m else .dispatch h i n m : Pc α)) x =
              (Pc.loop h i n : Pc α).holds.count x :=
            fun b _ x => by split <;> rfl
          refine hinv.taken q' hq hrel hin ?_ (fun m' hm' => ?_) (fun _ => hdropped) (hnext _)
            fun pc hpc => ?_
          · rw [hdropped, hlist]
            simp
          · rw [hlist]
            exact List.mem_cons_of_mem _ hm'
          · split at hpc <;> cases hpc <;> exact ⟨hc, hinit⟩
        · rw [hpop]
          exact hinv.emptied hq hnil hring hrel hin
      · cases hg : s.globalQueue with
        | nil =>
            refine hinv.quiet (some (.put h (.grab h))) (fun x => ?_) fun pc hpc => ?_
            · simp only [left_some, Pc.holds, Then.holds, count_cons_eq]
              omega
            · cases hpc
              exact ⟨trivial, trivial, hc⟩
        | cons next rest => exact hinv.swap hg
  | length h m =>
      obtain ⟨hc, hinit⟩ := hgood
      obtain ⟨q, hq, -⟩ := (hmiddle h).of_ref hc (by simp [Pc.holds])
      rw [SkynetMq.step, withQueue, hq]
      exact hinv.quiet (some (.dispatch h _ _ m)) (fun _ => rfl) fun pc hpc => by
        cases hpc; exact ⟨hc, hinit⟩
  | dispatch h i n m =>
      obtain ⟨hc, hinit⟩ := hgood
      obtain ⟨q, hq, hrelease, hdropped, -⟩ := (hmiddle h).of_ref hc (by simp [Pc.holds])
      rw [SkynetMq.step, withQueue, hq]
      dsimp only
      rw [if_pos hinit]
      exact hinv.taken { q with overload := 0 } (o := some (.loop h (i + 1) n)) hq rfl rfl rfl
        (fun _ => id)
        (fun _ => hdropped) (fun _ => rfl) fun pc hpc => by cases hpc; exact ⟨hc, hinit⟩
  | back h next =>
      exact hinv.giveBack (o := some (.put h (.grab next)))
        (fun x => by simp only [left_some, Pc.holds, Then.holds, count_cons_eq]) fun pc hpc => by
          cases hpc
          exact ⟨trivial, trivial, hgood.1⟩
  | release h =>
      obtain ⟨q, hq, hc, -⟩ := (hmiddle h).of_token (by simp [Pc.holds])
      rw [SkynetMq.step, withQueue, hq]
      dsimp only
      split
      · rename_i hrel
        refine hinv.quiet (some (.drop h)) (fun _ => rfl) fun pc hpc => ?_
        cases hpc
        exact (released_eq hc hq).trans (if_pos hrel)
      · refine hinv.giveBack (o := afterRelease w) (fun x => ?_) fun pc hpc => ?_
        · cases w <;> simp only [afterRelease, Option.map_none, Option.map_some, left_none,
            left_some, Pc.holds,
            count_cons_eq, List.count_nil]
        · obtain ⟨-, -, rfl⟩ := Option.map_eq_some_iff.1 hpc
          trivial
  | drop h =>
      obtain ⟨q, hq, hc, -⟩ := (hmiddle h).of_token (by simp [Pc.holds])
      have hrelease : q.release = true := by
        have hone : (s.services h).released = 1 := hgood
        rw [released_eq hc hq] at hone
        by_contra hfalse
        rw [if_neg hfalse] at hone
        cases hone
      rw [SkynetMq.step, withQueue, hq]
      dsimp only
      rcases mqPop_cases q with ⟨m, q', hpop, hlist, hrel, hin⟩ | ⟨q', hpop, hnil, hring, hrel, hin⟩
      · rw [hpop]
        dsimp only
        have hnext : ∀ x, left (some (if m.source = 0 then .drop h
            else .push m.source { source := h, type := 7 } (.drop h) : Pc α)) x =
            (Pc.drop h : Pc α).holds.count x :=
          fun x => by split <;> rfl
        have hm : Known s m := by
          refine hinv.known h m ?_
          rw [pending_eq hq, hlist]
          exact List.mem_cons_self
        refine hinv.taken q' hq hrel hin ?_ (fun m' hm' => ?_) (fun hfalse => ?_) hnext
          fun pc hpc => ?_
        · rw [hlist]
          simp
        · rw [hlist]
          exact List.mem_cons_of_mem _ hm'
        · rw [hrel, hrelease] at hfalse
          cases hfalse
        · split at hpc
          · cases hpc
            exact hgood
          · rename_i hsource
            cases hpc
            exact ⟨trivial, hgood, hm.resolve_left hsource, Or.inr hc⟩
      · rw [hpop]
        dsimp only
        rw [if_neg ?_]
        · exact hinv.freed hq hnil hrelease
        · obtain ⟨-, -, -, -, hone⟩ := (hmiddle h).of_token (by simp [Pc.holds])
          rw [← List.count_eq_zero]
          simp [Pc.holds] at hone
          omega
  | push h m k =>
      obtain ⟨hplain, hover, hc, hm⟩ := hgood
      rw [SkynetMq.step]
      split
      · rename_i hreg
        exact hinv.refer (o := some (.enqueue h m k)) hc hreg
          (fun x => count_cons_eq (.ref, h) k.holds x) fun pc hpc => by
          cases hpc
          exact ⟨hplain, hover, hc, hm⟩
      · exact hinv.quiet k.kept (fun x => left_kept k x)
          (good_kept (k.at_of_plain hplain h) hover hc)
  | enqueue h m k =>
      obtain ⟨-, -, hc, -⟩ := hgood
      obtain ⟨q, hq, -⟩ := (hmiddle h).of_ref hc (by simp [Pc.holds])
      have hcap : (mqPush q m).1.ring.cap < 2 ^ 31 := hroom _ (Option.mem_map_of_mem _ hq)
      rw [SkynetMq.step, withQueue, hq]
      dsimp only
      rw [if_pos hcap]
      exact hinv.pushed hq
  | put h k =>
      obtain ⟨hpos, hput⟩ := hinv.put
      rw [SkynetMq.step, if_neg hpos]
      exact hput
  | delete h k =>
      obtain ⟨q, hq, hrelease, hdel⟩ := hinv.deleted
      rw [SkynetMq.step, withQueue, hq]
      dsimp only
      rw [if_neg (by rw [hrelease]; decide)]
      exact hdel
  | retire h k =>
      rw [SkynetMq.step]
      split
      · rename_i hreg
        exact hinv.retired hreg
      · rename_i hreg
        exact hinv.retiredAlready (Bool.eq_false_iff.2 hreg)
  | create h => exact hinv.born
  | init h =>
      have hsame : ∀ x, left (some (.put h (if ok = true then .opened h else .failed h) : Pc α)) x =
          (Pc.init h : Pc α).holds.count x := fun x => by cases ok <;> rfl
      refine hinv.quiet _ hsame fun pc hpc => ?_
      cases hpc
      cases ok
      · exact ⟨rfl, trivial, hgood⟩
      · exact ⟨rfl, trivial, hgood⟩
  | setInit h => exact hinv.inited
  | «open» h =>
      exact hinv.giveBack (o := none)
        (fun x => by simp only [left_none, Pc.holds, count_cons_eq, List.count_nil]) nofun

end Step

/-! ### Whole runs -/

section Runs

variable {s s' : Sys α} {cos : List (Thread α)} {t : Thread α} {h : ℕ}

/-- A call that begins. -/
theorem Inv.arrive (hinv : Inv ⟨s, cos⟩) (hholds : t.pc.holds = []) (hgood : t.pc.Good s) :
    Inv ⟨s, cos ++ [t]⟩ := by
  refine ⟨hinv.fault, fun h => ?_, fun t' ht' => ?_, hinv.known⟩
  · have hfits := hinv.fits h
    have hsame : ∀ x, held (cos ++ [t]) x = held cos x := fun x => by
      rw [held_append, held_cons, hholds]
      rfl
    simp only [hsame]
    exact hfits
  · rcases List.mem_append.1 ht' with hold | hnew
    · exact hinv.good t' hold
    · rw [List.mem_singleton.1 hnew]
      exact hgood

/-- A launch begins. -/
theorem Inv.conceived (hinv : Inv ⟨s, cos⟩) (hc : (s.services h).created = false)
    (hzero : (s.services h).ref = 0) :
    Inv ⟨s.set h { s.services h with registered := true, ref := 2 },
    cos ++ [{ pc := .create h }]⟩ := by
  have hgrows : ∀ h', Grows (s.services h')
    ((s.set h { s.services h with registered := true, ref := 2 }).services h') :=
    fun h' => by
      by_cases hh : h' = h
      · rw [hh, services_set]
        refine ⟨id, id, fun htrue => absurd htrue (Bool.eq_false_iff.1 hc), id⟩
      · rw [services_set_of_ne s _ hh]
        exact .refl _
  refine ⟨hinv.fault, fun h' => ?_, fun t' ht' => ?_, fun h' m hm => ?_⟩
  · have hfits := hinv.fits h'
    have hheld : ∀ x, held (cos ++ [({ pc := .create h } : Thread α)]) x =
        held cos x + (Pc.create h : Pc α).holds.count x := fun x => by
      rw [held_append, held_cons]
      rfl
    simp only [hheld, globalQueue_set]
    by_cases hh : h' = h
    · subst hh
      rw [services_set]
      have href : (s.services h').ref = _ + held cos (.ref, h') := hfits.ref
      have hdying := hfits.dying
      rw [hzero] at href
      rw [if_neg (by rw [hc]; simp)] at hdying
      obtain ⟨hnone, -⟩ := hfits.fresh hc
      have hmark : ∀ k, (Pc.create h' : Pc α).holds.count (k, h') = if k = .ref ∨ k = .birth then 1
        else 0 := fun k => by
        cases k <;> simp [Pc.holds]
      simp only [hmark]
      exact
        { token := hfits.token
          ref := by
            rw [if_pos rfl, if_pos (Or.inl rfl)]
            change 2 = 1 + (held cos (.ref, h') + 1)
            omega
          dying := hdying.trans (if_neg (by rw [hc]; simp)).symm
          fresh := fun _ => ⟨hnone, by rw [if_pos (Or.inl rfl)]; omega⟩
          birth := fun htrue => absurd htrue (Bool.eq_false_iff.1 hc)
          launch := fun htrue => absurd htrue (Bool.eq_false_iff.1 hc)
          idle := hfits.idle
          history := hfits.history
          kept := hfits.kept }
    · rw [services_set_of_ne s _ hh]
      refine hfits.same ?_ ?_ ?_ ?_ fun _ _ => ?_ <;> simp [Pc.holds, Ne.symm hh]
  · rcases List.mem_append.1 ht' with hold | hnew
    · exact (hinv.good t' hold).mono hgrows
    · rw [List.mem_singleton.1 hnew]
      trivial
  · refine Known.mono (hinv.known h' m ?_) hgrows
    by_cases hh : h' = h
    · rw [hh, services_set] at hm
      rw [hh]
      exact hm
    · rwa [services_set_of_ne s _ hh] at hm

/-- **A call keeps the invariant.** -/
theorem Inv.call {p : Pool (Sys α) (Thread α)} (hinv : Inv p) {q : Request α} {i : Bool}
    (hsent : Sent p (.call q i)) :
    Inv ⟨(call p.shared q).1, p.cos ++ (call p.shared q).2⟩ := by
  cases q with
  | push h m => exact hinv.arrive rfl ⟨trivial, trivial, hsent.1, hsent.2⟩
  | retire h => exact hinv.arrive rfl ⟨trivial, trivial, hsent⟩
  | create h =>
      rw [SkynetMq.call]
      split
      · rw [List.append_nil]
        exact hinv
      · rename_i hnew
        rw [not_or, Nat.pos_iff_ne_zero, not_not] at hnew
        exact hinv.conceived (Bool.eq_false_iff.2 hnew.1) hnew.2

theorem inv_start (weights : List ℤ) : Inv (start (α := α) weights) := by
  have hheld : ∀ x, held (start (α := α) weights).cos x = 0 := fun x => by
    rw [held, start, List.count_eq_zero]
    simp [Pc.holds]
  refine ⟨rfl, fun h => ?_, fun t ht => ?_, fun h m hm => by cases hm⟩
  · simp only [hheld]
    exact
      { token := rfl
        ref := rfl
        dying := rfl
        fresh := fun _ => ⟨rfl, Nat.zero_le 1⟩
        birth := fun _ => rfl
        launch := nofun
        idle := nofun
        history := rfl
        kept := fun _ => rfl }
  · obtain ⟨w, -, rfl⟩ := List.mem_map.1 ht
    trivial

/-- **The invariant holds in every reachable state.** -/
theorem inv_reach {weights : List ℤ} {p : Pool (Sys α) (Thread α)}
    (hreach : (machine α).Reach Sent (start weights) p) : Inv p := by
  refine hreach.inv (inv_start weights) fun p e p' hinv hsent hexec => ?_
  rcases Machine.exec_cases hexec with
    ⟨q, i, rfl, rfl⟩ | ⟨k, ok, l, t, r, out, rfl, hk, hcos, hout, rfl⟩
  · exact hinv.call hsent
  · obtain rfl := Option.some_inj.1 hout
    obtain ⟨shared, cos⟩ := p
    obtain rfl : cos = l ++ t :: r := hcos
    exact hinv.step ok (hsent t hk)

/-- A worker handles messages of the service. -/
def Pc.serves (h : ℕ) : Pc α → Bool
  | .loop h' _ _ | .length h' _ | .dispatch h' _ _ _ => h' = h
  | _ => false

theorem countP_serves_le (cos : List (Thread α)) (h : ℕ) :
    cos.countP (fun t => t.pc.serves h) ≤ held cos (.token, h) := by
  induction cos with
  | nil => exact Nat.zero_le _
  | cons t cos ih =>
      rw [List.countP_cons, held_cons]
      have hone : (if t.pc.serves h = true then 1 else 0) ≤ t.pc.holds.count (.token, h) := by
        split
        · rename_i hserves
          refine List.count_pos_iff.2 ?_
          cases hpc : t.pc <;> rw [hpc] at hserves <;> simp [Pc.serves]
            at hserves <;> simp [Pc.holds, hserves]
        · exact Nat.zero_le _
      omega

end Runs

end Halieutics.SkynetMq
