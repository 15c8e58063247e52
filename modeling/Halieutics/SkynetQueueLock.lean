/-
**A queue is a lock that is handed on in turn.**

When the last one inside leaves, the first in `thread_queue` becomes `current_thread` and is in
`wakeup_queue` from then on, and nobody goes inside before `dispatch_wakeup` has resumed it: a queue
that nobody is inside of is either free, with nobody waiting, or on its way to the next
(`Inv.turn`).  So for each queue the scheduler does nothing but the operations of a lock, whatever
coroutines do inside, how deep they nest queues, and where they yield or fail.

Main definitions:

* `Halieutics.SkynetQueue.Inv` — **the invariant**;
* `Halieutics.SkynetQueue.State.lock` — a queue as a lock;
* `Halieutics.SkynetQueue.Run` — runs of the scheduler, with what they do to a queue.

Main results:

* `Halieutics.SkynetQueue.Inv.step` — **each step keeps the invariant, and is an operation of the
  lock or none**;
* `Halieutics.SkynetQueue.queue_exclusive` — **one coroutine at a time, each in its turn**.
-/

import Mathlib.Data.List.Count
import Mathlib.Data.List.Nodup
import Mathlib.Tactic.Common
import Halieutics.FifoLock
import Halieutics.SkynetQueue

set_option relaxedAutoImplicit false
set_option autoImplicit false

namespace Halieutics.SkynetQueue

open FifoLock

variable {κ : Type}

/-! ### The invariant -/

/-- `sleep_session` is set. -/
def Phase.asleep : Phase κ → Bool
  | .sleep | .wait | .queued _ => true
  | _ => false

/-- It waits in no queue. -/
def Phase.Apart (p : Phase κ) : Prop := ∀ q, p ≠ .queued q

section Decidable

variable [DecidableEq κ]

/-- **What a queue is**: free, or with a holder, who is inside as often as `ref` says or is to be
woken up, and a row of others. -/
structure Fits (q : κ) (x : Queue) (s : State κ) : Prop where
  free : x.currentThread = none → x.ref = 0 ∧ x.threadQueue = []
  inside : ∀ c, x.currentThread = some c → (s.frames c).count q = x.ref
  alone : ∀ c, q ∈ s.frames c → x.currentThread = some c
  turn : ∀ c, x.currentThread = some c → x.ref = 0 → s.phase c = .queued q ∧
    s.wakeupQueue.count c = 1
  line : x.threadQueue.Nodup
  waits : ∀ c ∈ x.threadQueue, s.phase c = .queued q ∧ c ∉ s.wakeupQueue ∧ x.currentThread ≠ some c
  queued : ∀ c, s.phase c = .queued q → c ∈ x.threadQueue ∨ x.currentThread = some c ∧ x.ref = 0

/-- **The invariant.** -/
structure Inv (s : State κ) : Prop where
  fits : ∀ q, Fits q (s.queues q) s
  asleep : ∀ c, (s.sleepSession c).isSome = (s.phase c).asleep
  running : ∀ c n, s.main = .running c n → s.phase c = .ready
  outside : ∀ c, s.phase c = .free → s.frames c = []
  asserts : s.asserts = 0

/-- Only what is about the queue matters to it. -/
theorem Fits.congr {q : κ} {x : Queue} {s s' : State κ} (h : Fits q x s)
    (hf : ∀ c, (s'.frames c).count q = (s.frames c).count q)
    (hp : ∀ c, s'.phase c = .queued q ↔ s.phase c = .queued q)
    (hw : ∀ c, s.phase c = .queued q → s'.wakeupQueue.count c = s.wakeupQueue.count c) :
    Fits q x s' where
  free := h.free
  inside c hc := by
    rw [hf]
    exact h.inside c hc
  alone c hc := by
    apply h.alone c
    rwa [← List.count_pos_iff, ← hf, List.count_pos_iff]
  turn c hc hr := by
    obtain ⟨hq, hcount⟩ := h.turn c hc hr
    rw [hp, hw c hq]
    exact ⟨hq, hcount⟩
  line := h.line
  waits c hc := by
    obtain ⟨hq, hnot, hcur⟩ := h.waits c hc
    rw [hp, ← List.count_eq_zero, hw c hq, List.count_eq_zero]
    exact ⟨hq, hnot, hcur⟩
  queued c hc := h.queued c ((hp c).mp hc)

/-- A queue as a lock: who is to be woken up has it already. -/
def State.lock (s : State κ) (q : κ) : Lock ℕ :=
  ⟨(s.queues q).currentThread.map fun c => (c, (s.queues q).ref - 1), (s.queues q).threadQueue⟩

/-- What an event does to a queue. -/
def ops (s : State κ) (q : κ) : Event κ → List (FifoLock.Op ℕ)
  | .enter q' =>
      match s.main with
      | .running c _ => if q' = q then [.enter c] else []
      | _ => []
  | .leave =>
      match s.main with
      | .running c _ => if (s.frames c).head? = some q then [.leave c] else []
      | _ => []
  | _ => []

/-! ### Steps that are about no queue -/

section Apart

variable {s : State κ}

/-- Sessions do not matter. -/
theorem Inv.sessions (h : Inv s) (n : ℕ) (f : ℕ → Option Waiter) :
    Inv { s with session := n, sessionIdCoroutine := f } :=
  ⟨fun q => (h.fits q).congr (fun _ => rfl) (fun _ => Iff.rfl) (fun _ _ => rfl), h.asleep,
    h.running, h.outside,
    h.asserts⟩

/-- The main thread goes on. -/
theorem Inv.goes (h : Inv s) {m : Main} (hm : ∀ c n, m = .running c n → s.phase c = .ready) :
    Inv { s with main := m } :=
  ⟨fun q => (h.fits q).congr (fun _ => rfl) (fun _ => Iff.rfl) (fun _ _ => rfl), h.asleep, hm,
    h.outside, h.asserts⟩

/-- **A coroutine that waits in no queue** yields, goes on or ends. -/
theorem Inv.moves (h : Inv s) {c : ℕ} {p : Phase κ} {x : Option ℕ} {m : Main}
    (hc : (s.phase c).Apart) (hp : p.Apart)
    (hfree : p = .free → s.frames c = []) (hx : x.isSome = p.asleep)
    (hm : ∀ c' n, m = .running c' n → c' = c ∧ p = .ready) :
    Inv { s.setPhase c p with sleepSession := Function.update s.sleepSession c x, main := m } := by
  generalize hs' :
    ({ s.setPhase c p with sleepSession := Function.update s.sleepSession c x, main := m } :
    State κ) = s'
  have hphase : ∀ c', s'.phase c' = if c' = c then p else s.phase c' := by
    rw [← hs']
    exact s.phase_setPhase c p
  have hframes : ∀ c', s'.frames c' = s.frames c' := by
    rw [← hs']
    exact s.frames_setPhase c p
  have hqueues : s'.queues = s.queues := by rw [← hs']; rfl
  constructor
  · intro q
    rw [hqueues]
    refine (h.fits q).congr (fun c' => by rw [hframes]) (fun c' => ?_)
      (fun c' _ => by rw [← hs']; rfl)
    rw [hphase]
    by_cases heq : c' = c
    · rw [if_pos heq, heq]
      exact iff_of_false (hp q) (hc q)
    · rw [if_neg heq]
  · intro c'
    rw [hphase, ← hs']
    dsimp only
    rw [Function.update_apply]
    split_ifs
    · exact hx
    · exact h.asleep c'
  · intro c' n hmain
    rw [← hs'] at hmain
    obtain ⟨heq, hready⟩ := hm c' n hmain
    rw [hphase, if_pos heq, hready]
  · intro c' hfree'
    rw [hphase] at hfree'
    rw [hframes]
    split_ifs at hfree' with heq
    · rw [heq]
      exact hfree hfree'
    · exact h.outside c' hfree'
  · rw [← hs']
    exact h.asserts

/-- A coroutine that waits in no queue is woken up. -/
theorem Inv.wakeup (h : Inv s) {c : ℕ} (hc : (s.phase c).Apart) : Inv (wakeup s c) := by
  rw [SkynetQueue.wakeup]
  split_ifs
  · refine ⟨fun q => ?_, h.asleep, h.running, h.outside, h.asserts⟩
    refine (h.fits q).congr (fun _ => rfl) (fun _ => Iff.rfl) (fun c' hq => ?_)
    have hne : c ≠ c' := by
      rintro rfl
      exact hc q hq
    rw [List.count_append, List.count_singleton, if_neg (by simpa using hne), Nat.add_zero]
  · exact h

/-- And leaves `wakeup_queue`. -/
theorem Inv.drop (h : Inv s) {c : ℕ} {rest : List ℕ} (hw : s.wakeupQueue = c :: rest)
    (hc : (s.phase c).Apart) :
    Inv { s with wakeupQueue := rest } := by
  refine ⟨fun q => ?_, h.asleep, h.running, h.outside, h.asserts⟩
  refine (h.fits q).congr (fun _ => rfl) (fun _ => Iff.rfl) (fun c' hq => ?_)
  have hne : c ≠ c' := by
    rintro rfl
    exact hc q hq
  rw [hw, List.count_cons_of_ne hne]

end Apart

/-! ### Steps at a queue -/

section AtQueue

variable {s : State κ} {c : ℕ} {q : κ}

/-- It keeps the invariant, and does this to the queues. -/
def Does (s s' : State κ) (os : κ → List (FifoLock.Op ℕ)) : Prop :=
  Inv s' ∧ ∀ q, (s.lock q).run (os q) = some (s'.lock q)

/-- Nothing is done to the queues. -/
theorem Does.quiet {s' : State κ} (h : Inv s') (hq : s'.queues = s.queues) :
    Does s s' fun _ => [] := by
  refine ⟨h, fun q => ?_⟩
  rw [State.lock, State.lock, hq]
  rfl

/-- Where a lock is another one, it is of this queue. -/
theorem State.lock_setQueue (s : State κ) (q : κ) (x : Queue) (q' : κ) :
    (s.setQueue q x).lock q' =
      if q' = q then ⟨x.currentThread.map fun c => (c, x.ref - 1), x.threadQueue⟩
      else s.lock q' := by
  simp only [State.lock, State.setQueue, Function.update_apply]
  split_ifs <;> rfl

/-- What a coroutine that goes inside changes. -/
structure GoesIn (s s' : State κ) (c : ℕ) (q : κ) : Prop where
  queues : ∀ q', s'.queues q' =
    if q' = q then ⟨some c, (s.queues q).ref + 1, (s.queues q).threadQueue⟩ else s.queues q'
  frames : ∀ c', s'.frames c' = if c' = c then q :: s.frames c else s.frames c'
  phase : ∀ c', s'.phase c' = if c' = c then .ready else s.phase c'
  wakeup : ∀ c', c' ≠ c → s'.wakeupQueue.count c' = s.wakeupQueue.count c'
  asleep : ∀ c', (s'.sleepSession c').isSome = (s'.phase c').asleep
  running : ∀ c' n, s'.main = .running c' n → c' = c
  asserts : s'.asserts = s.asserts

/-- **A coroutine goes inside**, where no other one is, or on its way. -/
theorem GoesIn.inv {s' : State κ} (g : GoesIn s s' c q) (h : Inv s)
    (hcur : ∀ t, (s.queues q).currentThread = some t → t = c)
    (hphase : ∀ q', s.phase c = .queued q' → q' = q)
    (hline : c ∉ (s.queues q).threadQueue) : Inv s' := by
  have hfit := h.fits q
  have hdepth : (s.frames c).count q = (s.queues q).ref := by
    cases hnone : (s.queues q).currentThread with
    | none =>
        rw [(hfit.free hnone).1, List.count_eq_zero]
        intro hmem
        rw [hfit.alone c hmem] at hnone
        cases hnone
    | some t => exact hfit.inside c (hcur t hnone ▸ hnone)
  -- a coroutine in the row is another one
  have hother : ∀ c' ∈ (s.queues q).threadQueue, c' ≠ c := by
    rintro c' hmem rfl
    exact hline hmem
  refine ⟨fun q' => ?_, g.asleep, ?_, ?_, ?_⟩
  · rw [g.queues]
    by_cases hq : q' = q
    · rw [if_pos hq, hq]
      constructor
      · nofun
      · intro c' hc
        injection hc with hc
        rw [g.frames, if_pos hc.symm, List.count_cons_self, hdepth]
      · intro c' hmem
        rw [g.frames] at hmem
        by_cases hc : c' = c
        · rw [hc]
        · rw [if_neg hc] at hmem
          exact absurd (hcur c' (hfit.alone c' hmem)) hc
      · nofun
      · exact hfit.line
      · intro c' hmem
        have hc := hother c' hmem
        obtain ⟨hqueued, hnot, -⟩ := hfit.waits c' hmem
        rw [g.phase, if_neg hc, ← List.count_eq_zero, g.wakeup c' hc, List.count_eq_zero, Ne,
          Option.some_inj]
        exact ⟨hqueued, hnot, Ne.symm hc⟩
      · intro c' hqueued
        rw [g.phase] at hqueued
        split_ifs at hqueued with hc
        rcases hfit.queued c' hqueued with hmem | ⟨hsome, -⟩
        · exact .inl hmem
        · exact absurd (hcur c' hsome) hc
    · rw [if_neg hq]
      refine (h.fits q').congr (fun c' => ?_) (fun c' => ?_) (fun c' hqueued => ?_)
      · rw [g.frames]
        split_ifs with hc
        · rw [List.count_cons_of_ne (Ne.symm hq), hc]
        · rfl
      · rw [g.phase]
        split_ifs with hc
        · refine iff_of_false nofun fun hqueued => hq (hphase q' ?_)
          rw [← hc, hqueued]
        · exact Iff.rfl
      · apply g.wakeup c'
        rintro rfl
        exact hq (hphase q' hqueued)
  · intro c' n hmain
    rw [g.phase, if_pos (g.running c' n hmain)]
  · intro c' hfree
    rw [g.phase] at hfree
    rw [g.frames]
    split_ifs at hfree ⊢
    exact h.outside c' hfree
  · rw [g.asserts]
    exact h.asserts

/-- **A coroutine waits**, when another one is inside or on its way. -/
theorem Inv.blocked (h : Inv s) {n : ℕ} (hready : s.phase c = .ready)
    (hcur : (s.queues q).currentThread.any fun t => t ≠ c) (hw : c ∉ s.wakeupQueue) :
    Inv
    (yieldSleep (s.setQueue q { s.queues q with threadQueue := (s.queues q).threadQueue ++ [c] }) c
    n
      (.queued q)) := by
  obtain ⟨t, ht, hne⟩ := (Option.any_eq_true _ _).mp hcur
  have hne : t ≠ c := of_decide_eq_true hne
  have hfit := h.fits q
  generalize hs' : yieldSleep
    (s.setQueue q { s.queues q with threadQueue := (s.queues q).threadQueue ++ [c] }) c n
    (.queued q) = s'
  have hqueues : ∀ q', s'.queues q' =
      if q' = q then { s.queues q with threadQueue := (s.queues q).threadQueue ++ [c] }
      else s.queues q' := by
    intro q'
    rw [← hs']
    exact Function.update_apply ..
  have hphase : ∀ c', s'.phase c' = if c' = c then .queued q else s.phase c' := by
    rw [← hs']
    exact State.phase_setPhase _ c (.queued q)
  have hframes : ∀ c', s'.frames c' = s.frames c' := by
    rw [← hs']
    exact State.frames_setPhase _ c (.queued q)
  have hwakeup : s'.wakeupQueue = s.wakeupQueue := by rw [← hs']; rfl
  have hapart : ∀ q' c', s.phase c' = .queued q' → c' ≠ c := by
    rintro q' c' hq rfl
    rw [hready] at hq
    cases hq
  refine ⟨fun q' => ?_, ?_, ?_, ?_, ?_⟩
  · rw [hqueues]
    by_cases hq : q' = q
    · rw [if_pos hq, hq]
      constructor
      · intro hnone
        rw [ht] at hnone
        cases hnone
      · intro c' hc
        rw [hframes]
        exact hfit.inside c' hc
      · intro c' hmem
        rw [hframes] at hmem
        exact hfit.alone c' hmem
      · intro c' hc href
        obtain ⟨hqueued, hcount⟩ := hfit.turn c' hc href
        rw [hphase, if_neg (hapart q c' hqueued), hwakeup]
        exact ⟨hqueued, hcount⟩
      · rw [List.nodup_append]
        refine ⟨hfit.line, List.nodup_singleton c, ?_⟩
        rintro a ha b hb rfl
        exact hapart q a (hfit.waits a ha).1 (List.mem_singleton.mp hb)
      · intro c' hmem
        rw [hwakeup, hphase]
        rcases List.mem_append.mp hmem with hmem | hmem
        · obtain ⟨hqueued, hrest⟩ := hfit.waits c' hmem
          rw [if_neg (hapart q c' hqueued)]
          exact ⟨hqueued, hrest⟩
        · rw [List.mem_singleton.mp hmem, if_pos rfl, ht, Ne, Option.some_inj]
          exact ⟨rfl, hw, hne⟩
      · intro c' hqueued
        rw [hphase] at hqueued
        by_cases hc : c' = c
        · rw [hc]
          exact .inl (List.mem_append_right _ (List.mem_singleton_self c))
        · rw [if_neg hc] at hqueued
          rcases hfit.queued c' hqueued with hmem | hturn
          · exact .inl (List.mem_append_left _ hmem)
          · exact .inr hturn
    · rw [if_neg hq]
      refine (h.fits q').congr (fun c' => by rw [hframes]) (fun c' => ?_)
        (fun c' _ => by rw [hwakeup])
      rw [hphase]
      split_ifs with hc
      · refine iff_of_false ?_ fun hqueued => hapart q' c' hqueued hc
        intro heq
        injection heq with heq
        exact hq heq.symm
      · exact Iff.rfl
  · intro c'
    rw [hphase, ← hs']
    dsimp only [yieldSleep]
    rw [Function.update_apply]
    split_ifs
    · rfl
    · exact h.asleep c'
  · intro c' m hmain
    rw [← hs'] at hmain
    cases hmain
  · intro c' hfree
    rw [hphase] at hfree
    rw [hframes]
    split_ifs at hfree
    exact h.outside c' hfree
  · rw [← hs']
    exact h.asserts

/-- What a coroutine that leaves changes, apart from the queue itself. -/
structure GoesOut (s s' : State κ) (c : ℕ) (q : κ) (rest : List κ) (x : Queue) : Prop where
  queues : ∀ q', s'.queues q' = if q' = q then x else s.queues q'
  frames : ∀ c', s'.frames c' = if c' = c then rest else s.frames c'
  phase : ∀ c', s'.phase c' = s.phase c'
  wakeup : ∀ c', s.phase c' ≠ .queued q → s'.wakeupQueue.count c' = s.wakeupQueue.count c'
  asleep : s'.sleepSession = s.sleepSession
  main : s'.main = s.main
  asserts : s'.asserts = s.asserts

/-- The other queues do not notice. -/
theorem GoesOut.inv {s' : State κ} {rest : List κ} {x : Queue}
    (g : GoesOut s s' c q rest x) (h : Inv s)
    (hready : s.phase c = .ready) (hframes : s.frames c = q :: rest) (hx : Fits q x s') :
    Inv s' := by
  refine ⟨fun q' => ?_, ?_, ?_, ?_, ?_⟩
  · rw [g.queues]
    by_cases hq : q' = q
    · rw [if_pos hq, hq]
      exact hx
    · rw [if_neg hq]
      refine (h.fits q').congr (fun c' => ?_) (fun c' => by rw [g.phase])
        (fun c' hqueued => g.wakeup c' ?_)
      · rw [g.frames]
        split_ifs with hc
        · rw [hc, hframes, List.count_cons_of_ne (Ne.symm hq)]
        · rfl
      · rw [hqueued]
        intro heq
        injection heq with heq
        exact hq heq
  · intro c'
    rw [g.asleep, g.phase]
    exact h.asleep c'
  · intro c' n hmain
    rw [g.main] at hmain
    rw [g.phase]
    exact h.running c' n hmain
  · intro c' hfree
    rw [g.phase] at hfree
    rw [g.frames, if_neg]
    · exact h.outside c' hfree
    · rintro rfl
      rw [hready] at hfree
      cases hfree
  · rw [g.asserts]
    exact h.asserts

/-- How often it is inside, when it has left. -/
theorem Inv.depth (h : Inv s) {rest : List κ} (hframes : s.frames c = q :: rest) :
    (s.queues q).currentThread = some c ∧ (s.queues q).ref = rest.count q + 1 ∧
      (∀ c', c' ≠ c → q ∉ s.frames c') ∧ ∀ c', s.phase c' = .queued q →
      c' ∈ (s.queues q).threadQueue := by
  have hfit := h.fits q
  have hcur : (s.queues q).currentThread = some c := by
    apply hfit.alone c
    rw [hframes]
    exact List.mem_cons_self
  have href := hfit.inside c hcur
  rw [hframes, List.count_cons_self] at href
  refine ⟨hcur, href.symm, ?_, ?_⟩
  · intro c' hne hmem
    have := hfit.alone c' hmem
    rw [hcur] at this
    injection this with this
    exact hne this.symm
  · intro c' hqueued
    rcases hfit.queued c' hqueued with hmem | ⟨-, hzero⟩
    · exact hmem
    · omega

/-- **The innermost one is left.** -/
theorem Inv.leaves (h : Inv s) {rest : List κ} (hready : s.phase c = .ready)
    (hframes : s.frames c = q :: rest) :
    Inv (xpcallRet (s.setFrames c rest) q) := by
  have hfit := h.fits q
  obtain ⟨hcur, href, halone, hqueued⟩ := h.depth hframes
  have hphase' := s.phase_setFrames c rest
  have hframes' := s.frames_setFrames c rest
  have hsub : (s.queues q).ref - 1 = rest.count q := by rw [href, Nat.add_sub_cancel]
  by_cases hzero : rest.count q = 0
  · have hout : ∀ c', q ∉ if c' = c then rest else s.frames c' := by
      intro c'
      split_ifs with hc
      · exact List.count_eq_zero.mp hzero
      · exact halone c' hc
    cases hrow : (s.queues q).threadQueue with
    | nil =>
        rw [xpcallRet_free (s := s.setFrames c rest) (hsub.trans hzero) hrow]
        have g : GoesOut s ((s.setFrames c rest).setQueue q {}) c q rest {} :=
          ⟨fun _ => Function.update_apply .., hframes', hphase', fun _ _ => rfl, rfl, rfl, rfl⟩
        refine g.inv h hready hframes
          ⟨fun _ => ⟨rfl, rfl⟩, nofun, ?_, nofun, List.nodup_nil, nofun, ?_⟩
        · intro c' hmem
          exact absurd (hframes' c' ▸ hmem) (hout c')
        · intro c' hq
          have := hqueued c' ((hphase' c').symm.trans hq)
          rw [hrow] at this
          cases this
    | cons t row =>
        have ht := hfit.waits t (hrow ▸ List.mem_cons_self)
        have hline : (t :: row).Nodup := hrow ▸ hfit.line
        have hasleep : (s.sleepSession t).isSome = true := by
          rw [h.asleep, ht.1]
          rfl
        rw [xpcallRet_next (s := s.setFrames c rest) (hsub.trans hzero) hrow hasleep]
        have hwoken : ∀ c', s.phase c' ≠ .queued q → (s.wakeupQueue ++ [t]).count c' =
          s.wakeupQueue.count c' := by
          intro c' hne
          have hct : t ≠ c' := by
            rintro rfl
            exact hne ht.1
          rw [List.count_append, List.count_singleton, if_neg (by simpa using hct), Nat.add_zero]
        have g : GoesOut s { (s.setFrames c rest).setQueue q ⟨some t, 0, row⟩ with
            wakeupQueue := s.wakeupQueue ++ [t] } c q rest ⟨some t, 0, row⟩ :=
          ⟨fun _ => Function.update_apply .., hframes', hphase', hwoken, rfl, rfl, rfl⟩
        refine g.inv h hready hframes ⟨nofun, ?_, ?_, ?_, hline.of_cons, ?_, ?_⟩
        · intro c' _
          rw [List.count_eq_zero]
          intro hmem
          exact hout c' (hframes' c' ▸ hmem)
        · intro c' hmem
          exact absurd (hframes' c' ▸ hmem) (hout c')
        · intro c' hc _
          injection hc with hc
          subst hc
          refine ⟨(hphase' t).trans ht.1, ?_⟩
          show (s.wakeupQueue ++ [t]).count t = 1
          rw [List.count_append, List.count_singleton_self, List.count_eq_zero.mpr ht.2.1]
        · intro c' hmem
          have hc := hfit.waits c' (hrow ▸ List.mem_cons_of_mem _ hmem)
          have hne : c' ≠ t := by
            rintro rfl
            exact (List.nodup_cons.mp hline).1 hmem
          refine ⟨(hphase' c').trans hc.1, ?_, fun heq => hne (Option.some.inj heq).symm⟩
          show c' ∉ s.wakeupQueue ++ [t]
          rw [List.mem_append, List.mem_singleton, not_or]
          exact ⟨hc.2.1, hne⟩
        · intro c' hq
          have hmem := hqueued c' ((hphase' c').symm.trans hq)
          rw [hrow] at hmem
          rcases List.mem_cons.mp hmem with rfl | hmem
          · exact .inr ⟨rfl, rfl⟩
          · exact .inl hmem
  · rw [xpcallRet_inner (s := s.setFrames c rest) (hsub ▸ hzero)]
    have g : GoesOut s
      ((s.setFrames c rest).setQueue q { s.queues q with ref := (s.queues q).ref - 1 }) c q rest
        ⟨some c, rest.count q, (s.queues q).threadQueue⟩ := by
      refine ⟨fun q' => ?_, hframes', hphase', fun _ _ => rfl, rfl, rfl, rfl⟩
      rw [← hcur, ← hsub]
      exact Function.update_apply ..
    refine g.inv h hready hframes ⟨nofun, ?_, ?_, fun _ _ hr => absurd hr hzero, hfit.line, ?_, ?_⟩
    · intro c' hc
      injection hc with hc
      exact congrArg (List.count q) ((hframes' c').trans (if_pos hc.symm))
    · intro c' hmem
      have hmem : q ∈ if c' = c then rest else s.frames c' := hframes' c' ▸ hmem
      by_cases hc : c' = c
      · rw [hc]
      · rw [if_neg hc] at hmem
        exact absurd hmem (halone c' hc)
    · intro c' hmem
      have hc := hfit.waits c' hmem
      exact ⟨(hphase' c').trans hc.1, hc.2.1, hcur ▸ hc.2.2⟩
    · intro c' hq
      exact .inl (hqueued c' ((hphase' c').symm.trans hq))

/-! ### Each step -/

/-- **A coroutine calls a queue.** -/
theorem Inv.enters (h : Inv s) {n : ℕ} (hmain : s.main = .running c n) (hw : c ∉ s.wakeupQueue) :
    Does s (enter s c n q) fun q' => if q = q' then [.enter c] else [] := by
  have hready := h.running c n hmain
  have hapart : ∀ q', s.phase c ≠ .queued q' := by
    intro q' hq
    rw [hready] at hq
    cases hq
  rw [enter]
  by_cases hcur : (s.queues q).currentThread.any fun t => t ≠ c
  · rw [if_pos hcur]
    refine ⟨h.blocked hready hcur hw, fun q' => ?_⟩
    obtain ⟨t, ht, hne⟩ := (Option.any_eq_true _ _).mp hcur
    have hne : t ≠ c := of_decide_eq_true hne
    show (s.lock q').run (if q = q' then [.enter c] else []) = some ((s.setQueue q _).lock q')
    rw [State.lock_setQueue]
    by_cases hq : q = q'
    · subst hq
      rw [if_pos rfl, if_pos rfl, Lock.run_singleton, State.lock, ht]
      exact if_neg (Ne.symm hne)
    · rw [if_neg hq, if_neg (Ne.symm hq), Lock.run]
  · rw [if_neg hcur]
    have hcur' : ∀ t, (s.queues q).currentThread = some t → t = c := by
      intro t ht
      by_contra hne
      rw [ht] at hcur
      exact hcur (decide_eq_true hne)
    have g : GoesIn s (take s c q) c q := by
      refine ⟨fun q' => Function.update_apply .., State.frames_setFrames _ c _, fun c' => ?_,
        fun _ _ => rfl,
        fun c' => ?_, fun c' m hm => ?_, rfl⟩
      · rw [take, State.phase_setFrames]
        show s.phase c' = _
        split_ifs with hc
        · rw [hc, hready]
        · rfl
      · rw [take, State.phase_setFrames]
        exact h.asleep c'
      · have hm : s.main = .running c' m := hm
        rw [hmain] at hm
        injection hm with hm
        exact hm.symm
    have hrow : c ∉ (s.queues q).threadQueue := fun hmem => hapart q ((h.fits q).waits c hmem).1
    refine ⟨g.inv h hcur' (fun q' hq => absurd hq (hapart q')) hrow, fun q' => ?_⟩
    show (s.lock q').run (if q = q' then [.enter c] else []) = some ((s.setQueue q _).lock q')
    rw [State.lock_setQueue]
    by_cases hq : q = q'
    · subst hq
      rw [if_pos rfl, if_pos rfl, Lock.run_singleton, State.lock]
      cases hnone : (s.queues q).currentThread with
      | none =>
          rw [((h.fits q).free hnone).1]
          rfl
      | some t =>
          obtain rfl := hcur' t hnone
          have href : (s.queues q).ref ≠ 0 :=
            fun hzero => hapart q ((h.fits q).turn t hnone hzero).1
          refine (if_pos rfl).trans ?_
          rw [Nat.sub_add_cancel (Nat.pos_of_ne_zero href)]
          rfl
    · rw [if_neg hq, if_neg (Ne.symm hq), Lock.run]

/-- **A coroutine leaves a queue.** -/
theorem Inv.leaves_lock (h : Inv s) {rest : List κ} (hready : s.phase c = .ready)
    (hframes : s.frames c = q :: rest) :
    Does s (xpcallRet (s.setFrames c rest) q) fun q' => if q = q' then [.leave c] else [] := by
  refine ⟨h.leaves hready hframes, fun q' => ?_⟩
  obtain ⟨hcur, href, -, -⟩ := h.depth hframes
  have hsub : (s.queues q).ref - 1 = rest.count q := by rw [href, Nat.add_sub_cancel]
  have hlock : ∃ x : Queue, (xpcallRet (s.setFrames c rest) q).lock q' = (s.setQueue q x).lock q' ∧
      (s.lock q).step (.leave c) =
      some ⟨x.currentThread.map fun c => (c, x.ref - 1), x.threadQueue⟩ := by
    by_cases hzero : rest.count q = 0
    · cases hrow : (s.queues q).threadQueue with
      | nil =>
          refine ⟨{}, ?_, ?_⟩
          · rw [xpcallRet_free (s := s.setFrames c rest) (hsub.trans hzero) hrow]
            rfl
          · rw [State.lock, hcur, hsub, hzero, hrow]
            exact if_pos rfl
      | cons t row =>
          have hasleep : (s.sleepSession t).isSome = true := by
            rw [h.asleep, ((h.fits q).waits t (hrow ▸ List.mem_cons_self)).1]
            rfl
          refine ⟨⟨some t, 0, row⟩, ?_, ?_⟩
          · rw [xpcallRet_next (s := s.setFrames c rest) (hsub.trans hzero) hrow hasleep]
            rfl
          · rw [State.lock, hcur, hsub, hzero, hrow]
            exact if_pos rfl
    · refine ⟨{ s.queues q with ref := (s.queues q).ref - 1 }, ?_, ?_⟩
      · rw [xpcallRet_inner (s := s.setFrames c rest) (hsub ▸ hzero)]
        rfl
      · obtain ⟨n, hn⟩ := Nat.exists_eq_succ_of_ne_zero hzero
        rw [State.lock, hcur, hsub, hn]
        exact if_pos rfl
  obtain ⟨x, hx, hstep⟩ := hlock
  dsimp only
  rw [hx, State.lock_setQueue]
  by_cases hq : q = q'
  · subst hq
    rw [if_pos rfl, if_pos rfl, Lock.run_singleton, hstep]
  · rw [if_neg hq, if_neg (Ne.symm hq), Lock.run]

/-- A coroutine that is not asleep goes on, ends or calls a service. -/
theorem Inv.awake (h : Inv s) {p : Phase κ} {m : Main} (hc : (s.phase c).asleep = false)
    (hp : p.asleep = false)
    (hfree : p = .free → s.frames c = []) (hm : ∀ c' n, m = .running c' n → c' = c ∧ p = .ready) :
    Inv { s.setPhase c p with main := m } := by
  have hnone : s.sleepSession c = none := by
    rw [← Option.not_isSome_iff_eq_none, h.asleep, hc]
    exact Bool.false_ne_true
  have hsame : Function.update s.sleepSession c none = s.sleepSession :=
    hnone ▸ Function.update_eq_self c s.sleepSession
  have hcq : (s.phase c).Apart := by
    intro q hq
    rw [hq] at hc
    cases hc
  have hpq : p.Apart := by
    rintro q rfl
    cases hp
  have h' := h.moves (x := none) (m := m) hcq hpq hfree hp.symm hm
  rw [hsame] at h'
  exact h'

/-- A coroutine yields for some time, or until it is woken up. -/
theorem Inv.sleeps (h : Inv s) (n : ℕ) {p : Phase κ} (hready : s.phase c = .ready) (hp : p.Apart)
    (hasleep : p.asleep = true) : Inv (yieldSleep s c n p) := by
  have hfree : p = .free → s.frames c = [] := by
    rintro rfl
    cases hasleep
  exact (h.moves (c := c) (p := p) (x := some s.session) (m := .wakeups n) (hready ▸ nofun) hp hfree
    hasleep.symm
    nofun).sessions
    (s.session + 1) _

/-- **A coroutine that waits in no queue is resumed.** -/
theorem Inv.resumes (h : Inv s) (n : ℕ)
    (hc : s.phase c = .call ∨ s.phase c = .sleep ∨ s.phase c = .wait) :
    Does s (resume s c n) fun _ => [] := by
  have hm : ∀ c' n', Main.running c n = .running c' n' → c' = c ∧ (Phase.ready : Phase κ) =
    .ready := by
    intro c' n' hm
    injection hm with hm
    exact ⟨hm.symm, rfl⟩
  rw [resume]
  rcases hc with hc | hc | hc
  · rw [hc]
    exact Does.quiet (h.awake (hc ▸ rfl) rfl (by rintro ⟨⟩) hm) rfl
  · rw [hc]
    exact Does.quiet (h.moves (by rw [hc]; rintro q ⟨⟩) (by rintro q ⟨⟩) (by rintro ⟨⟩) rfl hm) rfl
  · rw [hc]
    have h' : Inv { waited s c with main := .running c n } :=
      (h.moves (c := c) (p := .ready) (x := none) (by rw [hc]; rintro q ⟨⟩) (by rintro q ⟨⟩)
        (by rintro ⟨⟩) rfl
        hm).sessions s.session _
    exact Does.quiet h' rfl

/-- **A coroutine is woken up**: one that waits in a queue is the next. -/
theorem Inv.wakes (h : Inv s) {rest : List ℕ} (hw : s.wakeupQueue = c :: rest)
    (hsome : (s.sleepSession c).isSome = true) (f : ℕ → Option Waiter) (n : ℕ) :
    Does s (resume { s with wakeupQueue := rest, sessionIdCoroutine := f } c n) fun _ => [] := by
  rw [h.asleep] at hsome
  cases hc : s.phase c with
  | queued q =>
      obtain ⟨hcur, href⟩ : (s.queues q).currentThread = some c ∧ (s.queues q).ref = 0 := by
        refine ((h.fits q).queued c hc).resolve_left fun hmem => ((h.fits q).waits c hmem).2.1 ?_
        rw [hw]
        exact List.mem_cons_self
      rw [resume_queued (s := { s with wakeupQueue := rest, sessionIdCoroutine := f }) hc href]
      generalize hs' : take { waited { s with wakeupQueue := rest, sessionIdCoroutine := f } c with
        main := .running c n } c q = s'
      have hqueues : s'.queues =
          (s.setQueue q ⟨some c, (s.queues q).ref + 1, (s.queues q).threadQueue⟩).queues := by
        rw [← hs']
        rfl
      have hphase : ∀ c', s'.phase c' = if c' = c then .ready else s.phase c' := by
        intro c'
        rw [← hs', take, State.phase_setFrames]
        exact s.phase_setPhase c .ready c'
      have g : GoesIn s s' c q := by
        refine ⟨fun q' => ?_, fun c' => ?_, hphase, fun c' hne => ?_, fun c' => ?_,
          fun c' m hm => ?_, ?_⟩
        · rw [hqueues]
          exact Function.update_apply ..
        · rw [← hs', take, State.frames_setFrames]
          split_ifs
          · exact congrArg _ (s.frames_setPhase c .ready c)
          · exact s.frames_setPhase c .ready c'
        · rw [hw, List.count_cons_of_ne (Ne.symm hne), ← hs']
          rfl
        · rw [hphase, ← hs']
          show (Function.update s.sleepSession c none c').isSome = _
          rw [Function.update_apply]
          split_ifs
          · rfl
          · exact h.asleep c'
        · rw [← hs'] at hm
          have hm : Main.running c n = .running c' m := hm
          injection hm with hm
          exact hm.symm
        · rw [← hs']
          rfl
      refine ⟨g.inv h (fun t ht => ?_) (fun q' hq => ?_) (fun hmem => ?_), fun q' => ?_⟩
      · rw [hcur] at ht
        exact (Option.some.inj ht).symm
      · rw [hc] at hq
        injection hq with hq
        exact hq.symm
      · exact ((h.fits q).waits c hmem).2.2 hcur
      · have hlock : s'.lock q' =
            (s.setQueue q ⟨some c, (s.queues q).ref + 1, (s.queues q).threadQueue⟩).lock q' := by
          rw [State.lock, State.lock, hqueues]
        rw [hlock, State.lock_setQueue, Lock.run]
        split_ifs with hq
        · rw [hq, State.lock, hcur, href]
          rfl
        · rfl
  | sleep =>
      have h' := (h.drop hw (by rw [hc]; rintro q ⟨⟩)).sessions s.session f
      exact h'.resumes n (.inr (.inl hc))
  | wait =>
      have h' := (h.drop hw (by rw [hc]; rintro q ⟨⟩)).sessions s.session f
      exact h'.resumes n (.inr (.inr hc))
  | _ =>
      rw [hc] at hsome
      cases hsome

/-- **Each step keeps the invariant**, and is an operation of the lock or none. -/
theorem Inv.step {s' : State κ} (h : Inv s) {e : Event κ} (hallowed : Allowed s e)
    (hs : SkynetQueue.step s e = some s') : Does s s' fun q => ops s q e := by
  have hsessions := fun f => h.sessions s.session f
  cases e with
  | message c =>
      simp only [SkynetQueue.step] at hs
      split at hs
      · next _ hfree =>
          cases hs
          exact Does.quiet (h.awake (hfree ▸ rfl) rfl nofun fun c' n hm => by
            injection hm with hm
            exact ⟨hm.symm, rfl⟩) rfl
      · cases hs
  | response session =>
      simp only [SkynetQueue.step] at hs
      split at hs
      · split at hs
        · cases hs
          exact Does.quiet h rfl
        · cases hs
          exact Does.quiet (hsessions _) rfl
        · next c hc =>
            cases hs
            rcases hallowed c hc with hp | hp
            · exact (hsessions _).resumes 0 (.inl hp)
            · exact (hsessions _).resumes 0 (.inr (.inl hp))
      · cases hs
  | enter q =>
      simp only [SkynetQueue.step] at hs
      split at hs
      · next c n hm =>
          cases hs
          have hdoes := h.enters (q := q) hm (hallowed c n hm)
          simp only [ops, hm]
          exact hdoes
      · cases hs
  | leave =>
      simp only [SkynetQueue.step] at hs
      split at hs
      · next c n hm =>
          split at hs
          · cases hs
          · next q rest hframes =>
              cases hs
              have hdoes := h.leaves_lock (h.running c n hm) hframes
              simp only [ops, hm, hframes, List.head?_cons, Option.some_inj]
              exact hdoes
      · cases hs
  | wait =>
      simp only [SkynetQueue.step] at hs
      split at hs
      · next c n hm =>
          cases hs
          exact Does.quiet (h.sleeps n (h.running c n hm) nofun rfl) rfl
      · cases hs
  | sleep =>
      simp only [SkynetQueue.step] at hs
      split at hs
      · next c n hm =>
          cases hs
          exact Does.quiet (h.sleeps n (h.running c n hm) nofun rfl) rfl
      · cases hs
  | call =>
      simp only [SkynetQueue.step] at hs
      split at hs
      · next c n hm =>
          cases hs
          have h' : Inv (yieldCall s c n) :=
            (h.awake (c := c) (p := .call) (m := .wakeups n) (h.running c n hm ▸ rfl) rfl nofun
              nofun).sessions _ _
          exact Does.quiet h' rfl
      · cases hs
  | wakeup c =>
      simp only [SkynetQueue.step] at hs
      split at hs
      · cases hs
        refine Does.quiet (h.wakeup hallowed) ?_
        rw [SkynetQueue.wakeup]
        split_ifs <;> rfl
      · cases hs
  | exit =>
      simp only [SkynetQueue.step] at hs
      split at hs
      · next c n hm =>
          split_ifs at hs with hempty
          cases hs
          exact Does.quiet
            (h.awake (h.running c n hm ▸ rfl) rfl (fun _ => List.isEmpty_iff.mp hempty) nofun) rfl
      · cases hs
  | error =>
      simp only [SkynetQueue.step] at hs
      split at hs
      · next c n hm =>
          split_ifs at hs with hempty
          cases hs
          exact Does.quiet (h.awake (h.running c n hm ▸ rfl) rfl nofun nofun) rfl
      · cases hs
  | dispatchWakeup =>
      simp only [SkynetQueue.step] at hs
      split at hs
      · split at hs
        · cases hs
          exact Does.quiet (h.goes nofun) rfl
        · next c rest hw =>
            split at hs
            · next hnone =>
                cases hs
                have hapart : (s.phase c).Apart := by
                  intro q hq
                  have := h.asleep c
                  rw [hnone, hq] at this
                  cases this
                exact Does.quiet ((h.drop hw hapart).goes nofun) rfl
            · next session hsome =>
                cases hs
                exact h.wakes hw (hsome ▸ rfl) _ _
      · cases hs
  | failed session =>
      simp only [SkynetQueue.step] at hs
      split at hs
      · next n c hm hc =>
          cases hs
          rcases hallowed c hc with hp | hp
          · exact (hsessions _).resumes n (.inl hp)
          · exact (hsessions _).resumes n (.inr (.inl hp))
      · cases hs
  | noError =>
      simp only [SkynetQueue.step] at hs
      split at hs
      · cases hs
        exact Does.quiet (h.goes nofun) rfl
      · cases hs
        exact Does.quiet (h.goes nofun) rfl
      · cases hs

end AtQueue

/-! ### Runs -/

/-- **A run**, with what it does to a queue. -/
inductive Run (q : κ) : List (FifoLock.Op ℕ) → State κ → Prop
  | init : Run q [] {}
  | step {os : List (FifoLock.Op ℕ)} {s s' : State κ} {e : Event κ} :
      Run q os s → Allowed s e → SkynetQueue.step s e = some s' → Run q (os ++ ops s q e) s'

theorem inv_init : Inv ({} : State κ) where
  fits _ := ⟨fun _ => ⟨rfl, rfl⟩, nofun, nofun, nofun, List.nodup_nil, nofun, nofun⟩
  asleep _ := rfl
  running := nofun
  outside _ _ := rfl
  asserts := rfl

/-- A run is a run of the lock. -/
theorem Run.does {q : κ} {os : List (FifoLock.Op ℕ)} {s : State κ} (h : Run q os s) :
    Inv s ∧ Lock.run {} os = some (s.lock q) := by
  induction h with
  | init => exact ⟨inv_init, rfl⟩
  | step _ hallowed hs ih =>
      obtain ⟨hinv, hrun⟩ := ih
      obtain ⟨hinv', hdoes⟩ := hinv.step hallowed hs
      refine ⟨hinv', ?_⟩
      rw [Lock.run_append, hrun]
      exact hdoes q

/-- **One coroutine at a time, each in its turn**: whatever happens, the assertion of `skynet.queue`
holds, no two coroutines are inside of a queue, it is handed on in the order in which they came, and
where some wait, one is inside or about to be woken up. -/
theorem queue_exclusive {q : κ} {os : List (FifoLock.Op ℕ)} {s : State κ} (h : Run q os s) :
    s.asserts = 0 ∧ (∀ c c', q ∈ s.frames c → q ∈ s.frames c' → c = c') ∧
    Lock.run {} os = some (s.lock q) ∧
      FifoLock.waited {} os = passed {} os ++ (s.queues q).threadQueue ∧
      ((s.queues q).threadQueue ≠ [] → ∃ c, (s.queues q).currentThread = some c ∧
        (q ∈ s.frames c ∨ c ∈ s.wakeupQueue ∧ (s.sleepSession c).isSome = true)) := by
  obtain ⟨hinv, hrun⟩ := h.does
  have hfit := hinv.fits q
  refine ⟨hinv.asserts, ?_, hrun, waited_eq hrun, ?_⟩
  · intro c c' hc hc'
    have hcur := hfit.alone c hc
    rw [hfit.alone c' hc'] at hcur
    exact (Option.some.inj hcur).symm
  · intro hrow
    cases hcur : (s.queues q).currentThread with
    | none => exact absurd (hfit.free hcur).2 hrow
    | some c =>
        refine ⟨c, rfl, ?_⟩
        by_cases href : (s.queues q).ref = 0
        · obtain ⟨hphase, hcount⟩ := hfit.turn c hcur href
          right
          rw [hinv.asleep, hphase, ← List.count_pos_iff, hcount]
          exact ⟨Nat.zero_lt_one, rfl⟩
        · left
          rw [← List.count_pos_iff, hfit.inside c hcur]
          exact Nat.pos_of_ne_zero href

/-- Two coroutines, the first of which sleeps inside. -/
theorem queue_exclusive_two : ∃ os s, Run () os s ∧ (s.queues ()).threadQueue = [2] ∧
    s.asserts = 0 ∧
    FifoLock.waited {} os = passed {} os ++ [2] := by
  have h₁ := (Run.init (q := ())).step (e := .message 1) trivial rfl
  have h₂ := h₁.step (e := .enter ()) (fun _ _ _ => List.not_mem_nil) rfl
  have h₃ := h₂.step (e := .sleep) trivial rfl
  have h₄ := h₃.step (e := .dispatchWakeup) trivial rfl
  have h₅ := h₄.step (e := .noError) trivial rfl
  have h₆ := h₅.step (e := .message 2) trivial rfl
  have h₇ := h₆.step (e := .enter ()) (fun _ _ _ => List.not_mem_nil) rfl
  obtain ⟨hasserts, -, -, hwaited, -⟩ := queue_exclusive h₇
  exact ⟨_, _, h₇, rfl, hasserts, hwaited⟩

end Decidable

end Halieutics.SkynetQueue
