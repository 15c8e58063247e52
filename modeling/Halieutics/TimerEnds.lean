/-
**When the loop of `timer_update` ends.**

`timer_update` reads the clock once and then takes timers out of the queue as long as they are due
by that time; a repeated timer comes back with the time at which it is due next.  So the loop ends
because what comes back is not due, and that is so only if the sum of the clock and the period is
later than the clock: the period has to be positive, and neither so small that it is rounded away
nor so large that the sum wraps.  Nothing makes it so: the period of the timers that build fishes is
whatever an operator has set.

Main definitions:

* `Halieutics.Timer.Periodic` — **the condition**: a timer that comes back is due later;
* `Halieutics.Timer.Prompt` — a timer is added that is due at once;
* `Halieutics.Timer.Returns` — each function that is called comes to an end;
* `Halieutics.Timer.due` — the number of timers of the queue that are due by a time;
* `Halieutics.Timer.Spinning` — a repeated timer that is due at once again is there to be called.

Main results:

* `Halieutics.Timer.due_step` — **each function that is called uses up a timer that is due**;
* `Halieutics.Timer.ends_of_periodic` — **every loop ends**, from every queue that has been built,
  in an endless run that meets the condition;
* `Halieutics.Timer.endless_of_spinning` — **a repeated timer that is due at once again keeps the
  loop going**, as long as the clock stands still;
* `Halieutics.Timer.period_zero_spins` — a timer of period zero does.
-/

import Halieutics.Endless
import Halieutics.TimerQueue

set_option relaxedAutoImplicit false
set_option autoImplicit false

namespace Halieutics

namespace Timer

open LuaTable Coroutine

/-! ### The condition -/

/-- The time at which a timer is due that is added, or comes back, now. -/
def Data.again (d : Data) (timeout : ℚ) : ℚ := d.plus d.time timeout

/-- **The condition**: a repeated timer that comes back is due later, by the sum that Lua
computes. -/
def Periodic (s : Sys) : Event Req Inp → Prop
  | .call _ _ => True
  | .resume k inp =>
      match s.cos[k]? with
      | some (.calling _ tid) =>
          inp.raises = false → (s.shared.objs tid).repeated = true →
            (s.shared.tick inp).time < (s.shared.tick inp).again (s.shared.objs tid).timeout
      | _ => True

/-- The condition can be checked. -/
theorem periodic_iff (s : Sys) (e : Event Req Inp) :
    (match e with
      | .call _ _ => true
      | .resume k inp =>
          match s.cos[k]? with
          | some (.calling _ tid) =>
              decide (inp.raises = false → (s.shared.objs tid).repeated = true →
              (s.shared.tick inp).time < (s.shared.tick inp).again (s.shared.objs tid).timeout)
          | _ => true) = true ↔ Periodic s e := by
  unfold Periodic
  split
  · exact iff_of_true rfl trivial
  · split
    · exact decide_eq_true_iff
    · exact iff_of_true rfl trivial

instance (s : Sys) (e : Event Req Inp) :
    Decidable (Periodic s e) := decidable_of_iff _ (periodic_iff s e)

/-- A timer is added that is due at once. -/
def Prompt (s : Sys) : Event Req Inp → Prop
  | .call (.add timeout) inp => (s.shared.tick inp).again timeout ≤ (s.shared.tick inp).time
  | _ => False

instance (s : Sys) (e : Event Req Inp) : Decidable (Prompt s e) :=
  match e with
  | .call (.add timeout) inp =>
      (inferInstance : Decidable ((s.shared.tick inp).again timeout ≤ (s.shared.tick inp).time))
  | .call (.remove _) _ => instDecidableFalse
  | .call (.setRepeated _) _ => instDecidableFalse
  | .resume _ _ => instDecidableFalse

/-- The timers of the queue that are due by the time `T`. -/
def due (d : Data) (T : ℕ) : ℕ := d.queue.countP fun t => decide ((d.objs t).expire ≤ T)

/-- A `timer_update` that has read the clock at `T` is inside a function. -/
def Co.since (T : ℕ) : Co → Bool
  | .scheduled => false
  | .calling now _ => now == T

/-- The function of `tid`, called by a `timer_update` that has read the clock at `now`, comes to an
end. -/
def Back (s : Sys) (e : Event Req Inp) (now tid : ℕ) : Prop :=
  ∃ k inp, e = .resume k inp ∧ s.cos[k]? = some (.calling now tid)

/-- Each function that is called comes to an end. -/
def Returns (run : ℕ → Sys) (ev : ℕ → Event Req Inp) : Prop :=
  ∀ i now tid, Co.calling now tid ∈ (run i).cos → ∃ j ≥ i, Back (run j) (ev j) now tid

/-! ### What is due -/

section Due

variable {d : Data} {T now tid : ℕ}

/-- Only the expiry times of the timers of the queue matter. -/
theorem due_congr {d' : Data} (hq : d'.queue = d.queue)
    (ho : ∀ t ∈ d.queue, (d'.objs t).expire = (d.objs t).expire) : due d' T = due d T := by
  unfold due
  rw [hq]
  refine List.countP_congr fun t ht => ?_
  rw [ho t ht]

/-- A timer enters the queue. -/
theorem due_inneradd (d : Data) (tid T : ℕ) : due (inneradd d tid).1 T
    = due d T + if (d.objs tid).expire ≤ T then 1 else 0 := by
  have hperm := (place_perm d.objs tid d.queue).countP_eq fun t => decide ((d.objs t).expire ≤ T)
  rw [List.countP_cons] at hperm
  simp only [decide_eq_true_eq] at hperm
  exact hperm

theorem since_inneradd (d : Data) (tid T : ℕ) : (inneradd d tid).2.countP (Co.since T) = 0 := by
  simp only [inneradd]
  split <;> rfl

/-- The first timer leaves the queue. -/
theorem due_pop {t : ℕ} {q : List ℕ} (hq : d.queue = t :: q) :
    due d T = due (d.pop t q) T + if (d.objs t).expire ≤ T then 1 else 0 := by
  unfold due
  rw [hq, List.countP_cons]
  simp only [decide_eq_true_eq]
  rfl

/-- **The loop uses up a timer that is due** for the function it calls. -/
theorem due_loop {q : List ℕ} (hq : d.queue = q) :
    due (loop d now q).1 T + (loop d now q).2.countP (Co.since T) ≤ due d T := by
  induction q generalizing d with
  | nil => exact le_rfl
  | cons t q ih =>
      have hpop := due_pop (T := T) hq
      rw [loop]
      split
      · exact (ih rfl).trans (hpop ▸ Nat.le_add_right _ _)
      · split
        · rename_i hle
          rw [hpop, List.countP_singleton]
          refine Nat.add_le_add_left ?_ _
          by_cases hT : now = T
          · have hdue : (if (d.objs t).expire ≤ T then 1 else 0) = 1 := if_pos (hT ▸ hle)
            rw [hdue]
            split <;> omega
          · have hsince : Co.since T (.calling now t) = false := beq_false_of_ne hT
            rw [hsince, if_neg Bool.false_ne_true]
            exact Nat.zero_le _
        · exact le_rfl

/-- A function returns: its timer comes back with a time that is not due, or not at all. -/
theorem due_called {cos : List Co} (hw : Wf d (.calling now tid :: cos)) (hT : T ≤ d.time)
    (hC : (d.objs tid).repeated = true → d.time < d.again (d.objs tid).timeout) :
    due (called d now tid).1 T + (called d now tid).2.countP (Co.since T) ≤ due d T := by
  have hout : tid ∉ d.queue := fun hm => hw.not_queued (List.mem_append_left _ hm)
  rw [called]
  split
  · rename_i hrep
    obtain ⟨d₁, hd₁⟩ : ∃ d₁,
      d₁ = d.set tid fun t => { t with expire := d.plus d.time t.timeout } := ⟨_, rfl⟩
    have hold : due d₁ T = due d T := by
      rw [hd₁]
      refine due_congr rfl fun t ht => ?_
      have hne : t ≠ tid := by
        rintro rfl
        exact hout ht
      rw [set_ne hne]
    have hlate : ¬ (d₁.objs tid).expire ≤ T := by
      rw [hd₁, set_self, not_le]
      have htime : (T : ℚ) ≤ d.time := Nat.cast_le.2 hT
      exact htime.trans_lt (hC hrep)
    have hadd := due_inneradd d₁ tid T
    rw [if_neg hlate, Nat.add_zero] at hadd
    simp only [← hd₁, List.countP_append, since_inneradd, Nat.zero_add]
    exact (due_loop rfl).trans (hadd.trans hold).le
  · exact due_loop rfl

end Due

/-- **Each function that is called uses up a timer that is due**, and only a timer that is added to
be due at once is more. -/
theorem due_step {s s' : Sys} {e : Event Req Inp} {T : ℕ} (hw : Wf s.shared s.cos)
    (hC : Periodic s e) (he : machine.exec s e = some s') (hT : T ≤ s'.shared.time) :
    due s'.shared T + (left s e).countP (Co.since T)
      ≤ due s.shared T + if Prompt s e then 1 else 0 := by
  cases does_of_exec he with
  | add timeout inp =>
      obtain ⟨d, hd⟩ : ∃ d, d = s.shared.tick inp := ⟨_, rfl⟩
      obtain ⟨d₁, hd₁⟩ : ∃ d₁, d₁ = Data.set { d with tmrId := d.tmrId + 1 } (d.tmrId + 1)
        fun _ => { expire := d.plus d.time timeout, timeout := timeout } := ⟨_, rfl⟩
      have hnew : d.tmrId + 1 ∉ d.queue := fun hm => by
        rw [hd] at hm
        exact absurd (hw.queue_le _ hm) (Nat.not_succ_le_self _)
      have hold : due d₁ T = due s.shared T := by
        rw [hd₁]
        refine due_congr (hd ▸ rfl) fun t ht => ?_
        have hne : t ≠ d.tmrId + 1 := by
          rintro rfl
          exact hnew (hd ▸ ht)
        rw [set_ne hne, hd]
        rfl
      have hexp : (d₁.objs (d.tmrId + 1)).expire = d.plus d.time timeout := by rw [hd₁, set_self]
      have htime : (T : ℚ) ≤ d.time := Nat.cast_le.2 (hd ▸ hT)
      have hadd := due_inneradd d₁ (d.tmrId + 1) T
      have hleft : left s (.call (.add timeout) inp) = (inneradd d₁ (d.tmrId + 1)).2 := by
        rw [hd₁, hd]
        rfl
      have hs' : (add (s.shared.tick inp) timeout).1 = (inneradd d₁ (d.tmrId + 1)).1 := by
        rw [hd₁, hd]
        rfl
      rw [hleft, since_inneradd, Nat.add_zero]
      simp only [hs', hadd, hold, hexp]
      refine Nat.add_le_add_left ?_ _
      by_cases hp : d.again timeout ≤ d.time
      · have hprompt : Prompt s (.call (.add timeout) inp) := by
          rw [hd] at hp
          exact hp
        rw [if_pos hprompt]
        split <;> omega
      · have hlate : ¬ d.plus d.time timeout ≤ T := fun hle => hp (hle.trans htime)
        rw [if_neg hlate]
        exact Nat.zero_le _
  | remove tid inp =>
      refine le_of_eq ?_
      change due (remove (s.shared.tick inp) tid) T = due s.shared T
      unfold remove
      split
      · refine due_congr rfl fun t ht => ?_
        by_cases htid : t = tid
        · rw [htid, set_self]
          rfl
        · rw [set_ne htid]
          rfl
      · rfl
  | setRepeated tid inp =>
      refine le_of_eq ?_
      change due (setRepeated (s.shared.tick inp) tid) T = due s.shared T
      unfold setRepeated
      split
      · refine due_congr rfl fun t ht => ?_
        by_cases htid : t = tid
        · rw [htid, set_self]
          rfl
        · rw [set_ne htid]
          rfl
      · rfl
  | @look k inp l r hk hsp =>
      rw [left_resume hk rfl]
      exact (due_loop (d := s.shared.tick inp) rfl).trans (Nat.le_add_right _ _)
  | fail hk hsp hr =>
      rw [left_resume hk (if_pos hr)]
      exact Nat.le_add_right _ _
  | @back k now tid inp l r hk hsp hr =>
      rw [left_resume hk (if_neg (by simp [hr]))]
      rw [Periodic, hk] at hC
      exact (due_called ((hw.tick inp).front hsp) (time_called _ _ _ ▸ hT) (hC hr)).trans
        (Nat.le_add_right _ _)

/-! ### Every loop ends -/

/-- What an event leaves behind is there afterwards. -/
theorem mem_of_left {s s' : Sys} {e : Event Req Inp} {co : Co} (he : machine.exec s e = some s')
    (h : co ∈ left s e) : co ∈ s'.cos := by
  rcases Machine.exec_cases he with
    ⟨r, inp, rfl, rfl⟩ | ⟨k, inp, l, co', r, out, rfl, hk, hsp, ho, rfl⟩
  · exact List.mem_append_right _ h
  · rw [left_resume hk ho] at h
    exact List.mem_append_left _ (List.mem_append_right _ h)

/-- **What comes to an end is inside a function no more**, as long as no other function is
called. -/
theorem since_step {s s' : Sys} {e : Event Req Inp} {T : ℕ} (he : machine.exec s e = some s')
    (hnone : ∀ tid, Co.calling T tid ∉ left s e) :
    s'.cos.countP (Co.since T) ≤ s.cos.countP (Co.since T) ∧
      ∀ tid, Back s e T tid → s'.cos.countP (Co.since T) < s.cos.countP (Co.since T) := by
  have hzero : (left s e).countP (Co.since T) = 0 := by
    refine List.countP_eq_zero.2 fun co hco => ?_
    cases co with
    | scheduled => exact Bool.false_ne_true
    | calling now tid =>
        intro heq
        obtain rfl : now = T := eq_of_beq heq
        exact hnone tid hco
  rcases Machine.exec_cases he with
    ⟨r, inp, rfl, rfl⟩ | ⟨k, inp, l, co, r, out, rfl, hk, hsp, ho, rfl⟩
  · have hcount : (s.cos ++ (machine.call s.shared r inp).2).countP (Co.since T)
        = s.cos.countP (Co.since T) := by
      rw [List.countP_append]
      exact congrArg (s.cos.countP (Co.since T) + ·) hzero
    refine ⟨hcount.le, ?_⟩
    rintro tid ⟨k, inp', heq, -⟩
    cases heq
  · rw [left_resume hk ho] at hzero
    simp only [hsp, List.countP_append, List.countP_cons, hzero, Nat.add_zero]
    refine ⟨by omega, ?_⟩
    rintro tid ⟨k', inp', heq, hk'⟩
    cases heq
    obtain rfl : co = .calling T tid := Option.some_inj.1 (hk.symm.trans hk')
    rw [if_pos (show Co.since T (.calling T tid) = true from beq_self_eq_true T)]
    omega

section Run

variable {C : Sys → Event Req Inp → Prop} {plus : ℕ → ℚ → ℚ} {s : Sys} {run : ℕ → Sys}
  {ev : ℕ → Event Req Inp}

/-- The `timer_update`s that have read the clock at `T` call only finitely many functions. -/
theorem left_of_periodic (hs : machine.Reach C (starting plus) s)
    (h : machine.Endless Periodic s run ev)
    (hprompt : ∃ n, ∀ i ≥ n, ¬ Prompt (run i) (ev i)) (T : ℕ) :
    ∃ n, ∀ i ≥ n, ∀ tid, Co.calling T tid ∉ left (run i) (ev i) := by
  have hreach : ∀ i, machine.Reach (fun _ _ => True) (starting plus) (run i) := fun i =>
    (hs.mono fun _ _ _ => trivial).trans ((h.reach i).mono fun _ _ _ => trivial)
  have hmono : ∀ i j, i ≤ j → (run i).shared.time ≤ (run j).shared.time := by
    intro i j hij
    induction j, hij using Nat.le_induction with
    | base => exact le_rfl
    | succ j _ ih => exact ih.trans (time_le (h.step j))
  by_cases hclock : ∃ i, T ≤ (run i).shared.time
  · obtain ⟨i₀, hi₀⟩ := hclock
    obtain ⟨n, hn⟩ := hprompt
    -- from here on what is due at `T` is only used up
    have hdue : ∀ i ≥ max i₀ n,
      due (run (i + 1)).shared T + (left (run i) (ev i)).countP (Co.since T)
        ≤ due (run i).shared T := by
      intro i hi
      have hstep := due_step (T := T) (wf_of_reach (hreach i)) (h.cond i) (h.step i)
        (hi₀.trans (hmono i₀ (i + 1) ((le_max_left _ _).trans (hi.trans (Nat.le_succ i)))))
      rw [if_neg (hn i ((le_max_right _ _).trans hi))] at hstep
      exact hstep
    obtain ⟨m, hm⟩ := eventually_of_drop (f := fun i => due (run i).shared T)
      (P := fun i => ∃ tid, Co.calling T tid ∈ left (run i) (ev i)) (max i₀ n)
      (fun i hi => (Nat.le_add_right _ _).trans (hdue i hi)) fun i hi hmark => by
        obtain ⟨tid, htid⟩ := hmark
        have hpos : 0 < (left (run i) (ev i)).countP (Co.since T) :=
          List.countP_pos_iff.2 ⟨_, htid, beq_self_eq_true T⟩
        have := hdue i hi
        omega
    exact ⟨m, fun i hi tid htid => hm i hi ⟨tid, htid⟩⟩
  · -- the clock never gets there
    refine ⟨0, fun i _ tid htid => hclock ⟨i + 1, ?_⟩⟩
    exact clocked_of_reach (hreach (i + 1)) T tid (mem_of_left (h.step i) htid)

/-- **Every loop ends**: whatever queue has been built, and however sums are rounded, when repeated
timers are due later each time, when in the end no timer is added that is due at once, and when the
functions return, then no `timer_update` that has read the clock at `T` is left. -/
theorem ends_of_periodic (hs : machine.Reach (fun _ _ => True) (starting plus) s)
    (h : machine.Endless Periodic s run ev) (hprompt : ∃ n, ∀ i ≥ n, ¬ Prompt (run i) (ev i))
    (hback : Returns run ev) (T : ℕ) : ∃ n, ∀ i ≥ n, ∀ tid, Co.calling T tid ∉ (run i).cos := by
  obtain ⟨n, hn⟩ := left_of_periodic hs h hprompt T
  -- from here on those that are left come to an end one by one
  obtain ⟨m, hm⟩ := eventually_of_drop (f := fun i => (run i).cos.countP (Co.since T))
    (P := fun i => ∃ tid, Back (run i) (ev i) T tid) n
    (fun i hi => (since_step (h.step i) (hn i hi)).1)
    (fun i hi ⟨tid, hmark⟩ => (since_step (h.step i) (hn i hi)).2 tid hmark)
  refine ⟨m, fun i hi tid hmem => ?_⟩
  obtain ⟨j, hij, hend⟩ := hback i T tid hmem
  exact hm j (hi.trans hij) ⟨tid, hend⟩

end Run

/-- No function is being called. -/
def Silent (s : Sys) : Prop := ∀ now tid, Co.calling now tid ∉ s.cos

/-- A repeated timer is called, and comes back. -/
theorem ends_repeated : ∃ s run ev, machine.Reach (fun _ _ => True) start s ∧
    s.cos = [.calling 1 1] ∧
    machine.Endless Periodic s run ev ∧ Returns run ev ∧
    ∀ T, ∃ n, ∀ i ≥ n, ∀ tid, Co.calling T tid ∉ (run i).cos := by
  obtain ⟨s, hs, hp⟩ := Machine.exists_reach (M := machine) (C := fun _ _ => True) (i := start)
    [.call (.add 1) {}, .call (.setRepeated 1) {}, .resume 0 { elapsed := 1 }]
    (p := fun s => decide (s.cos = [.calling 1 1] ∧ Periodic s (.resume 0 {}) ∧
      (machine.exec s (.resume 0 {})).any (fun s' => decide (s'.cos = [.scheduled, .scheduled])) =
      true))
    (by decide +kernel)
  obtain ⟨hcos, hper, hnext⟩ := of_decide_eq_true hp
  obtain ⟨s₁, hexec, hcos₁⟩ := (Option.any_eq_true _ _).1 hnext
  -- then the functions are silent
  obtain ⟨run, ev, h, hq⟩ := Machine.exists_endless (M := machine) (C := Periodic)
    (P := fun s' => s' = s ∨ Silent s')
    (Q := fun s e => ¬ Prompt s e ∧ ∀ now tid, Co.calling now tid ∈ s.cos → Back s e now tid)
    (Or.inl rfl) fun s' hs' => by
      rcases hs' with rfl | hsilent
      · refine ⟨_, s₁, hper, hexec, Or.inr fun now tid hmem => ?_, fun hprompt => hprompt.elim,
          fun now tid hmem => ⟨0, {}, rfl, ?_⟩⟩
        · rw [of_decide_eq_true hcos₁] at hmem
          simp at hmem
        · rw [hcos] at hmem ⊢
          rw [List.mem_singleton.1 hmem]
          rfl
      · refine ⟨.call (.remove 0) {}, _, trivial, rfl, Or.inr fun now tid hmem => ?_,
          fun hprompt => hprompt.elim, fun now tid hmem => (hsilent now tid hmem).elim⟩
        simp only [machine, call, List.append_nil] at hmem
        exact hsilent now tid hmem
  have hback : Returns run ev := fun i now tid hmem => ⟨i, le_rfl, (hq i).2 now tid hmem⟩
  exact ⟨s, run, ev, hs, hcos, h, hback,
    ends_of_periodic hs h ⟨0, fun i _ => (hq i).1⟩ hback⟩

/-! ### What keeps a loop going -/

/-- The timer `tid` is repeated and due at once whenever it comes back, and it is due: it is the one
that is called, or one of the queue. -/
structure Spins (d : Data) (u tid : ℕ) : Prop where
  repeated : (d.objs tid).repeated = true
  stays : (d.objs tid).cancel = false
  period : d.again (d.objs tid).timeout ≤ d.time
  ready : tid = u ∨ (tid ∈ d.queue ∧ (d.objs tid).expire ≤ d.time)

/-- The only `timer_update` that is inside a function has read the clock at the present time, while
a timer spins. -/
def Spinning (s : Sys) : Prop :=
  Wf s.shared s.cos ∧ ∃ u tid l r, s.cos = l ++ .calling s.shared.time u :: r ∧
    (l ++ r).filterMap Co.tid? = [] ∧ Spins s.shared u tid

/-- As long as a timer is due, the loop calls a function. -/
theorem loop_of_due {d : Data} {now tid : ℕ} (hs : Sorted d.objs d.queue) (hq : tid ∈ d.queue)
    (hc : (d.objs tid).cancel = false) (he : (d.objs tid).expire ≤ now) :
    ∃ u, (loop d now d.queue).2 = [.calling now u] ∧
      (tid = u ∨ tid ∈ (loop d now d.queue).1.queue) := by
  obtain ⟨l, r, hsp⟩ := List.append_of_mem hq
  rcases loop_reaches now hsp hs hc with h | ⟨u, l', h, -, hq'⟩ | ⟨l', -, -, -, hlate⟩
  · exact ⟨tid, h, Or.inl rfl⟩
  · refine ⟨u, h, Or.inr ?_⟩
    rw [hq']
    exact List.mem_append_right _ List.mem_cons_self
  · exact absurd he (not_le.2 hlate)

/-- **A timer that spins is due again when a function has returned**, so another one is called. -/
theorem Spins.called {d : Data} {cos : List Co} {u tid : ℕ} (h : Spins d u tid)
    (hw : Wf d (.calling d.time u :: cos)) :
    ∃ u' p, (Timer.called d d.time u).2 = p ++ [.calling d.time u'] ∧ p.filterMap Co.tid? = [] ∧
      Spins (Timer.called d d.time u).1 u' tid := by
  -- what the loop makes of a state in which it is due
  have hloop : ∀ d' : Data, Sorted d'.objs d'.queue → d'.time = d.time → d'.plus = d.plus →
      tid ∈ d'.queue → (d'.objs tid).repeated = true → (d'.objs tid).cancel = false →
      d.again (d'.objs tid).timeout ≤ d.time → (d'.objs tid).expire ≤ d.time →
      ∃ u', (Timer.loop d' d.time d'.queue).2 = [.calling d.time u'] ∧
        Spins (Timer.loop d' d.time d'.queue).1 u' tid := by
    intro d' hs ht hplus hq hr hc hp he
    obtain ⟨u', hmem, hready⟩ := loop_of_due hs hq hc he
    refine ⟨u', hmem, ?_, ?_, ?_, ?_⟩
    · rwa [objs_loop]
    · rwa [objs_loop]
    · rw [objs_loop, Data.again, time_loop _ _ _ rfl, plus_loop, ht, hplus]
      exact hp
    · rw [objs_loop, time_loop _ _ _ rfl, ht]
      exact hready.imp_right fun hq' => ⟨hq', he⟩
  have hwait : tid ≠ u → tid ∈ d.queue ∧ (d.objs tid).expire ≤ d.time := h.ready.resolve_left
  rw [Timer.called]
  split
  · obtain ⟨d₁, hd₁⟩ : ∃ d₁,
      d₁ = d.set u fun t => { t with expire := d.plus d.time t.timeout } := ⟨_, rfl⟩
    have hagain := hw.again fun t => { t with expire := d.plus d.time t.timeout }
    rw [← hd₁] at hagain
    have hmem : ∀ x, x ∈ (inneradd d₁ u).1.queue ↔ x = u ∨ x ∈ d₁.queue := fun x => by
      rw [← List.mem_cons]
      exact (place_perm d₁.objs u d₁.queue).mem_iff
    have hobjs : (d₁.objs tid).repeated = true ∧ (d₁.objs tid).cancel = false ∧
        d.again (d₁.objs tid).timeout ≤ d.time ∧ (d₁.objs tid).expire ≤ d.time ∧
        (tid = u ∨ tid ∈ d₁.queue) := by
      rw [hd₁]
      by_cases htu : tid = u
      · subst htu
        rw [set_self]
        exact ⟨h.repeated, h.stays, h.period, h.period, Or.inl rfl⟩
      · rw [set_ne htu]
        exact ⟨h.repeated, h.stays, h.period, (hwait htu).2, Or.inr (hwait htu).1⟩
    obtain ⟨hr, hc, hp, he, hq⟩ := hobjs
    obtain ⟨u', hcall, hspins⟩ := hloop (inneradd d₁ u).1 hagain.sorted (hd₁ ▸ rfl) (hd₁ ▸ rfl)
      ((hmem tid).2 hq) hr hc hp he
    simp only [← hd₁]
    exact ⟨u', (inneradd d₁ u).2, by rw [hcall], tids_inneradd d₁ u, hspins⟩
  · rename_i hnot
    have htu : tid ≠ u := by
      rintro rfl
      exact hnot h.repeated
    obtain ⟨u', hcall, hspins⟩ :=
      hloop d hw.tail.sorted rfl rfl (hwait htu).1 h.repeated h.stays h.period (hwait htu).2
    exact ⟨u', [], hcall, rfl, hspins⟩

/-- The function that a `timer_update` is inside returns. -/
theorem exec_back {s : Sys} {l r : List Co} {co : Co} {inp : Inp} {out : Data × List Co}
    (hsp : s.cos = l ++ co :: r) (ho : resume s.shared co inp = some out) :
    machine.exec s (.resume l.length inp) = some ⟨out.1, l ++ out.2 ++ r⟩ := by
  simp [Machine.exec, hsp, machine, ho]

/-- The functions return at once, and the clock stands still. -/
def Still (_ : Sys) : Event Req Inp → Prop
  | .call _ _ => False
  | .resume _ inp => inp = {}

/-- **The function returns at once, and the timer spins again.** -/
theorem Spinning.step {s : Sys} (h : Spinning s) : ∃ e s', Still s e ∧ machine.exec s e = some s' ∧
    (Spinning s' ∧ s'.shared.time = s.shared.time) ∧ (∃ tid, Co.calling s.shared.time tid ∈ s.cos) ∧
    ∀ now tid, Co.calling now tid ∈ s.cos → Back s e now tid := by
  obtain ⟨hw, u, tid, l, r, hsp, hrest, hspins⟩ := h
  obtain ⟨u', p, hcall, hnone, hspins'⟩ := hspins.called (hw.front hsp)
  have hexec : machine.exec s (.resume l.length {}) = some ⟨(called s.shared s.shared.time u).1,
      l ++ (called s.shared s.shared.time u).2 ++ r⟩ := exec_back hsp rfl
  have htime : (called s.shared s.shared.time u).1.time = s.shared.time := time_called _ _ _
  have hmem : Co.calling s.shared.time u ∈ s.cos := hsp ▸ List.mem_append_right _ List.mem_cons_self
  refine ⟨.resume l.length {}, _, rfl, hexec,
    ⟨⟨hw.step hexec, u', tid, l ++ p, r, ?_, ?_, hspins'⟩, htime⟩,
    ⟨u, hmem⟩, fun now t hm => ⟨l.length, {}, rfl, ?_⟩⟩
  · simp only [htime, hcall, List.append_assoc, List.singleton_append]
  · simp only [List.filterMap_append, hnone, List.append_nil] at hrest ⊢
    exact hrest
  · -- the others are not inside a function
    rw [hsp] at hm ⊢
    rcases List.mem_cons.1 (List.perm_middle.mem_iff.1 hm) with heq | hm
    · rw [heq]
      simp
    · have ht : t ∈ (l ++ r).filterMap Co.tid? := List.mem_filterMap.2 ⟨_, hm, rfl⟩
      rw [hrest] at ht
      cases ht

/-- **A timer that spins keeps the loop going**: functions are called forever by a `timer_update`
that has read the clock once, although each of them returns at once. -/
theorem endless_of_spinning {s : Sys} (h : Spinning s) : ∃ run ev, machine.Endless Still s run ev ∧
    Returns run ev ∧ ∀ i, ∃ tid, Co.calling s.shared.time tid ∈ (run i).cos := by
  obtain ⟨run, ev, hrun, hq⟩ := Machine.exists_endless (M := machine) (C := Still)
    (P := fun s' => Spinning s' ∧ s'.shared.time = s.shared.time)
    (Q := fun s' e => (∃ tid, Co.calling s.shared.time tid ∈ s'.cos) ∧
      ∀ now tid, Co.calling now tid ∈ s'.cos → Back s' e now tid) ⟨h, rfl⟩ fun s' hs' => by
        obtain ⟨e, s'', hC, he, ⟨hspin, htime⟩, hq⟩ := hs'.1.step
        rw [hs'.2] at htime hq
        exact ⟨e, s'', hC, he, ⟨hspin, htime⟩, hq⟩
  exact ⟨run, ev, hrun, fun i now tid hmem => ⟨i, le_rfl, (hq i).2 now tid hmem⟩, fun i => (hq i).1⟩

/-- **A repeated timer of period zero keeps the loop going.** -/
theorem period_zero_spins :
    ¬ ∀ (s : Sys) (run : ℕ → Sys) (ev : ℕ → Event Req Inp),
    machine.Reach (fun _ _ => True) start s →
      machine.Endless (fun _ _ => True) s run ev → (∃ n, ∀ i ≥ n, ¬ Prompt (run i) (ev i)) →
        Returns run ev →
        ∀ T, ∃ n, ∀ i ≥ n, ∀ tid, Co.calling T tid ∉ (run i).cos := by
  intro hall
  obtain ⟨s, hs, hp⟩ := Machine.exists_reach (M := machine) (C := fun _ _ => True) (i := start)
    [.call (.add 0) {}, .call (.setRepeated 1) {}, .resume 0 {}]
    (p := fun s => decide (s.cos = [.calling s.shared.time 1] ∧ (s.shared.objs 1).repeated = true ∧
      (s.shared.objs 1).cancel = false ∧ s.shared.again (s.shared.objs 1).timeout ≤ s.shared.time))
    (by decide +kernel)
  obtain ⟨hcos, hr, hc, ht⟩ := of_decide_eq_true hp
  have hspin : Spinning s := ⟨wf_of_reach hs, 1, 1, [], [], hcos, rfl, hr, hc, ht, Or.inl rfl⟩
  obtain ⟨run, ev, hrun, hback, hcalls⟩ := endless_of_spinning hspin
  have hprompt : ∃ n, ∀ i ≥ n, ¬ Prompt (run i) (ev i) := by
    refine ⟨0, fun i _ hi => ?_⟩
    have hstill := hrun.cond i
    cases he : ev i with
    | call r inp =>
        rw [he] at hstill
        exact hstill
    | resume k inp =>
        rw [he] at hi
        exact hi
  obtain ⟨n, hn⟩ := hall s run ev hs (hrun.mono fun _ _ _ => trivial) hprompt hback s.shared.time
  obtain ⟨tid, hmem⟩ := hcalls n
  exact hn n le_rfl tid hmem

end Timer

end Halieutics
