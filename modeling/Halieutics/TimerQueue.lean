/-
**The queue of the timer module, and what `timer.remove` is worth.**

The functions of timers may add and remove timers while `timer_update` is inside them, and several
`timer_update`s may be under way.  Nevertheless the queue is always in order: by the time at which
the timers expire, and timers of equal times as they came in.  The map knows the timers of the queue
and no others, which is where `timer.remove` fails: while the function of a timer runs, its timer is
not in the map.

Main definitions:

* `Halieutics.Timer.starts`, `Halieutics.Timer.enters` — the functions that an event calls, and the
  timer it puts into the queue;
* `Halieutics.Timer.History`, `Halieutics.Timer.note` — **the observer**: what has been removed,
  called and put into the queue;
* `Halieutics.Timer.QueueLaw` — **the law of the queue**;
* `Halieutics.Timer.RemovesInTime` — a repeated timer is not removed while its function runs.

Main results:

* `Halieutics.Timer.queueLaw_of_seen` — **the queue is in order, the map agrees with it, no function
  is called early, and the function of a timer that is not repeated is called once** in every run;
* `Halieutics.Timer.removed_of_removesInTime` — **the function of a removed timer is not called
  again**, in a run that meets the condition;
* `Halieutics.Timer.removed_while_called` — a repeated timer that is removed while its function runs
  is called again.
-/

import Halieutics.Observe
import Halieutics.Timer

set_option relaxedAutoImplicit false
set_option autoImplicit false

namespace Halieutics

namespace Timer

open LuaTable Coroutine

/-! ### The observer -/

/-- The `timer_update`s that an event leaves behind. -/
def left (s : Sys) : Event Req Inp → List Co
  | .call r inp => (call s.shared r inp).2
  | .resume k inp =>
      match s.cos[k]? with
      | none => []
      | some co => ((resume s.shared co inp).map Prod.snd).getD []

/-- The timers whose functions an event calls. -/
def starts (s : Sys) (e : Event Req Inp) : List ℕ := (left s e).filterMap Co.tid?

/-- The timer that an event puts into the queue. -/
def enters (s : Sys) : Event Req Inp → Option ℕ
  | .call (.add _) _ => some (s.shared.tmrId + 1)
  | .call _ _ => none
  | .resume k inp =>
      match s.cos[k]? with
      | some (.calling _ tid) =>
          if !inp.raises && (s.shared.objs tid).repeated then some tid else none
      | _ => none

/-- The timer that an event removes, when `timer.add` has returned its number. -/
def removes (s : Sys) : Event Req Inp → Option ℕ
  | .call (.remove tid) _ => if tid ≤ s.shared.tmrId then some tid else none
  | _ => none

/-- What has been removed, what has been called, and when each timer was last put into the queue. -/
structure History where
  removed : List ℕ := []
  started : List ℕ := []
  stamp : ℕ → ℕ := fun _ => 0
  count : ℕ := 0

/-- A timer enters the queue. -/
def History.enter (w : History) (tid : ℕ) : History :=
  { w with stamp := Function.update w.stamp tid w.count, count := w.count + 1 }

/-- Functions are called. -/
def History.call (w : History) (l : List ℕ) : History := { w with started := l ++ w.started }

/-- Timers are removed. -/
def History.remove (w : History) (l : List ℕ) : History := { w with removed := l ++ w.removed }

/-- **The observer.** -/
def note (s : Sys) (e : Event Req Inp) (w : History) : History :=
  (((enters s e).elim w w.enter).call (starts s e)).remove (removes s e).toList

/-! ### The law of the queue -/

/-- The timer `a` comes before `b`: it expires earlier, or was put into the queue earlier. -/
def Before (objs : ℕ → Tmr) (stamp : ℕ → ℕ) (a b : ℕ) : Prop :=
  (objs a).expire < (objs b).expire ∨ ((objs a).expire = (objs b).expire ∧ stamp a < stamp b)

/-- **The law of the queue.** -/
structure QueueLaw (s : Sys) (w : History) : Prop where
  /-- It is sorted, with equal times in the order of insertion. -/
  ordered : s.shared.queue.Pairwise (Before s.shared.objs w.stamp)
  nodup : s.shared.queue.Nodup
  /-- The map knows exactly the timers of the queue. -/
  mapped : ∀ tid, tid ∈ s.shared.map ↔ tid ∈ s.shared.queue
  /-- No function is called before its time. -/
  due : ∀ e s', machine.exec s e = some s' → ∀ tid ∈ starts s e,
    (s'.shared.objs tid).expire ≤ s'.shared.time
  /-- The function of a timer that is not repeated is called at most once. -/
  once : ∀ tid, (s.shared.objs tid).repeated = false → w.started.count tid ≤ 1

/-- **The condition**: a repeated timer is not removed while its function runs. -/
def RemovesInTime (s : Sys) : Event Req Inp → Prop
  | .call (.remove tid) _ => ∀ co ∈ s.cos, co.tid? = some tid → (s.shared.objs tid).repeated = false
  | _ => True

instance (s : Sys) (e : Event Req Inp) : Decidable (RemovesInTime s e) :=
  match e with
  | .call (.remove tid) _ =>
      (inferInstance : Decidable
        (∀ co ∈ s.cos, co.tid? = some tid → (s.shared.objs tid).repeated = false))
  | .call (.add _) _ => instDecidableTrue
  | .call (.setRepeated _) _ => instDecidableTrue
  | .resume _ _ => instDecidableTrue

/-! ### The loop -/

theorem set_self (d : Data) (tid : ℕ) (f : Tmr → Tmr) : (d.set tid f).objs tid = f (d.objs tid) :=
  Function.update_self _ _ _

theorem set_ne {d : Data} {t tid : ℕ} {f : Tmr → Tmr} (h : t ≠ tid) :
    (d.set tid f).objs t = d.objs t :=
  Function.update_of_ne h _ _

section Loop

variable {d : Data} {now tid : ℕ} {q : List ℕ}

/-- What is kept when the head of the queue is taken out is kept by the loop. -/
theorem loop_inv {P : Data → Prop} (hpop : ∀ d t q, d.queue = t :: q → P d → P (d.pop t q))
    (hq : d.queue = q) (h : P d) : P (loop d now q).1 := by
  induction q generalizing d with
  | nil => exact h
  | cons t q ih =>
      rw [loop]
      split
      · exact ih rfl (hpop d t q hq h)
      · split
        · exact hpop d t q hq h
        · exact h

/-- The loop takes timers out of the front of the queue. -/
theorem loop_suffix (hq : d.queue = q) : (loop d now q).1.queue <:+ q := by
  induction q generalizing d with
  | nil =>
      change d.queue <:+ []
      rw [hq]
  | cons t q ih =>
      rw [loop]
      split
      · exact (ih rfl).trans (List.suffix_cons t q)
      · split
        · exact List.suffix_cons t q
        · exact hq ▸ List.suffix_refl _

/-- **The loop calls only a timer of the queue that is due and has not been removed**, and takes it
out. -/
theorem loop_starts (hq : d.queue = q) (h : tid ∈ (loop d now q).2.filterMap Co.tid?) :
    (loop d now q).2 = [.calling now tid] ∧ (d.objs tid).cancel = false ∧
      (d.objs tid).expire ≤ now ∧ (tid :: (loop d now q).1.queue) <:+ q := by
  induction q generalizing d with
  | nil => cases h
  | cons t q ih =>
      rw [loop] at h ⊢
      split at h
      · rename_i hc
        obtain ⟨h1, h2, h3, h4⟩ := ih rfl h
        rw [if_pos hc]
        exact ⟨h1, h2, h3, h4.trans (List.suffix_cons t q)⟩
      · rename_i hc
        rw [if_neg hc]
        split at h
        · rename_i hle
          obtain rfl := List.mem_singleton.1 h
          rw [if_pos hle]
          exact ⟨rfl, Bool.eq_false_iff.2 hc, hle, List.suffix_refl _⟩
        · cases h

end Loop

/-! ### The invariant -/

/-- A timer goes behind all that come before it, and in front of those that expire later. -/
theorem ordered_place {objs : ℕ → Tmr} {stamp : ℕ → ℕ} {tid : ℕ} {q : List ℕ}
    (h : q.Pairwise (Before objs stamp)) (hlast : ∀ t ∈ q, stamp t < stamp tid) :
    (place objs tid q).Pairwise (Before objs stamp) := by
  induction q with
  | nil => exact List.pairwise_singleton _ _
  | cons t q ih =>
      obtain ⟨ht, hq⟩ := List.pairwise_cons.1 h
      rw [place]
      split
      · rename_i hlt
        refine List.pairwise_cons.2 ⟨fun x hx => Or.inl ?_, h⟩
        rcases List.mem_cons.1 hx with rfl | hx
        · exact hlt
        · rcases ht x hx with hx | ⟨hx, -⟩
          · exact hlt.trans hx
          · exact hx ▸ hlt
      · rename_i hle
        refine List.pairwise_cons.2 ⟨fun x hx => ?_,
          ih hq fun x hx => hlast x (List.mem_cons_of_mem t hx)⟩
        rcases List.mem_cons.1 ((place_perm objs tid q).mem_iff.1 hx) with rfl | hx
        · rcases (not_lt.1 hle).lt_or_eq with hlt | heq
          · exact Or.inl hlt
          · exact Or.inr ⟨heq, hlast t List.mem_cons_self⟩
        · exact ht x hx

/-- **The invariant of the queue and its history.** -/
structure Kept (d : Data) (w : History) : Prop where
  mapped : ∀ tid, tid ∈ d.map ↔ tid ∈ d.queue
  ordered : d.queue.Pairwise (Before d.objs w.stamp)
  stamped : ∀ t ∈ d.queue, w.stamp t < w.count
  known : ∀ tid ∈ w.started, tid ≤ d.tmrId
  once : ∀ tid, (d.objs tid).repeated = false →
    w.started.count tid ≤ 1 ∧ (tid ∈ d.queue → tid ∉ w.started)

namespace Kept

variable {d : Data} {w : History} {now tid : ℕ} {q : List ℕ}

/-- A timer may be changed as long as it stays where it is, and is not made one that is not
repeated. -/
theorem set (h : Kept d w) {f : Tmr → Tmr}
    (hexp : tid ∈ d.queue → (f (d.objs tid)).expire = (d.objs tid).expire)
    (hrep : (f (d.objs tid)).repeated = false → (d.objs tid).repeated = false ∨ tid ∉ w.started) :
    Kept (d.set tid f) w := by
  have hexpire : ∀ t ∈ d.queue, ((d.set tid f).objs t).expire = (d.objs t).expire := by
    intro t ht
    by_cases htid : t = tid
    · subst htid
      rw [set_self]
      exact hexp ht
    · rw [set_ne htid]
  refine ⟨h.mapped, ?_, h.stamped, h.known, fun t ht => ?_⟩
  · refine h.ordered.imp_of_mem fun {a b} ha hb hab => ?_
    unfold Before at hab ⊢
    rw [hexpire a ha, hexpire b hb]
    exact hab
  · by_cases htid : t = tid
    · subst htid
      rw [set_self] at ht
      rcases hrep ht with hold | hnever
      · exact h.once t hold
      · exact ⟨(List.count_eq_zero.2 hnever).le.trans (Nat.zero_le 1), fun _ => hnever⟩
    · rw [set_ne htid] at ht
      exact h.once t ht

/-- The head of the queue is taken out. -/
theorem pop (h : Kept d w) (hn : d.queue.Nodup) {t : ℕ} (hq : d.queue = t :: q) :
    Kept (d.pop t q) w := by
  rw [hq] at hn
  obtain ⟨hnot, -⟩ := List.nodup_cons.1 hn
  have hsub : ∀ x ∈ q, x ∈ d.queue := fun x hx => hq ▸ List.mem_cons_of_mem t hx
  have hord := h.ordered
  rw [hq] at hord
  refine ⟨fun x => ?_, (List.pairwise_cons.1 hord).2, fun x hx => h.stamped x (hsub x hx), h.known,
    fun x hx => ⟨(h.once x hx).1, fun hm => (h.once x hx).2 (hsub x hm)⟩⟩
  have hmap : x ∈ d.map ↔ x = t ∨ x ∈ q := by
    rw [h.mapped, hq, List.mem_cons]
  change x ∈ d.map.erase t ↔ x ∈ q
  rw [AList.mem_erase, hmap]
  constructor
  · rintro ⟨hne, rfl | hx⟩
    · exact absurd rfl hne
    · exact hx
  · intro hx
    refine ⟨?_, Or.inr hx⟩
    rintro rfl
    exact hnot hx

/-- A function is called whose timer has left the queue. -/
theorem call (h : Kept d w) (hout : tid ∉ d.queue) (hle : tid ≤ d.tmrId)
    (hnew : (d.objs tid).repeated = false → tid ∉ w.started) : Kept d (w.call [tid]) := by
  refine ⟨h.mapped, h.ordered, h.stamped, fun x hx => ?_, fun x hx => ?_⟩
  · rcases List.mem_cons.1 hx with rfl | hx
    · exact hle
    · exact h.known x hx
  · obtain ⟨hcount, hqueue⟩ := h.once x hx
    by_cases hxt : x = tid
    · subst hxt
      have hnone := hnew hx
      refine ⟨?_, fun hm => absurd hm hout⟩
      change (x :: w.started).count x ≤ 1
      rw [List.count_cons_self, List.count_eq_zero.2 hnone]
    · refine ⟨?_, fun hm hs => ?_⟩
      · change (tid :: w.started).count x ≤ 1
        rw [List.count_cons_of_ne (Ne.symm hxt)]
        exact hcount
      · exact hqueue hm ((List.mem_cons.1 hs).resolve_left hxt)

/-- A timer enters the queue. -/
theorem enter (h : Kept d w) (hout : tid ∉ d.queue)
    (hnew : (d.objs tid).repeated = false → tid ∉ w.started) :
    Kept (inneradd d tid).1 (w.enter tid) := by
  have hmem : ∀ x, x ∈ (inneradd d tid).1.queue ↔ x = tid ∨ x ∈ d.queue := fun x => by
    rw [← List.mem_cons]
    exact (place_perm d.objs tid d.queue).mem_iff
  have hself : (w.enter tid).stamp tid = w.count := Function.update_self _ _ _
  have hold : ∀ x ∈ d.queue, (w.enter tid).stamp x = w.stamp x := by
    intro x hx
    refine Function.update_of_ne ?_ _ _
    rintro rfl
    exact hout hx
  refine ⟨fun x => ?_, ?_, fun x hx => ?_, h.known, fun x hx => ⟨(h.once x hx).1, fun hm => ?_⟩⟩
  · rw [hmem, ← h.mapped]
    exact AList.mem_insert _
  · refine ordered_place (h.ordered.imp_of_mem fun {a b} ha hb hab => ?_) fun x hx => ?_
    · unfold Before at hab ⊢
      rw [hold a ha, hold b hb]
      exact hab
    · rw [hold x hx, hself]
      exact h.stamped x hx
  · rcases (hmem x).1 hx with rfl | hx
    · rw [hself]
      exact Nat.lt_succ_self _
    · rw [hold x hx]
      exact (h.stamped x hx).trans (Nat.lt_succ_self _)
  · rcases (hmem x).1 hm with rfl | hm
    · exact hnew hx
    · exact (h.once x hx).2 hm

/-- **The loop keeps the invariant.** -/
theorem loop (h : Kept d w) (hn : d.queue.Nodup) (hle : ∀ t ∈ d.queue, t ≤ d.tmrId)
    (hq : d.queue = q) :
    Kept (loop d now q).1 (w.call ((Timer.loop d now q).2.filterMap Co.tid?)) := by
  induction q generalizing d with
  | nil => exact h
  | cons t q ih =>
      have hpop := h.pop hn hq
      rw [hq] at hn hle
      obtain ⟨hnot, hn⟩ := List.nodup_cons.1 hn
      rw [Timer.loop]
      split
      · exact ih hpop hn (fun x hx => hle x (List.mem_cons_of_mem t hx)) rfl
      · split
        · refine hpop.call hnot (hle t List.mem_cons_self) fun hr => (h.once t hr).2 ?_
          exact hq ▸ List.mem_cons_self
        · exact h

end Kept

/-! ### Every event keeps it -/

theorem Wf.queue_nodup {d : Data} {cos : List Co} (h : Wf d cos) : d.queue.Nodup :=
  (List.nodup_append.1 h.nodup).1

theorem Wf.queue_le {d : Data} {cos : List Co} (h : Wf d cos) : ∀ t ∈ d.queue, t ≤ d.tmrId :=
  fun t ht => h.fresh t (List.mem_append_left _ ht)

theorem Kept.loop_of_wf {d : Data} {cos : List Co} {w : History} (h : Kept d w) (hw : Wf d cos)
    (now : ℕ) : Kept (Timer.loop d now d.queue).1
      (w.call ((Timer.loop d now d.queue).2.filterMap Co.tid?)) :=
  h.loop hw.queue_nodup hw.queue_le rfl

theorem Kept.tick {d : Data} {w : History} (h : Kept d w) (inp : Inp) : Kept (d.tick inp) w :=
  ⟨h.mapped, h.ordered, h.stamped, h.known, h.once⟩

/-- The invariant does not speak of what has been removed. -/
theorem Kept.remove {d : Data} {w : History} (h : Kept d w) (l : List ℕ) : Kept d (w.remove l) :=
  ⟨h.mapped, h.ordered, h.stamped, h.known, h.once⟩

/-- `inneradd` calls no function. -/
theorem tids_inneradd (d : Data) (tid : ℕ) : (inneradd d tid).2.filterMap Co.tid? = [] := by
  simp only [inneradd]
  split <;> rfl

theorem left_resume {s : Sys} {k : ℕ} {inp : Inp} {co : Co} {out : Data × List Co}
    (hk : s.cos[k]? = some co) (ho : resume s.shared co inp = some out) :
    left s (.resume k inp) = out.2 := by
  simp only [left, hk, ho, Option.map_some, Option.getD_some]

theorem Kept.add {d : Data} {cos : List Co} {w : History} (h : Kept d w) (hw : Wf d cos)
    (timeout : ℚ) : Kept (Timer.add d timeout).1 (w.enter (d.tmrId + 1)) := by
  have hout : d.tmrId + 1 ∉ d.queue := fun hm => absurd (hw.queue_le _ hm) (Nat.not_succ_le_self _)
  have hnew : d.tmrId + 1 ∉ w.started := fun hm => absurd (h.known _ hm) (Nat.not_succ_le_self _)
  have h' : Kept { d with tmrId := d.tmrId + 1 } w :=
    ⟨h.mapped, h.ordered, h.stamped, fun x hx => (h.known x hx).trans (Nat.le_succ _), h.once⟩
  exact (h'.set (fun hm => absurd hm hout) fun _ => Or.inr hnew).enter hout fun _ => hnew

/-- The function of `tid` has returned. -/
theorem Kept.returned {d : Data} {cos : List Co} {w : History} {now tid : ℕ} (h : Kept d w)
    (hw : Wf d (.calling now tid :: cos)) :
    Kept (called d now tid).1 ((if (d.objs tid).repeated then w.enter tid else w).call
      ((called d now tid).2.filterMap Co.tid?)) := by
  rw [called]
  split
  · rename_i hrep
    have hout : tid ∉ d.queue := fun hm => hw.not_queued (List.mem_append_left _ hm)
    have hset : Kept (d.set tid fun t => { t with expire := d.plus d.time t.timeout }) w :=
      h.set (fun hm => absurd hm hout) Or.inl
    have henter : Kept _ (w.enter tid) := hset.enter hout fun hr => by
      have hr' :
        ((d.set tid fun t => { t with expire := d.plus d.time t.timeout }).objs tid).repeated =
        true := by
        simpa only [Data.set, Function.update_self] using hrep
      rw [hr] at hr'
      cases hr'
    have hloop := henter.loop_of_wf
      (hw.again fun t => { t with expire := d.plus d.time t.timeout }) now
    simp only [List.filterMap_append, tids_inneradd, List.nil_append]
    exact hloop
  · exact h.loop_of_wf hw.tail now

/-- **Every event keeps the invariant.** -/
theorem kept_step {s s' : Sys} {e : Event Req Inp} {w : History} (hw : Wf s.shared s.cos)
    (h : Kept s.shared w) (he : machine.exec s e = some s') : Kept s'.shared (note s e w) := by
  unfold note
  refine Kept.remove ?_ _
  cases does_of_exec he with
  | add timeout inp =>
      have htids : starts s (.call (.add timeout) inp) = [] := tids_inneradd _ _
      rw [htids]
      exact (h.tick inp).add (hw.tick inp) timeout
  | remove tid inp =>
      change Kept (Timer.remove (s.shared.tick inp) tid) w
      unfold Timer.remove
      split
      · exact (h.tick inp).set (fun _ => rfl) Or.inl
      · exact h.tick inp
  | setRepeated tid inp =>
      change Kept (Timer.setRepeated (s.shared.tick inp) tid) w
      unfold Timer.setRepeated
      split
      · exact (h.tick inp).set (fun _ => rfl) fun hr => by cases hr
      · exact h.tick inp
  | @look k inp l r hk hsp =>
      have hstarts : starts s (.resume k inp) = (update (s.shared.tick inp)).2.filterMap Co.tid? :=
        congrArg _ (left_resume hk rfl)
      have henters : enters s (.resume k inp) = none := by simp only [enters, hk]
      rw [hstarts, henters]
      exact (h.tick inp).loop_of_wf (hw.tick inp) _
  | @fail k now tid inp l r hk hsp hr =>
      have hstarts : starts s (.resume k inp) = [] := by
        rw [starts, left_resume hk (if_pos hr)]
        rfl
      have henters : enters s (.resume k inp) = none := by simp [enters, hk, hr]
      rw [hstarts, henters]
      exact h.tick inp
  | @back k now tid inp l r hk hsp hr =>
      have hstarts : starts s (.resume k inp)
          = (called (s.shared.tick inp) now tid).2.filterMap Co.tid? :=
        congrArg _ (left_resume hk (if_neg (by simp [hr])))
      have henters : enters s (.resume k inp)
          = if (s.shared.objs tid).repeated then some tid else none := by simp [enters, hk, hr]
      have helim : (if (s.shared.objs tid).repeated then some tid else none).elim w w.enter
          = if (s.shared.objs tid).repeated then w.enter tid else w := by
        split <;> rfl
      rw [hstarts, henters, helim]
      exact (h.tick inp).returned ((hw.tick inp).front hsp)

theorem kept_of_seen {C : Sys → History → Event Req Inp → Prop} {plus : ℕ → ℚ → ℚ} {s : Sys}
    {w : History} (h : machine.Seen note C (starting plus) {} s w) : Kept s.shared w := by
  have hwf := h.and_inv (P := fun s _ => Wf s.shared s.cos) fun s w hs =>
    wf_of_reach (hs.reach (D := fun _ _ => True) fun _ _ _ _ => trivial)
  refine Machine.Seen.inv (P := fun s w => Kept s.shared w) ?_ ?_ hwf
  · refine ⟨fun tid => Iff.rfl, List.Pairwise.nil, fun t ht => ?_, fun t ht => ?_, fun t _ => ?_⟩
    · cases ht
    · cases ht
    · exact ⟨Nat.zero_le 1, fun _ hm => by cases hm⟩
  · exact fun s w e s' hk hC he => kept_step hC.2 hk he

/-! ### No function is called early -/

/-- The clock does not go backwards: a `timer_update` has read it before. -/
def Clocked (d : Data) (cos : List Co) : Prop := ∀ now tid, Co.calling now tid ∈ cos → now ≤ d.time

theorem Clocked.mono {d d' : Data} {cos cos' : List Co} (h : Clocked d cos)
    (hsub : ∀ co ∈ cos', co ∈ cos) (ht : d.time ≤ d'.time) : Clocked d' cos' :=
  fun now tid hm => (h now tid (hsub _ hm)).trans ht

theorem time_loop (d : Data) (now : ℕ) (q : List ℕ) (hq : d.queue = q) :
    (loop d now q).1.time = d.time :=
  loop_inv (P := fun d' => d'.time = d.time) (fun _ _ _ _ h => h) hq rfl

theorem time_called (d : Data) (now tid : ℕ) : (called d now tid).1.time = d.time := by
  rw [called]
  split <;> exact time_loop _ _ _ rfl

/-- What the loop leaves behind has read the clock before. -/
theorem Clocked.loop {d : Data} {cos : List Co} {now : ℕ} (h : Clocked d cos) (hn : now ≤ d.time) :
    Clocked (Timer.loop d now d.queue).1 ((Timer.loop d now d.queue).2 ++ cos) := by
  intro now' tid hm
  rw [time_loop d now d.queue rfl]
  rcases List.mem_append.1 hm with hm | hm
  · have htid : tid ∈ (Timer.loop d now d.queue).2.filterMap Co.tid? :=
      List.mem_filterMap.2 ⟨_, hm, rfl⟩
    rw [(loop_starts rfl htid).1] at hm
    cases List.mem_singleton.1 hm
    exact hn
  · exact h now' tid hm

/-- What is left behind by `inneradd` calls nothing. -/
theorem not_calling_inneradd {d : Data} {now t tid : ℕ}
    (h : Co.calling now t ∈ (inneradd d tid).2) :
    False := by
  have ht : t ∈ (inneradd d tid).2.filterMap Co.tid? := List.mem_filterMap.2 ⟨_, h, rfl⟩
  rw [tids_inneradd] at ht
  cases ht

theorem Clocked.inneradd {d : Data} {cos : List Co} (h : Clocked d cos) (tid : ℕ) :
    Clocked (Timer.inneradd d tid).1 ((Timer.inneradd d tid).2 ++ cos) := by
  intro now' t hm
  rcases List.mem_append.1 hm with hm | hm
  · exact (not_calling_inneradd hm).elim
  · exact h now' t hm

theorem Clocked.returned {d : Data} {cos : List Co} {now tid : ℕ}
    (h : Clocked d (.calling now tid :: cos)) :
    Clocked (called d now tid).1 ((called d now tid).2 ++ cos) := by
  have hn : now ≤ d.time := h now tid List.mem_cons_self
  have ht : Clocked d cos := h.mono (fun co hco => List.mem_cons_of_mem _ hco) le_rfl
  rw [called]
  split
  · have hset : Clocked (d.set tid fun t => { t with expire := d.plus d.time t.timeout }) cos :=
      ht.mono (fun co hco => hco) le_rfl
    refine ((hset.inneradd tid).loop hn).mono (fun co hco => ?_) le_rfl
    exact (Machine.perm_front _ _ _).mem_iff.1 hco
  · exact ht.loop hn

theorem clocked_of_reach {C : Sys → Event Req Inp → Prop} {plus : ℕ → ℚ → ℚ} {s : Sys}
    (h : machine.Reach C (starting plus) s) : Clocked s.shared s.cos := by
  refine Machine.Reach.inv (P := fun s => Clocked s.shared s.cos) ?_ ?_ h
  · intro now tid hm
    cases hm
  intro s e s' hs _ he
  have htick : ∀ inp : Inp, Clocked (s.shared.tick inp) s.cos := fun inp =>
    hs.mono (fun co hco => hco) (Nat.le_add_right _ _)
  cases does_of_exec he with
  | add timeout inp =>
      have hset :
        Clocked (Data.set { s.shared.tick inp with tmrId := (s.shared.tick inp).tmrId + 1 }
          ((s.shared.tick inp).tmrId + 1)
          fun _ => { expire := s.shared.plus (s.shared.tick inp).time timeout, timeout := timeout })
          s.cos :=
        (htick inp).mono (fun co hco => hco) le_rfl
      refine (hset.inneradd ((s.shared.tick inp).tmrId + 1)).mono (fun co hco => ?_) le_rfl
      exact List.perm_append_comm.mem_iff.1 hco
  | remove tid inp =>
      change Clocked (Timer.remove (s.shared.tick inp) tid) s.cos
      unfold Timer.remove
      split
      · exact htick inp
      · exact htick inp
  | setRepeated tid inp =>
      change Clocked (Timer.setRepeated (s.shared.tick inp) tid) s.cos
      unfold Timer.setRepeated
      split
      · exact htick inp
      · exact htick inp
  | @look k inp l r hk hsp =>
      have hrest : Clocked (s.shared.tick inp) (l ++ r) :=
        (htick inp).mono (fun co hco => hsp ▸ Machine.mem_of_mem_rest hco) le_rfl
      refine (hrest.loop le_rfl).mono (fun co hco => ?_) le_rfl
      exact (Machine.perm_front _ _ _).mem_iff.1 hco
  | fail hk hsp hr =>
      exact (htick _).mono (fun co hco => hsp ▸ Machine.mem_of_mem_rest hco) le_rfl
  | @back k now tid inp l r hk hsp hr =>
      have hall : Clocked (s.shared.tick inp) (.calling now tid :: (l ++ r)) :=
        (htick inp).mono (fun co hco => hsp ▸ List.perm_middle.mem_iff.2 hco) le_rfl
      refine hall.returned.mono (fun co hco => ?_) le_rfl
      exact (Machine.perm_front _ _ _).mem_iff.1 hco

/-- A function is called by the loop, on whatever the event has made of the module before. -/
theorem starts_loop {s s' : Sys} {e : Event Req Inp} {tid : ℕ} (he : machine.exec s e = some s')
    (ht : tid ∈ starts s e) : ∃ d now, s'.shared = (loop d now d.queue).1 ∧
      tid ∈ (loop d now d.queue).2.filterMap Co.tid? ∧
      (now = s'.shared.time ∨ ∃ t, Co.calling now t ∈ s.cos) := by
  cases does_of_exec he with
  | add timeout inp =>
      have htids : starts s (.call (.add timeout) inp) = [] := tids_inneradd _ _
      rw [htids] at ht
      cases ht
  | remove tid inp => cases ht
  | setRepeated tid inp => cases ht
  | @look k inp l r hk hsp =>
      rw [starts, left_resume hk rfl] at ht
      exact ⟨s.shared.tick inp, _, rfl, ht, Or.inl (time_loop _ _ _ rfl).symm⟩
  | fail hk hsp hr =>
      rw [starts, left_resume hk (if_pos hr)] at ht
      cases ht
  | @back k now t inp l r hk hsp hr =>
      rw [starts, left_resume hk (if_neg (by simp [hr]))] at ht
      have hmem : Co.calling now t ∈ s.cos := hsp ▸ List.mem_append_right _ List.mem_cons_self
      simp only [called] at ht ⊢
      split at ht
      · rename_i hrep
        rw [if_pos hrep]
        simp only [List.filterMap_append, tids_inneradd, List.nil_append] at ht
        exact ⟨_, now, rfl, ht, Or.inr ⟨t, hmem⟩⟩
      · rename_i hrep
        rw [if_neg hrep]
        exact ⟨_, now, rfl, ht, Or.inr ⟨t, hmem⟩⟩

theorem time_le {s s' : Sys} {e : Event Req Inp} (he : machine.exec s e = some s') :
    s.shared.time ≤ s'.shared.time := by
  have htick : ∀ inp : Inp, s.shared.time ≤ (s.shared.tick inp).time :=
    fun inp => Nat.le_add_right _ _
  cases does_of_exec he with
  | add timeout inp => exact htick inp
  | remove tid inp =>
      change s.shared.time ≤ (Timer.remove (s.shared.tick inp) tid).time
      unfold Timer.remove
      split <;> exact htick inp
  | setRepeated tid inp =>
      change s.shared.time ≤ (Timer.setRepeated (s.shared.tick inp) tid).time
      unfold Timer.setRepeated
      split <;> exact htick inp
  | @look k inp l r hk hsp => exact (time_loop _ _ _ rfl).ge.trans' (htick inp)
  | fail hk hsp hr => exact htick _
  | @back k now tid inp l r hk hsp hr =>
      exact (time_called _ _ _).ge.trans' (htick inp)

/-- **The queue is in order, the map agrees with it, no function is called early, and the function
of a timer that is not repeated is called once**, in every run. -/
theorem queueLaw_of_seen {plus : ℕ → ℚ → ℚ} {s : Sys} {w : History}
    (h : machine.Seen note (fun _ _ _ => True) (starting plus) {} s w) : QueueLaw s w := by
  have hreach : machine.Reach (fun _ _ => True) (starting plus) s := h.reach fun _ _ _ _ => trivial
  have hk := kept_of_seen h
  refine ⟨hk.ordered, (wf_of_reach hreach).queue_nodup, hk.mapped, fun e s' he tid ht => ?_,
    fun tid hr => (hk.once tid hr).1⟩
  obtain ⟨d, now, hd, hloop, hnow⟩ := starts_loop he ht
  obtain ⟨-, -, hle, -⟩ := loop_starts rfl hloop
  have hclock : now ≤ s'.shared.time := by
    rcases hnow with rfl | ⟨t, hmem⟩
    · exact le_rfl
    · exact (clocked_of_reach hreach now t hmem).trans (time_le he)
  have hobjs : s'.shared.objs = d.objs := by rw [hd, objs_loop]
  rw [hobjs]
  exact hle.trans (Nat.cast_le.2 hclock)

/-- A function is called in time, and again after it has been called. -/
theorem queueLaw_apartRun : ∃ s w, machine.Seen note (fun _ _ _ => True) start {} s w ∧
    s.shared.queue = [2, 1] ∧ w.started = [1] ∧ QueueLaw s w := by
  obtain ⟨s, w, hs, hp⟩ :=
    Machine.exists_seen (M := machine) note (fun _ _ _ => True) start {} apartRun
    (p := fun q => decide (q.1.shared.queue = [2, 1] ∧ q.2.started = [1])) (by decide +kernel)
  obtain ⟨hq, hstart⟩ := of_decide_eq_true hp
  exact ⟨s, w, hs, hq, hstart, queueLaw_of_seen hs⟩

/-! ### What is removed stays away -/

/-- **The removed timers**: one that waits is marked, and one whose function runs is not
repeated. -/
structure Gone (d : Data) (cos : List Co) (l : List ℕ) : Prop where
  known : ∀ tid ∈ l, tid ≤ d.tmrId
  queued : ∀ tid ∈ l, tid ∈ d.queue → (d.objs tid).cancel = true
  called : ∀ tid ∈ l, ∀ now, Co.calling now tid ∈ cos → (d.objs tid).repeated = false

namespace Gone

variable {d : Data} {cos cos' : List Co} {l : List ℕ} {now tid : ℕ}

theorem mono (h : Gone d cos l) (hsub : ∀ co ∈ cos', co ∈ cos) : Gone d cos' l :=
  ⟨h.known, h.queued, fun t ht now hm => h.called t ht now (hsub _ hm)⟩

theorem tick (h : Gone d cos l) (inp : Inp) :
    Gone (d.tick inp) cos l := ⟨h.known, h.queued, h.called⟩

/-- A timer is changed that has not been removed, or in nothing that matters. -/
theorem set (h : Gone d cos l) {f : Tmr → Tmr}
    (hf : tid ∈ l → (tid ∈ d.queue → (f (d.objs tid)).cancel = true) ∧
      ∀ now, Co.calling now tid ∈ cos → (f (d.objs tid)).repeated = false) :
    Gone (d.set tid f) cos l := by
  refine ⟨h.known, fun t ht hq => ?_, fun t ht now hm => ?_⟩
  · by_cases htid : t = tid
    · subst htid
      rw [set_self]
      exact (hf ht).1 hq
    · rw [set_ne htid]
      exact h.queued t ht hq
  · by_cases htid : t = tid
    · subst htid
      rw [set_self]
      exact (hf ht).2 now hm
    · rw [set_ne htid]
      exact h.called t ht now hm

/-- A timer that has not been removed enters the queue. -/
theorem inneradd (h : Gone d cos l) (hl : tid ∉ l) :
    Gone (inneradd d tid).1 ((inneradd d tid).2 ++ cos) l := by
  refine ⟨h.known, fun t ht hq => ?_, fun t ht now hm => ?_⟩
  · rcases List.mem_cons.1 ((place_perm d.objs tid d.queue).mem_iff.1 hq) with rfl | hq
    · exact absurd ht hl
    · exact h.queued t ht hq
  · rcases List.mem_append.1 hm with hm | hm
    · exact (not_calling_inneradd hm).elim
    · exact h.called t ht now hm

/-- **The loop calls no removed timer.** -/
theorem loop (h : Gone d cos l) (now : ℕ) :
    Gone (loop d now d.queue).1 ((loop d now d.queue).2 ++ cos) l ∧
      ∀ t ∈ (Timer.loop d now d.queue).2.filterMap Co.tid?, t ∉ l := by
  have hstarts : ∀ t ∈ (Timer.loop d now d.queue).2.filterMap Co.tid?, t ∉ l := by
    intro t ht hl
    obtain ⟨-, hc, -, hsuf⟩ := loop_starts rfl ht
    have hc' := h.queued t hl (hsuf.subset List.mem_cons_self)
    rw [hc] at hc'
    cases hc'
  have htmr : (Timer.loop d now d.queue).1.tmrId = d.tmrId :=
    loop_inv (P := fun d' => d'.tmrId = d.tmrId) (fun _ _ _ _ h => h) rfl rfl
  refine ⟨⟨fun t ht => htmr ▸ h.known t ht, fun t ht hq => ?_, fun t ht now' hm => ?_⟩, hstarts⟩
  · rw [objs_loop]
    exact h.queued t ht ((loop_suffix rfl).subset hq)
  · rw [objs_loop]
    rcases List.mem_append.1 hm with hm | hm
    · exact absurd ht (hstarts t (List.mem_filterMap.2 ⟨_, hm, rfl⟩))
    · exact h.called t ht now' hm

/-- **A function that returns is not followed by one of a removed timer.** -/
theorem returned (h : Gone d (.calling now tid :: cos) l) :
    Gone (Timer.called d now tid).1 ((Timer.called d now tid).2 ++ cos) l ∧
      ∀ t ∈ (Timer.called d now tid).2.filterMap Co.tid?, t ∉ l := by
  have ht : Gone d cos l := h.mono fun co hco => List.mem_cons_of_mem _ hco
  simp only [Timer.called]
  split
  · rename_i hrep
    have hl : tid ∉ l := by
      intro hm
      rw [h.called tid hm now List.mem_cons_self] at hrep
      cases hrep
    have hset : Gone (d.set tid fun t => { t with expire := d.plus d.time t.timeout }) cos l :=
      ht.set fun hm => absurd hm hl
    obtain ⟨hgone, hstarts⟩ := (hset.inneradd hl).loop now
    refine ⟨hgone.mono fun co hco => ?_, ?_⟩
    · exact (Machine.perm_front _ _ _).mem_iff.1 hco
    · simp only [List.filterMap_append, tids_inneradd, List.nil_append]
      exact hstarts
  · exact ht.loop now

end Gone

theorem removed_note (s : Sys) (e : Event Req Inp) (w : History) :
    (note s e w).removed = (removes s e).toList ++ w.removed := by
  unfold note
  cases enters s e <;> rfl

/-- `timer.remove` keeps removed timers away, when its timer is not a repeated one that is
called. -/
theorem Gone.remove {d : Data} {cos : List Co} {l : List ℕ} {tid : ℕ} (h : Gone d cos l)
    (hmap : ∀ t, t ∈ d.map ↔ t ∈ d.queue)
    (hcall : ∀ co ∈ cos, co.tid? = some tid → (d.objs tid).repeated = false) :
    Gone (remove d tid) cos l ∧ (tid ≤ d.tmrId → Gone (remove d tid) cos (tid :: l)) := by
  have hl : Gone (Timer.remove d tid) cos l := by
    unfold Timer.remove
    split
    · exact h.set fun hm => ⟨fun _ => rfl, fun now hc => hcall _ hc rfl⟩
    · exact h
  have hrep : ((Timer.remove d tid).objs tid).repeated = (d.objs tid).repeated := by
    unfold Timer.remove
    split
    · rw [set_self]
    · rfl
  refine ⟨hl, fun hle => ⟨fun t ht => ?_, fun t ht hq => ?_, fun t ht now hm => ?_⟩⟩
  · rcases List.mem_cons.1 ht with rfl | ht
    · unfold Timer.remove
      split <;> exact hle
    · exact hl.known t ht
  · rcases List.mem_cons.1 ht with rfl | ht
    · -- a timer of the queue is in the map
      unfold Timer.remove at hq ⊢
      split
      · rw [set_self]
      · rename_i hnone
        rw [if_neg hnone] at hq
        exact absurd (AList.lookup_isSome.2 ((hmap t).2 hq)) hnone
    · exact hl.queued t ht hq
  · rcases List.mem_cons.1 ht with rfl | ht
    · rw [hrep]
      exact hcall _ hm rfl
    · exact hl.called t ht now hm

/-- **Every event keeps removed timers away**, when a repeated timer is not removed while its
function runs. -/
theorem gone_step {s s' : Sys} {e : Event Req Inp} {w : History} (hw : Wf s.shared s.cos)
    (hk : Kept s.shared w) (h : Gone s.shared s.cos w.removed) (hC : RemovesInTime s e)
    (he : machine.exec s e = some s') :
    Gone s'.shared s'.cos (note s e w).removed ∧ ∀ tid ∈ starts s e, tid ∉ w.removed := by
  rw [removed_note]
  cases does_of_exec he with
  | add timeout inp =>
      have hnew : (s.shared.tick inp).tmrId + 1 ∉ w.removed := fun hm =>
        absurd (h.known _ hm) (Nat.not_succ_le_self _)
      have h' : Gone { s.shared.tick inp with tmrId := (s.shared.tick inp).tmrId + 1 } s.cos
        w.removed :=
        ⟨fun t ht => (h.known t ht).trans (Nat.le_succ _), h.queued, h.called⟩
      have hset : Gone (Data.set { s.shared.tick inp with tmrId := (s.shared.tick inp).tmrId + 1 }
          ((s.shared.tick inp).tmrId + 1)
          fun _ => { expire := s.shared.plus (s.shared.tick inp).time timeout, timeout := timeout })
          s.cos
          w.removed := h'.set fun hm => absurd hm hnew
      have htids : starts s (.call (.add timeout) inp) = [] := tids_inneradd _ _
      refine ⟨(hset.inneradd hnew).mono fun co hco => List.perm_append_comm.mem_iff.1 hco, ?_⟩
      rw [htids]
      exact fun t ht => by cases ht
  | remove tid inp =>
      refine ⟨?_, fun t ht => by cases ht⟩
      obtain ⟨hold, hnew⟩ := Gone.remove (h.tick inp) hk.mapped hC
      change Gone (Timer.remove (s.shared.tick inp) tid) s.cos
        ((if tid ≤ s.shared.tmrId then some tid else none).toList ++ w.removed)
      split
      · rename_i hle
        exact hnew hle
      · exact hold
  | setRepeated tid inp =>
      refine ⟨?_, fun t ht => by cases ht⟩
      change Gone (Timer.setRepeated (s.shared.tick inp) tid) s.cos w.removed
      unfold Timer.setRepeated
      split
      · rename_i hsome
        have hq : tid ∈ s.shared.queue := (hk.mapped tid).1 (AList.lookup_isSome.1 hsome)
        refine (h.tick inp).set fun hm => ⟨fun _ => h.queued tid hm hq, fun now hc => ?_⟩
        -- a timer of the queue is not being called
        obtain ⟨l, r, hsp⟩ := List.append_of_mem hc
        exact absurd (List.mem_append_left _ hq) (hw.front hsp).not_queued
      · exact h.tick inp
  | @look k inp l r hk hsp =>
      have hrest : Gone (s.shared.tick inp) (l ++ r) w.removed :=
        (h.tick inp).mono fun co hco => hsp ▸ Machine.mem_of_mem_rest hco
      obtain ⟨hgone, hstarts⟩ := hrest.loop (s.shared.tick inp).time
      rw [starts, left_resume hk rfl]
      refine ⟨hgone.mono fun co hco => ?_, hstarts⟩
      exact (Machine.perm_front _ _ _).mem_iff.1 hco
  | fail hk hsp hr =>
      rw [starts, left_resume hk (if_pos hr)]
      exact ⟨(h.tick _).mono fun co hco => hsp ▸ Machine.mem_of_mem_rest hco,
        fun t ht => by cases ht⟩
  | @back k now tid inp l r hk hsp hr =>
      have hall : Gone (s.shared.tick inp) (.calling now tid :: (l ++ r)) w.removed :=
        (h.tick inp).mono fun co hco => hsp ▸ List.perm_middle.mem_iff.2 hco
      obtain ⟨hgone, hstarts⟩ := hall.returned
      rw [starts, left_resume hk (if_neg (by simp [hr]))]
      refine ⟨hgone.mono fun co hco => ?_, hstarts⟩
      exact (Machine.perm_front _ _ _).mem_iff.1 hco

/-- **The function of a removed timer is not called again**, in every run in which no repeated timer
is removed while its function runs. -/
theorem removed_of_removesInTime {plus : ℕ → ℚ → ℚ} {s s' : Sys} {w : History} {e : Event Req Inp}
    (h : machine.Seen note (fun s _ e => RemovesInTime s e) (starting plus) {} s w)
    (hC : RemovesInTime s e) (he : machine.exec s e = some s') : ∀ tid ∈ starts s e,
    tid ∉ w.removed := by
  have hwf : ∀ {s w}, machine.Seen note (fun s _ e => RemovesInTime s e) (starting plus) {} s w →
      Wf s.shared s.cos ∧ Kept s.shared w := fun hs =>
    ⟨wf_of_reach (hs.reach (D := fun _ _ => True) fun _ _ _ _ => trivial), kept_of_seen hs⟩
  have hgone : Gone s.shared s.cos w.removed := by
    refine Machine.Seen.inv (P := fun s w => Gone s.shared s.cos w.removed) ?_ ?_
      (h.and_inv fun s w hs => hwf hs)
    · exact ⟨fun t ht => (by cases ht), fun t ht => (by cases ht), fun t ht => (by cases ht)⟩
    · exact fun s w e s' hg hc he => (gone_step hc.2.1 hc.2.2 hg hc.1 he).1
  exact (gone_step (hwf h).1 (hwf h).2 hgone hC he).2

/-- A timer is removed while it waits, and is not called. -/
theorem removed_apartRun : ∃ s w s' e,
    machine.Seen note (fun s _ e => RemovesInTime s e) start {} s w ∧ w.removed = [1] ∧
      machine.exec s e = some s' ∧ starts s e = [2] ∧ ∀ tid ∈ starts s e, tid ∉ w.removed := by
  obtain ⟨s, w, hs, hp⟩ :=
    Machine.exists_seen (M := machine) note (fun s _ e => RemovesInTime s e) start {}
    [.call (.add 1) {}, .call (.setRepeated 1) {}, .call (.add 2) {}, .call (.remove 1) {}]
    (p := fun q => decide (q.2.removed = [1] ∧ starts q.1 (.resume 0 { elapsed := 2 }) = [2] ∧
      (machine.exec q.1 (.resume 0 { elapsed := 2 })).isSome = true)) (by decide +kernel)
  obtain ⟨hrem, hstarts, hsome⟩ := of_decide_eq_true hp
  obtain ⟨s', he⟩ := Option.isSome_iff_exists.1 hsome
  exact ⟨s, w, s', _, hs, hrem, he, hstarts, removed_of_removesInTime hs trivial he⟩

/-- **A repeated timer that is removed while its function runs is called again.** -/
theorem removed_while_called :
    ¬ ∀ (s s' : Sys) (w : History) (e : Event Req Inp),
      machine.Seen note (fun _ _ _ => True) start {} s w → machine.exec s e = some s' →
        ∀ tid ∈ starts s e, tid ∉ w.removed := by
  intro hall
  obtain ⟨s, w, hs, hp⟩ := Machine.exists_seen (M := machine) note (fun _ _ _ => True) start {}
    [.call (.add 1) {}, .call (.setRepeated 1) {}, .resume 0 { elapsed := 1 }, .call (.remove 1) {},
      .resume 0 {}]
    (p := fun q => decide (q.2.removed = [1] ∧ starts q.1 (.resume 0 { elapsed := 1 }) = [1] ∧
      (machine.exec q.1 (.resume 0 { elapsed := 1 })).isSome = true)) (by decide +kernel)
  obtain ⟨hrem, hstarts, hsome⟩ := of_decide_eq_true hp
  obtain ⟨s', he⟩ := Option.isSome_iff_exists.1 hsome
  have hnot := hall s s' w _ hs he 1 (hstarts ▸ List.mem_singleton.2 rfl)
  have hmem : (1 : ℕ) ∈ w.removed := by
    have hlist : w.removed = [1] := hrem
    rw [hlist]
    exact List.mem_singleton.2 rfl
  exact hnot hmem

end Timer

end Halieutics
