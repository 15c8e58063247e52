/-
**The notices of the configuration service: `service/gm/config.lua`.**

The cache of notices is sorted by the time at which they expire.  A timer waits for the first of
them; its function deletes the notice and adds a timer for the next one, and so does a notice that
is added.  The delays are not checked: a notice that has expired already gives a timer that is due
at once.  Such a timer costs a notice, so there are only as many as notices have been added, and no
loop of `timer_update` goes on because of them.

A notice is told to the broadcast service when it is deleted, and the function of the timer is
suspended there with the time it has read.

Main definitions:

* `Halieutics.Notices.machine` — the cache as a machine: its coroutines are the functions of timers;
* `Halieutics.Notices.added` — the delay of the timer that an event adds;
* `Halieutics.Notices.Feeds` — the timers of a run are those of the notices.

Main results:

* `Halieutics.Notices.weight_step` — **a timer that is due at once uses up a notice**;
* `Halieutics.Notices.ends_of_feeds` — **the notices keep no loop going**, when in the end no notice
  is added.
-/

import Halieutics.TimerEnds

set_option relaxedAutoImplicit false
set_option autoImplicit false

namespace Halieutics

namespace Notices

open Coroutine

/-- A notice, without its text. -/
structure Notice where
  id : ℕ
  expire : ℚ

/-- The cache of notices, and the number of the last one. -/
structure Data where
  noticecache : List Notice := []
  maxNoticeId : ℕ := 0

/-- `MAX_NOTICE_EXPIRE`. -/
def maxNoticeExpire : ℕ := 25920000

/-- The requests: the function of a timer is called, and those of the operators. -/
inductive Req where
  | noticeMonitor
  | noticeadd (expire : Option ℚ)
  | noticedel (id : ℕ)

/-- `notice_monitor` deletes a notice; `now` is its local variable. -/
inductive Co where
  | deleting (now : ℕ)

/-- The loop of `CMD.noticeadd`: a notice goes behind the last one that expires earlier. -/
def insert (item : Notice) (cache : List Notice) : List Notice :=
  cache.rdropWhile (fun v => decide (item.expire ≤ v.expire)) ++
    item :: cache.rtakeWhile fun v => decide (item.expire ≤ v.expire)

/-- **`CMD.noticeadd`** at the time `now`, up to the timer it adds. -/
def noticeadd (d : Data) (expire : Option ℚ) (now : ℕ) : Data :=
  let item : Notice := ⟨d.maxNoticeId + 1, expire.getD (now + maxNoticeExpire)⟩
  { noticecache := insert item d.noticecache, maxNoticeId := d.maxNoticeId + 1 }

/-- **`CMD.noticedel`**. -/
def noticedel (d : Data) (id : ℕ) : Data :=
  { d with noticecache := d.noticecache.eraseP fun v => v.id == id }

/-- The first notice, if it has expired. -/
def expired (d : Data) (now : ℕ) : Option Notice :=
  d.noticecache.head?.filter fun v => decide (v.expire ≤ now)

/-- A request at the time `now`. -/
def call (d : Data) (r : Req) (now : ℕ) : Data × List Co :=
  match r with
  | .noticeMonitor =>
      match expired d now with
      | some notice => (noticedel d notice.id, [.deleting now])
      | none => (d, [])
  | .noticeadd expire => (noticeadd d expire now, [])
  | .noticedel id => (noticedel d id, [])

/-- `notice_monitor` goes on when the notice is deleted. -/
def resume (d : Data) (_ : Co) (_ : ℕ) : Option (Data × List Co) := some (d, [])

/-- **The cache as a machine**; a segment is given the time. -/
def machine : Machine Data Co Req ℕ := ⟨call, resume⟩

abbrev Sys := Pool Data Co

/-- The delay of the timer for the first notice. -/
def delay (d : Data) (now : ℕ) : Option ℚ := d.noticecache.head?.map fun v => v.expire - now

/-- The delay of the timer that an event adds. -/
def added (s : Sys) : Event Req ℕ → Option ℚ
  | .call .noticeMonitor now => if (expired s.shared now).isSome then none else delay s.shared now
  | .call (.noticeadd expire) now => delay (noticeadd s.shared expire now) now
  | .call (.noticedel _) _ => none
  | .resume k _ =>
      match s.cos[k]? with
      | some (.deleting now) => delay s.shared now
      | none => none

/-! ### What a timer that is due at once costs -/

/-- The notices, and the functions that have deleted one; a notice counts twice. -/
def weight (s : Sys) : ℕ := 2 * s.shared.noticecache.length + s.cos.length

/-- A timer of a notice that has not expired is not due. -/
theorem delay_pos {d : Data} {now : ℕ} {x : ℚ} (h : expired d now = none)
    (hx : delay d now = some x) :
    0 < x := by
  obtain ⟨v, hv, rfl⟩ := Option.map_eq_some_iff.1 hx
  rw [expired, hv] at h
  simp only [Option.filter_eq_none_iff, decide_eq_true_eq, not_le] at h
  have := h v rfl
  linarith

/-- The function of a timer deletes a notice that has expired. -/
theorem length_expired {d : Data} {now : ℕ} {notice : Notice} (h : expired d now = some notice) :
    (noticedel d notice.id).noticecache.length + 1 = d.noticecache.length := by
  obtain ⟨hhead, -⟩ := Option.filter_eq_some_iff.1 h
  obtain ⟨t, ht⟩ := List.head?_eq_some_iff.1 hhead
  simp [noticedel, ht]

/-- **A timer that is due at once uses up a notice**, unless it is that of a notice that is
added. -/
theorem weight_step {s s' : Sys} {e : Event Req ℕ} (he : machine.exec s e = some s')
    (hadd : ∀ expire now, e ≠ .call (.noticeadd expire) now) :
    weight s' ≤ weight s ∧ ∀ x, added s e = some x → x ≤ 0 → weight s' < weight s := by
  rcases Machine.exec_cases he with
    ⟨r, now, rfl, rfl⟩ | ⟨k, now, l, co, r, out, rfl, hk, hsp, ho, rfl⟩
  · cases r with
    | noticeMonitor =>
        cases hexp : expired s.shared now with
        | some notice =>
            have hlen := length_expired hexp
            simp only [weight, machine, call, hexp, added, Option.isSome_some, if_true,
              List.length_append, List.length_singleton]
            exact ⟨by omega, fun x hx => by cases hx⟩
        | none =>
            simp only [weight, machine, call, hexp, added, Option.isSome_none, Bool.false_eq_true,
              if_false, List.append_nil]
            exact ⟨le_rfl, fun x hx hle => absurd (delay_pos hexp hx) (not_lt.2 hle)⟩
    | noticeadd expire => exact absurd rfl (hadd expire now)
    | noticedel id =>
        have hlen : (noticedel s.shared id).noticecache.length ≤ s.shared.noticecache.length :=
          List.length_eraseP_le
        simp only [weight, machine, call, added, List.append_nil]
        exact ⟨by omega, fun x hx => by cases hx⟩
  · -- the function that goes on ends
    obtain rfl := Option.some_inj.1 ho
    simp only [weight, hsp, List.append_nil, List.length_append, List.length_cons]
    exact ⟨by omega, fun x _ _ => by omega⟩

/-! ### The notices keep no loop going -/

/-- **The timers are those of the notices**: a timer is added only when the notices add it. -/
structure Feeds (notices : ℕ → Sys) (does : ℕ → Option (Event Req ℕ))
    (ev : ℕ → Event Timer.Req Timer.Inp) : Prop where
  step : ∀ i e, does i = some e → machine.exec (notices i) e = some (notices (i + 1))
  rest : ∀ i, does i = none → notices (i + 1) = notices i
  timers : ∀ i timeout inp, ev i = .call (.add timeout) inp →
    ∃ e, does i = some e ∧ added (notices i) e = some timeout

/-- When sums are exact, a timer that is due at once has no positive delay. -/
theorem delay_of_prompt {s : Timer.Sys} {timeout : ℚ} {inp : Timer.Inp}
    (hs : s.shared.plus = Timer.sum)
    (h : Timer.Prompt s (.call (.add timeout) inp)) : timeout ≤ 0 := by
  have hsum : s.shared.plus (s.shared.tick inp).time timeout ≤ (s.shared.tick inp).time := h
  rw [hs, Timer.sum] at hsum
  linarith

/-- In the end no timer is added that is due at once, when in the end no notice is added. -/
theorem prompt_of_feeds {run : ℕ → Timer.Sys} {notices : ℕ → Sys} {does : ℕ → Option (Event Req ℕ)}
    {ev : ℕ → Event Timer.Req Timer.Inp} (hsum : ∀ i, (run i).shared.plus = Timer.sum)
    (h : Feeds notices does ev)
    (hadd : ∃ n, ∀ i ≥ n, ∀ expire now, does i ≠ some (.call (.noticeadd expire) now)) :
    ∃ n, ∀ i ≥ n, ¬ Timer.Prompt (run i) (ev i) := by
  obtain ⟨n, hn⟩ := hadd
  have hweight : ∀ i ≥ n, ∀ e, does i = some e → weight (notices (i + 1)) ≤ weight (notices i) ∧
      ∀ x, added (notices i) e = some x → x ≤ 0 → weight (notices (i + 1)) < weight (notices i) :=
    fun i hi e he => weight_step (h.step i e he) fun expire now heq => hn i hi expire now (heq ▸ he)
  refine eventually_of_drop (f := fun i => weight (notices i)) n (fun i hi => ?_) fun i hi hp => ?_
  · cases he : does i with
    | none => exact (congrArg weight (h.rest i he)).le
    | some e => exact (hweight i hi e he).1
  · cases hev : ev i with
    | call r inp =>
        rw [hev] at hp
        cases r with
        | add timeout =>
            obtain ⟨e, he, hx⟩ := h.timers i timeout inp hev
            exact (hweight i hi e he).2 timeout hx (delay_of_prompt (hsum i) hp)
        | remove tid => exact hp.elim
        | setRepeated tid => exact hp.elim
    | resume k inp =>
        rw [hev] at hp
        exact hp.elim

/-- **The notices keep no loop going**: whatever the delays of their timers are, every loop ends,
when in the end no notice is added. -/
theorem ends_of_feeds {s : Timer.Sys} {run : ℕ → Timer.Sys} {ev : ℕ → Event Timer.Req Timer.Inp}
    {notices : ℕ → Sys} {does : ℕ → Option (Event Req ℕ)}
    (hs : Timer.machine.Reach (fun _ _ => True) Timer.start s)
    (hrun : Timer.machine.Endless Timer.Periodic s run ev) (h : Feeds notices does ev)
    (hadd : ∃ n, ∀ i ≥ n, ∀ expire now, does i ≠ some (.call (.noticeadd expire) now))
    (hback : Timer.Returns run ev) (T : ℕ) :
    ∃ n, ∀ i ≥ n, ∀ tid, Timer.Co.calling T tid ∉ (run i).cos := by
  have hsum : ∀ i, (run i).shared.plus = Timer.sum := fun i =>
    (Timer.plus_of_reach (hrun.reach i)).trans (Timer.plus_of_reach hs)
  exact Timer.ends_of_periodic hs hrun (prompt_of_feeds hsum h hadd) hback T

end Notices

end Halieutics
