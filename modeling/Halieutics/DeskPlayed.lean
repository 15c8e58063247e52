/-
**A room that was played is not paid back.**

The handlers that pay back ask whether the game has begun, and the answer is put together from two
fields: `d.count`, which `gamestart` increments at once, and `d.isstart`, which `gamestart` sets
after a call of the database and `start_desk` clears before the yielding `free_desk`.  In between a
game has begun and the handlers do not know it.  A walk of `back_roomcard` that is under way when
the game begins goes on, too.

Main definitions:

* `Halieutics.PaidPlayed` — an entry was paid back after a game had begun;
* `Halieutics.StartsClean` — **the condition**.

Main results:

* `Halieutics.not_paidPlayed_of_startsClean` — **once a game has begun nothing is paid back**;
* `Halieutics.standup_during_start_is_paid` — a `standup` during `gamedb.start` is paid back.
-/

import Halieutics.DeskCosts

set_option relaxedAutoImplicit false
set_option autoImplicit false

namespace Halieutics

open LuaTable Coroutine

/-- The desk has paid an entry back after a game had begun. -/
def PaidPlayed (hist : List Act) : Prop := ∃ c, .rpc (.addProp c) ∈ since (.mark .doGame) hist

/-- The entry was paid back after a game had begun. -/
theorem paidPlayed_iff (hist : List Act) :
    PaidPlayed hist ↔ ∃ a ∈ since (.mark .doGame) hist, a.refund.isSome = true := by
  constructor
  · rintro ⟨c, hc⟩
    exact ⟨_, hc, rfl⟩
  · rintro ⟨a, ha, hr⟩
    cases a with
    | mark m => simp [Act.refund] at hr
    | rpc r =>
        cases r with
        | addProp c => exact ⟨c, ha⟩
        | _ => simp [Act.refund] at hr

instance (hist : List Act) : Decidable (PaidPlayed hist) :=
  decidable_of_iff _ (paidPlayed_iff hist).symm

/-! ### The condition -/

/-- `new_desk` passes the barrier. -/
def Job.begins : Job → Bool
  | .seg .ready => true
  | _ => false

/-- **Games start clean**: no request pays back while `d.count` says that a game has begun and
`d.isstart` does not, and `new_desk` passes the barrier only while no walk is under way. -/
def StartsClean (s : Sys) (j : Job) : Prop :=
  (1 ≤ s.shared.count → s.shared.isstart = false → paysBack s.shared j = false) ∧
  (j.begins = true → ∀ pc ∈ pcs s, pc.walk?.isNone = true)

instance (s : Sys) (j : Job) : Decidable (StartsClean s j) :=
  inferInstanceAs (Decidable ((_ → _ → _) ∧ (_ → ∀ pc ∈ pcs s, _)))

/-- The guards refuse to pay back when both fields say that a game has begun. -/
theorem isstart_of_paysBack {d : Desk} {j : Job} (h : paysBack d j = true) (hc : 1 ≤ d.count) :
    d.isstart = false := by
  cases hst : d.isstart with
  | false => rfl
  | true =>
      have hs : d.started = true := by simp [Desk.started, hst, hc]
      have hstand : ∀ uid, standupPays d uid = false := by simp [standupPays, hs]
      have hnow : dismissesNow d = false := by
        unfold dismissesNow
        split
        · simp [hs]
        · rfl
      unfold paysBack at h
      simp only [Bool.and_eq_true] at h
      obtain ⟨-, h⟩ := h
      split at h
      · rw [hstand] at h; exact absurd h (by simp)
      · simp [hst] at h
      · split at h
        · simp [hnow] at h
        · exact absurd h (by simp)

/-! ### Runs -/

/-- **Nothing is under way that would pay back a room that is played.** -/
structure PlayedInv (d : Desk) (l : List Pc) : Prop where
  counted : .mark .doGame ∈ d.life.acts → 1 ≤ d.count
  apart : 1 ≤ d.count → l.filterMap Pc.walk? = []
  never : ¬ PaidPlayed d.life.acts

theorem count_ready (d : Desk) (inp : Inp) (h : d.count = 0) :
    (Job.out d inp (.seg .ready)).d.count = 1 := by
  obtain ⟨d', pc, hs, -, hc, -⟩ := segment_ready (executed d inp .ready) inp
    ((executed_life d inp .ready).1.trans h)
  dsimp only [Job.out]
  rw [hs]
  exact hc

theorem PlayedInv.job {s : Sys} {j : Job} {inp : Inp} {rest : List Pc}
    (hp : (pcs s).Perm (j.pcs ++ rest)) (hone : OneNewDesk s.shared (pcs s)) (hC : StartsClean s j)
    (h : PlayedInv s.shared (j.pcs ++ rest)) :
    PlayedInv (j.out s.shared inp).d ((j.out s.shared inp).pcs ++ rest) := by
  have ht : ∀ pc ∈ j.pcs, pc.timely s.shared := fun pc hpc =>
    hone.timely pc (hp.mem_iff.2 (List.mem_append_left _ hpc))
  obtain ⟨new, hacts, hgame, hrefund⟩ := grows_job s.shared inp ht
  by_cases hj : j = .seg .ready
  · -- a game begins, and no walk is under way
    subst hj
    have hzero : s.shared.count = 0 := ht .ready (by simp [Job.pcs])
    have hrest : rest.filterMap Pc.walk? = [] := by
      rw [List.filterMap_eq_nil_iff]
      intro pc hpc
      simpa using hC.2 rfl pc (hp.mem_iff.2 (List.mem_append_right _ hpc))
    refine ⟨fun _ => (count_ready s.shared inp hzero).ge, fun _ => ?_, ?_⟩
    · rcases walks_job s.shared inp ht (by simp [Job.pcs, Pc.walk?]) with hw | hw
      · rw [List.filterMap_append, hw, hrest]; rfl
      · simp [paysBack, Job.command] at hw
    · rintro ⟨c, hc⟩
      rw [hacts] at hc
      rcases mem_since_append hc with hnew | hold
      · simpa using hrefund c hnew
      · exact h.never ⟨c, hold⟩
  · have hcount := count_job s.shared inp ht hj
    have hdo : .mark .doGame ∈ (j.out s.shared inp).d.life.acts →
      .mark .doGame ∈ s.shared.life.acts := by
      intro hm
      rw [hacts] at hm
      exact (List.mem_append.1 hm).resolve_left fun hn => hj (hgame hn)
    refine ⟨fun hm => by rw [hcount]; exact h.counted (hdo hm), fun hc => ?_, ?_⟩
    · rw [hcount] at hc
      have hl := h.apart hc
      rw [List.filterMap_append, List.append_eq_nil_iff] at hl
      rcases walks_job s.shared inp ht (List.filterMap_eq_nil_iff.1 hl.1) with hw | hw
      · rw [List.filterMap_append, hw, hl.2]; rfl
      · have := hC.1 hc (isstart_of_paysBack hw hc)
        rw [hw] at this
        exact absurd this (by simp)
    · rintro ⟨c, hc⟩
      rw [hacts] at hc
      rcases mem_since_append hc with hnew | hold
      · -- the walk that pays back says that no game has begun
        obtain ⟨w, rfl⟩ := hrefund c hnew
        have hzero : ¬ 1 ≤ s.shared.count := fun hc => by
          have hl := h.apart hc
          simp [Job.pcs, Pc.walk?] at hl
        rw [← hacts, since_eq_nil fun hm => hzero (h.counted (hdo hm))] at hc
        exact absurd hc (by simp)
      · exact h.never ⟨c, hold⟩

variable {id creater timelimit : ℕ} {pay : Pay} {s : Sys}

theorem playedInv_of_startsClean
    (h : desk.Reach (Under StartsClean) (created id creater pay timelimit) s) :
    PlayedInv s.shared (pcs s) := by
  refine desk_inv ?_ ?_ ?_ ?_ ?_ (h.and_inv fun s hs => one_newDesk hs)
  · intro d l l' hp hI
    refine ⟨hI.counted, fun hc => ?_, hI.never⟩
    have hw := hp.filterMap Pc.walk?
    rw [hI.apart hc] at hw
    exact hw.symm.eq_nil
  · intro d l b q hI
    exact ⟨hI.counted, hI.apart, hI.never⟩
  · intro d l u c hI
    exact ⟨hI.counted, hI.apart, hI.never⟩
  · refine ⟨by simp [created, Desk.create, Desk.life, Act.life], fun _ => rfl, ?_⟩
    rintro ⟨c, hc⟩
    exact absurd hc (by simp [created, Desk.create, Desk.life, Act.life, since])
  · rintro s e j inp rest ⟨hC, hone⟩ hj hp _ hI
    have hclean : StartsClean s j := by simpa [Under, hj] using hC
    exact hI.job hp hone hclean

/-- **Once a game has begun nothing is paid back**, in every run in which games start clean. -/
theorem not_paidPlayed_of_startsClean
    (h : desk.Reach (Under StartsClean) (created id creater pay timelimit) s) :
    ¬ PaidPlayed s.shared.hist := by
  rintro ⟨c, hc⟩
  exact (playedInv_of_startsClean h).never ⟨c, (mem_since_filter rfl rfl _).2 hc⟩

/-- The creator joins the desk and sits down, and so does user 2. -/
def allSit : List Ev :=
  [.resume 0 {}, .call (.join 1 false) {}, .resume 1 {}, .resume 1 {},
   .call (.sitdown 1 none) {}, .resume 1 {}] ++ joinAndSit

/-- User 2 is ready, and the creator starts the game. -/
def allReady : List Ev := [.call (.client 2 .ready) {}, .call (.client 1 .ready) {}]

/-- User 2 stands up before the game and sits down again; the refund is older than the game. -/
theorem not_paidPlayed_startGame :
    ∃ s, desk.Reach (Under StartsClean) (created 100001 1 ⟨true, 3⟩ 30) s ∧
      s.shared.count = 1 ∧ s.shared.isstart = true ∧ s.shared.refunds = [⟨2, 3, 1⟩] ∧
      ¬ PaidPlayed s.shared.hist := by
  obtain ⟨s, hs, hp⟩ := Machine.exists_reach
    (allSit ++ [.call (.standup 2) {}, .resume 1 {}, .resume 1 {}, .resume 1 {}, .resume 1 {},
      .resume 1 {}] ++ joinAndSit.drop 3 ++ allReady ++ [.resume 0 {}, .resume 0 {}])
    (p := fun s => decide (s.shared.count = 1 ∧ s.shared.isstart = true ∧
      s.shared.refunds = [⟨2, 3, 1⟩])) (C := Under StartsClean)
    (i := created 100001 1 ⟨true, 3⟩ 30) (M := desk) (by decide +kernel)
  obtain ⟨hc, hst, hr⟩ := of_decide_eq_true hp
  exact ⟨s, hs, hc, hst, hr, not_paidPlayed_of_startsClean hs⟩

/-- **A `standup` during `gamedb.start` is paid back**: the game has begun, and `d.isstart` is not
set yet. -/
theorem standup_during_start_is_paid :
    ¬ ∀ (id creater timelimit : ℕ) (pay : Pay) (s : Sys),
      desk.Reach Always (created id creater pay timelimit) s → ¬ PaidPlayed s.shared.hist := by
  intro hall
  obtain ⟨s, hs, hp⟩ := Machine.exists_reach
    (allSit ++ allReady ++
      [.resume 0 {}, .call (.standup 2) {}, .resume 1 {}, .resume 1 {}])
    (p := fun s => decide (PaidPlayed s.shared.hist)) (C := Always)
    (i := created 100001 1 ⟨true, 3⟩ 30) (M := desk) (by decide +kernel)
  exact hall _ _ _ _ s hs (of_decide_eq_true hp)

end Halieutics
