/-
**The course of a desk.**

`Halieutics.DeskLife` says what each kind of coroutine can do to the life of a desk.  This module
puts the kinds together.  There is one `new_desk`, and where it stands agrees with the number of
games; so a game is counted only when `new_desk` passes the barrier, entries are paid back only
inside walks, walks begin only with the requests that say so, and `free_desk` leaves its mark.

Main definitions:

* `Halieutics.OneNewDesk` — there is at most one `new_desk`, and it is where the games say;
* `Halieutics.JobLife` — what a piece of work can do to the life of a desk.

Main results:

* `Halieutics.one_newDesk` — **there is at most one `new_desk`** in every reachable state;
* `Halieutics.job_life` — **every piece of work is on the list**;
* `Halieutics.grows_job`, `Halieutics.count_job`, `Halieutics.walks_job`, `Halieutics.freeing_job` —
  where milestones, games, walks and the points of `free_desk` come from.
-/

import Halieutics.DeskLife

set_option relaxedAutoImplicit false
set_option autoImplicit false

namespace Halieutics

open LuaTable Coroutine

variable {R D : Prop}

/-! ### There is one `new_desk` -/

/-- A coroutine that is not `new_desk` neither counts or starts games nor waits on the desk. -/
structure Steady (f : Life) (o : Out) : Prop where
  pcs : ∀ pc ∈ o.pcs, pc.newDesk = false
  count : o.d.life.count = f.count
  isstart : o.d.life.isstart = f.isstart
  waiting : f.waiting = none → o.d.life.waiting = none

theorem newDesk_of_calm {pc : Pc} (h : pc.calm = true) : pc.newDesk = false := by
  simp only [Pc.calm, Bool.and_eq_true, Bool.not_eq_true'] at h
  exact h.1.1

theorem newDesk_of_freeing {pc : Pc} (h : pc.freeing = true) : pc.newDesk = false := by
  cases pc <;> simp_all [Pc.freeing, Pc.newDesk]

theorem newDesk_of_walk {pc : Pc} {x : Walk × Stage} (h : pc.walk? = some x) :
    pc.newDesk = false := by
  cases pc <;> simp_all [Pc.walk?, Pc.newDesk]

theorem steady_wait {d : Desk} {pc : Pc} {f : Life} (hpc : pc.newDesk = false)
    (hc : d.life.count = f.count) (hs : d.life.isstart = f.isstart)
    (hw : f.waiting = none → d.life.waiting = none) : Steady f (.wait d pc) :=
  ⟨by simpa [Out.wait, Out.pcs] using hpc, hc, hs, hw⟩

theorem steady_startWalk {d : Desk} {f : Life} (userid : Option ℕ) (k : AfterBack)
    (hc : d.life.count = f.count) (hs : d.life.isstart = f.isstart)
    (hw : f.waiting = none → d.life.waiting = none) : Steady f (startWalk d userid k) := by
  obtain ⟨pc, w, st, h, hpc, -⟩ := startWalk_cases d userid k
  rw [h]
  exact steady_wait (newDesk_of_walk hpc) hc hs hw

theorem steady_freeDesk {d : Desk} {f : Life} (r : Ret) (hc : d.life.count = f.count)
    (hs : d.life.isstart = f.isstart) (hw : f.waiting = none → d.life.waiting = none) :
    Steady f (freeDesk d r) := by
  obtain ⟨d', pc, h, hpc, hl⟩ := freeDesk_cases d r
  rw [h]
  exact steady_wait (newDesk_of_freeing hpc) (by rw [hl]; exact hc) (by rw [hl]; exact hs)
    (by rw [hl]; exact hw)

theorem LifeEffect.steady {f : Life} {o : Out} (h : LifeEffect R D f o) : Steady f o := by
  cases h with
  | calm hl hpc =>
      exact ⟨fun pc h => newDesk_of_calm (hpc pc h), by rw [hl], by rw [hl], by rw [hl]; exact id⟩
  | woken hl _ hpc =>
      exact ⟨fun pc h => newDesk_of_calm (hpc pc h), by rw [hl], by rw [hl], by rw [hl]; simp⟩
  | walk hl => exact steady_startWalk _ _ (by rw [hl]) (by rw [hl]) (by rw [hl]; exact id)
  | dismissed _ he =>
      cases he with
      | raise hl =>
          exact ⟨by simp [Out.ret, Out.pcs], by simp [Out.ret, hl], by simp [Out.ret, hl],
            by simp [Out.ret, hl]⟩
      | free hl => exact steady_freeDesk _ (by rw [hl]) (by rw [hl]) (by rw [hl]; exact id)
      | back hl => exact steady_startWalk _ _ (by rw [hl]) (by rw [hl]) (by rw [hl]; exact id)

theorem executed_life (d : Desk) (inp : Inp) (pc : Pc) :
    (executed d inp pc).life.count = d.life.count ∧
      (executed d inp pc).life.isstart = d.life.isstart ∧
      (executed d inp pc).life.waiting = d.life.waiting := by
  unfold executed
  split <;> exact ⟨rfl, rfl, rfl⟩

theorem steady_job (d : Desk) (inp : Inp) {j : Job} (hj : ∀ pc ∈ j.pcs, pc.newDesk = false) :
    Steady d.life (j.out d inp) := by
  by_cases hcalm : ∀ pc ∈ j.pcs, pc.calm = true
  · exact (life_job d inp hcalm).steady
  · cases j with
    | req r => simp [Job.pcs] at hcalm
    | cmd u c => simp [Job.pcs] at hcalm
    | seg pc =>
        have hnew := hj pc (by simp [Job.pcs])
        obtain ⟨hc, hst, hw⟩ := executed_life d inp pc
        dsimp only [Job.out]
        cases hwalk : pc.walk? with
        | some x =>
            rcases segment_walk (executed d inp pc) inp hwalk with
              ⟨pc', w', st', h, hpc', -⟩ | ⟨-, h⟩ | ⟨r, h⟩
            · rw [h]
              exact steady_wait (newDesk_of_walk hpc') hc hst (by rw [hw]; exact id)
            · rw [h]
              have hsteady : Steady (executed d inp pc).life
                  (afterBack (replaceCosts (executed d inp pc) x.1.costs) x.1.k) := by
                cases x.1.k with
                | standup u k =>
                    exact (tail_actstandup (U := True) (replaceCosts (executed d inp pc) _) _ k
                      trivial).life (R := True) (D := True) |>.steady
                | free r => exact steady_freeDesk r rfl rfl id
              exact ⟨hsteady.pcs, hsteady.count.trans hc, hsteady.isstart.trans hst,
                fun h => hsteady.waiting (hw.trans h)⟩
            · rw [h]
              exact ⟨by simp [Out.ret, Out.pcs], hc, hst, by rw [Out.d_ret, hw]; exact id⟩
        | none =>
            have hfree : pc.freeing = true := by
              by_contra hne
              simp [Job.pcs, Pc.calm, hnew, hne, hwalk] at hcalm
            rcases segment_freeing (executed d inp pc) inp hfree with
              ⟨d', pc', h, hl, hpc', -⟩ | ⟨r, d', -, h, hl⟩
            · rw [h]
              exact steady_wait (newDesk_of_freeing hpc') (by rw [hl, hc]) (by rw [hl, hst])
                (by rw [hl, hw]; exact id)
            · rw [h]
              exact ⟨by simp [Out.ret, Out.pcs], by simp [Out.ret, hl, hc], by
                simp [Out.ret, hl, hst],
                by simp [Out.ret, hl, hw]⟩

/-- A coroutine is where the number of games says. -/
def Pc.timely (d : Desk) : Pc → Prop
  | .monitor => d.count = 0 ∧ d.sync.waiting = none
  | .ready => d.count = 0
  | pc => pc.playing = true → 1 ≤ d.count

/-- **There is at most one `new_desk`**, and it counts the games. -/
structure OneNewDesk (d : Desk) (l : List Pc) : Prop where
  one : l.countP Pc.newDesk ≤ 1
  timely : ∀ pc ∈ l, pc.timely d

theorem playing_newDesk {pc : Pc} (h : pc.playing = true) : pc.newDesk = true := by
  cases pc <;> simp_all [Pc.playing, Pc.newDesk]

theorem playing_of_newDesk {pc : Pc} (h : pc.newDesk = true) (hm : pc ≠ .monitor)
    (hr : pc ≠ .ready) : pc.playing = true := by
  cases pc <;> first | rfl | exact absurd rfl hm | exact absurd rfl hr | simp [Pc.newDesk] at h

theorem count_of_playing {d : Desk} {pc : Pc} (h : pc.playing = true) (ht : pc.timely d) :
    1 ≤ d.count := by
  cases pc <;> first | exact ht rfl | simp [Pc.playing] at h

theorem timely_of_not_newDesk (d : Desk) {pc : Pc} (h : pc.newDesk = false) : pc.timely d := by
  cases pc <;> simp_all [Pc.timely, Pc.newDesk, Pc.playing]

theorem timely_of_playing {d : Desk} {pc : Pc} (h : pc.playing = true) (hc : 1 ≤ d.count) :
    pc.timely d := by
  cases pc <;> simp_all [Pc.timely, Pc.playing]

theorem timely_congr {d d' : Desk} {pc : Pc} (hc : d'.count = d.count)
    (hw : d'.sync.waiting = d.sync.waiting) (h : pc.timely d) : pc.timely d' := by
  unfold Pc.timely at h ⊢
  split <;> simp_all

/-- The points of other coroutines stay timely while the games are not counted. -/
theorem timely_of_steady {d : Desk} {o : Out} (h : Steady d.life o) {pc : Pc} (hpc : pc.timely d) :
    pc.timely o.d := by
  have hc : o.d.count = d.count := h.count
  cases pc <;> simp only [Pc.timely, hc] at hpc ⊢ <;> try exact hpc
  exact ⟨hpc.1, h.waiting hpc.2⟩

/-- What `new_desk` leaves behind. -/
theorem newDesk_job (d : Desk) (inp : Inp) {pc : Pc} (hnew : pc.newDesk = true)
    (ht : pc.timely d) :
    (Job.out d inp (.seg pc)).pcs.countP Pc.newDesk ≤ 1 ∧
      ∀ pc' ∈ (Job.out d inp (.seg pc)).pcs, pc'.timely (Job.out d inp (.seg pc)).d := by
  have hlife := life_executed d inp (Or.inr hnew)
  have hcount : (executed d inp pc).count = d.count := congrArg Life.count hlife
  have hwait : (executed d inp pc).sync.waiting = d.sync.waiting := congrArg Life.waiting hlife
  have single : ∀ (d' : Desk) (pc' : Pc), pc'.timely d' →
      (Out.wait d' pc').pcs.countP Pc.newDesk ≤ 1 ∧ ∀ p ∈ (Out.wait d' pc').pcs, p.timely d' := by
    intro d' pc' h
    refine ⟨?_, by simpa [Out.wait, Out.pcs] using h⟩
    simp only [Out.wait, Out.pcs, List.countP_singleton]
    split <;> omega
  dsimp only [Job.out]
  by_cases hm : pc = .monitor
  · subst hm
    obtain ⟨d', h, hl⟩ := segment_monitor (executed d inp .monitor) inp (hwait.trans ht.2)
    rw [h]
    refine single d' .ready ?_
    exact (congrArg Life.count hl).trans (hcount.trans ht.1)
  · by_cases hr : pc = .ready
    · subst hr
      obtain ⟨d', pc', h, hpc', hc', -⟩ :=
        segment_ready (executed d inp .ready) inp (hcount.trans ht)
      rw [h]
      exact single d' pc' (timely_of_playing hpc' (by rw [show d'.count = 1 from hc']))
    · have hplay := playing_of_newDesk hnew hm hr
      have hone : 1 ≤ (executed d inp pc).life.count := by
        rw [hlife]
        exact count_of_playing hplay ht
      have hon := onward_segment (executed d inp pc) inp hplay
      generalize segment (executed d inp pc) inp pc = o at hon
      cases hon with
      | next hs hpc' =>
          exact single _ _ (timely_of_playing hpc' (le_of_le_of_eq hone hs.count.symm))
      | stop hs => simp [Out.ret, Out.pcs]
      | free hs =>
          obtain ⟨d', pc', h, hpc', -⟩ := freeDesk_cases _ _
          rw [h]
          exact single d' pc' (timely_of_not_newDesk d' (newDesk_of_freeing hpc'))
      | back hs hz => exact absurd hz (by omega)

theorem OneNewDesk.perm {d : Desk} {l l' : List Pc} (hp : l.Perm l') (h : OneNewDesk d l) :
    OneNewDesk d l' :=
  ⟨hp.countP_eq Pc.newDesk ▸ h.one, fun pc hpc => h.timely pc (hp.mem_iff.2 hpc)⟩

/-- When `new_desk` runs, nobody else is `new_desk`. -/
theorem OneNewDesk.others {d : Desk} {pc : Pc} {rest : List Pc} (h : OneNewDesk d (pc :: rest))
    (hnew : pc.newDesk = true) : ∀ pc' ∈ rest, pc'.newDesk = false := by
  have hone := h.one
  rw [List.countP_cons, if_pos hnew] at hone
  have hzero : rest.countP Pc.newDesk = 0 := by omega
  intro pc' hpc'
  simpa using List.countP_eq_zero.1 hzero pc' hpc'

theorem one_newDesk {C : Sys → Ev → Prop} {id creater timelimit : ℕ} {pay : Pay} {s : Sys}
    (h : desk.Reach C (created id creater pay timelimit) s) : OneNewDesk s.shared (pcs s) := by
  refine desk_inv ?_ ?_ ?_ ?_ ?_ h
  · exact fun d l l' hp hI => hI.perm hp
  · intro d l b q hI
    exact ⟨hI.one, fun pc hpc => by cases pc <;> exact hI.timely _ hpc⟩
  · intro d l u c hI
    refine ⟨by simpa [Pc.newDesk] using hI.one, ?_⟩
    intro pc hpc
    rcases List.mem_cons.1 hpc with rfl | hpc
    · exact timely_of_not_newDesk d rfl
    · exact hI.timely pc hpc
  · refine ⟨by simp [created, pcs, Pc.newDesk], ?_⟩
    intro pc hpc
    simp only [created, pcs, List.map_cons, List.map_nil, List.mem_singleton] at hpc
    subst hpc
    exact ⟨rfl, rfl⟩
  · intro s e j inp rest _ _ _ _ hI
    by_cases hj : ∀ pc ∈ j.pcs, pc.newDesk = false
    · -- another coroutine: it leaves `new_desk` where it is
      have hs := steady_job s.shared inp hj
      refine ⟨?_, ?_⟩
      · have h₀ : (j.out s.shared inp).pcs.countP Pc.newDesk = 0 := by
          rw [List.countP_eq_zero]
          intro pc hpc
          simp [hs.pcs pc hpc]
        have h₁ := hI.one
        rw [List.countP_append] at h₁ ⊢
        omega
      · intro pc hpc
        rcases List.mem_append.1 hpc with hpc | hpc
        · exact timely_of_not_newDesk _ (hs.pcs pc hpc)
        · exact timely_of_steady hs (hI.timely pc (List.mem_append_right _ hpc))
    · -- `new_desk` itself: nobody else is
      cases j with
      | req r => simp [Job.pcs] at hj
      | cmd u c => simp [Job.pcs] at hj
      | seg pc =>
          have hnew : pc.newDesk = true := by simpa [Job.pcs] using hj
          have hrest := hI.others hnew
          obtain ⟨hone, htimely⟩ := newDesk_job s.shared inp hnew (hI.timely pc (by simp [Job.pcs]))
          refine ⟨?_, ?_⟩
          · have h₀ : rest.countP Pc.newDesk = 0 := by
              rw [List.countP_eq_zero]
              intro pc' hpc'
              simp [hrest pc' hpc']
            rw [List.countP_append]
            omega
          · intro pc' hpc'
            rcases List.mem_append.1 hpc' with hpc' | hpc'
            · exact htimely pc' hpc'
            · exact timely_of_not_newDesk _ (hrest pc' hpc')

/-! ### What every piece of work can do -/

/-- **What a piece of work can do to the life of a desk**, by the kind of coroutine that does it. -/
inductive JobLife (d : Desk) (inp : Inp) : Job → Out → Prop
  | request {j : Job} {o : Out} : (∀ pc ∈ j.pcs, pc.calm = true) →
      LifeEffect (releases d j = true) (dismisses d j = true) d.life o → JobLife d inp j o
  | walking {pc pc' : Pc} {x x' : Walk × Stage} : pc.walk? = some x → pc'.walk? = some x' →
      x'.1.k = x.1.k → JobLife d inp (.seg pc) (.wait (executed d inp pc) pc')
  | cut {pc : Pc} {x : Walk × Stage} {r : Ret} : pc.walk? = some x →
      JobLife d inp (.seg pc) (.ret (executed d inp pc) r)
  | stood {w : Walk} {u : Ref} {k : AfterStandup} {o : Out} : w.k = .standup u k →
      Tail True (replaceCosts (executed d inp (.backSave w)) w.costs) o →
      JobLife d inp (.seg (.backSave w)) o
  | free {w : Walk} {r : Ret} : w.k = .free r →
      JobLife d inp (.seg (.backSave w))
        (freeDesk (replaceCosts (executed d inp (.backSave w)) w.costs) r)
  | freeing {pc pc' : Pc} {d' : Desk} : pc.freeing = true → (∀ r, pc ≠ .freeLobby r) →
      d'.life = (executed d inp pc).life → pc'.freeing = true →
      JobLife d inp (.seg pc) (.wait d' pc')
  | freed {r : Ret} {d' : Desk} : d'.life = (executed d inp (.freeLobby r)).life →
      JobLife d inp (.seg (.freeLobby r)) (.ret d' r)
  | park {d' : Desk} : d'.life = { d.life with waiting := some .ready } →
      JobLife d inp (.seg .monitor) (.wait d' .ready)
  | begin {d' : Desk} {pc : Pc} : pc.playing = true → d'.life.count = 1 →
      d'.life.dismissing = d.life.dismissing → d'.life.acts = .mark .doGame :: d.life.acts →
      JobLife d inp (.seg .ready) (.wait d' pc)
  | onward {pc : Pc} {o : Out} : pc.playing = true → Onward d.life o → JobLife d inp (.seg pc) o

/-- **Every piece of work is on the list.** -/
theorem job_life (d : Desk) (inp : Inp) {j : Job} (ht : ∀ pc ∈ j.pcs, pc.timely d) :
    JobLife d inp j (j.out d inp) := by
  by_cases hcalm : ∀ pc ∈ j.pcs, pc.calm = true
  · exact .request hcalm (life_job d inp hcalm)
  · cases j with
    | req r => simp [Job.pcs] at hcalm
    | cmd u c => simp [Job.pcs] at hcalm
    | seg pc =>
        dsimp only [Job.out]
        cases hx : pc.walk? with
        | some x =>
            rcases segment_walk (executed d inp pc) inp hx with
              ⟨pc', w', st', h, hpc', hk⟩ | ⟨rfl, h⟩ | ⟨r, h⟩
            · rw [h]
              exact .walking hx hpc' hk
            · rw [h]
              cases hk : x.1.k with
              | standup u k => exact .stood hk (tail_actstandup _ _ k trivial)
              | free r => exact .free hk
            · rw [h]
              exact .cut hx
        | none =>
            by_cases hfree : pc.freeing = true
            · rcases segment_freeing (executed d inp pc) inp hfree with
                ⟨d', pc', h, hl, hpc', hne⟩ | ⟨r, d', rfl, h, hl⟩
              · rw [h]
                exact .freeing hfree hne hl hpc'
              · rw [h]
                exact .freed hl
            · have hnew : pc.newDesk = true := by
                by_contra hne
                simp [Job.pcs, Pc.calm, hne, hfree, hx] at hcalm
              have htimely := ht pc (by simp [Job.pcs])
              have hlife := life_executed d inp (Or.inr hnew)
              have hwait : (executed d inp pc).sync.waiting = d.sync.waiting :=
                congrArg Life.waiting hlife
              have hcount : (executed d inp pc).count = d.count := congrArg Life.count hlife
              by_cases hm : pc = .monitor
              · subst hm
                obtain ⟨d', h, hl⟩ := segment_monitor _ inp (hwait.trans htimely.2)
                rw [h]
                exact .park (by rw [hl, hlife])
              · by_cases hr : pc = .ready
                · subst hr
                  obtain ⟨d', pc', h, hpc', hc, hd, ha⟩ :=
                    segment_ready _ inp (hcount.trans htimely)
                  rw [h]
                  exact .begin hpc' hc (by rw [hd, hlife]) (by rw [ha, hlife])
                · have hplay := playing_of_newDesk hnew hm hr
                  exact .onward hplay (hlife ▸ onward_segment (executed d inp pc) inp hplay)

theorem startWalk_d (d : Desk) (userid : Option ℕ) (k : AfterBack) :
    (startWalk d userid k).d = d := by
  obtain ⟨pc, w, st, h, -, -⟩ := startWalk_cases d userid k
  rw [h]
  rfl

/-- **Only the command of the master ends the wait of `new_desk`.** -/
theorem waiting_job (d : Desk) (inp : Inp) {j : Job} (ht : ∀ pc ∈ j.pcs, pc.timely d)
    (hn : ∀ pc ∈ j.pcs, pc.newDesk = false) (hr : releases d j = false)
    (hw : d.sync.waiting = some .ready) : (j.out d inp).d.sync.waiting = some .ready := by
  have hexec : ∀ pc, (executed d inp pc).sync.waiting = some .ready := fun pc =>
    (executed_life d inp pc).2.2.trans hw
  have hfree : ∀ (e : Desk) (r : Ret), e.life.waiting = some .ready →
      (freeDesk e r).d.life.waiting = some .ready := by
    intro e r he
    obtain ⟨d', pc, h, -, hl⟩ := freeDesk_cases e r
    rw [h, Out.d_wait, hl]
    exact he
  have hlife := job_life d inp ht
  generalize j.out d inp = o at hlife
  cases hlife with
  | request _ heff =>
      cases heff with
      | calm hl _ => exact (congrArg Life.waiting hl).trans hw
      | woken hl hR _ => exact absurd (hR hw) (by rw [hr]; exact Bool.false_ne_true)
      | walk hl =>
          rw [startWalk_d]
          exact (congrArg Life.waiting hl).trans hw
      | dismissed _ hend =>
          cases hend with
          | raise hl => exact (congrArg Life.waiting hl).trans hw
          | @free e r hl => exact hfree e r ((congrArg Life.waiting hl).trans hw)
          | back hl =>
              rw [startWalk_d]
              exact (congrArg Life.waiting hl).trans hw
  | walking _ _ _ => exact hexec _
  | cut _ => exact hexec _
  | @stood w _ _ _ _ htail => exact (congrArg Life.waiting htail.calm.1).trans (hexec (.backSave w))
  | @free w r _ => exact hfree _ r (hexec (.backSave w))
  | freeing _ _ hl _ => exact (congrArg Life.waiting hl).trans (hexec _)
  | freed hl => exact (congrArg Life.waiting hl).trans (hexec _)
  | park _ => cases hn .monitor (List.mem_singleton.2 rfl)
  | begin _ _ _ _ => cases hn .ready (List.mem_singleton.2 rfl)
  | @onward pc _ hpl _ =>
      have hnot := hn pc (List.mem_singleton.2 rfl)
      rw [playing_newDesk hpl] at hnot
      cases hnot

/-! ### Milestones and walks -/

/-- New milestones: a game begins only when `new_desk` passes the barrier, and an entry is paid
back only inside a walk. -/
def Grows (j : Job) (acts acts' : List Act) : Prop :=
  ∃ new, acts' = new ++ acts ∧ (.mark .doGame ∈ new → j = .seg .ready) ∧
    ∀ c, .rpc (.addProp c) ∈ new → ∃ w, j = .seg (.backAdd w c)

theorem Grows.refl (j : Job) (acts : List Act) : Grows j acts acts := ⟨[], by simp⟩

theorem Grows.of_eq {j : Job} {acts acts' : List Act} (h : acts' = acts) : Grows j acts acts' :=
  h ▸ .refl j acts

theorem Grows.trans {j : Job} {a b c : List Act} (h : Grows j a b) (h' : Grows j b c) :
    Grows j a c := by
  obtain ⟨n, rfl, hg, hr⟩ := h
  obtain ⟨n', rfl, hg', hr'⟩ := h'
  refine ⟨n' ++ n, by simp, ?_, ?_⟩
  · intro hm
    exact (List.mem_append.1 hm).elim hg' hg
  · intro c hm
    exact (List.mem_append.1 hm).elim (hr' c) (hr c)

theorem grows_freeDesk (j : Job) (d : Desk) (r : Ret) :
    Grows j d.life.acts (freeDesk d r).d.life.acts := by
  obtain ⟨d', pc, h, -, hl⟩ := freeDesk_cases d r
  rw [h]
  exact ⟨[.mark .freeDesk], by simp [hl], by simp, by simp⟩

theorem LifeEffect.grows {f : Life} {o : Out} (j : Job) (h : LifeEffect R D f o) :
    Grows j f.acts o.d.life.acts := by
  cases h with
  | calm hl _ => exact .of_eq (by rw [hl])
  | woken hl _ _ => exact .of_eq (by rw [hl])
  | walk hl => exact .of_eq (by rw [startWalk_d, hl])
  | dismissed _ he =>
      cases he with
      | raise hl => exact .of_eq (by rw [Out.d_ret, hl])
      | @free d r hl => exact (congrArg Life.acts hl :) ▸ grows_freeDesk j d r
      | back hl => exact .of_eq (by rw [startWalk_d, hl])

theorem Onward.grows {f : Life} {o : Out} (j : Job) (h : Onward f o) :
    Grows j f.acts o.d.life.acts := by
  cases h with
  | next hs _ => exact .of_eq hs.acts
  | stop hs => exact .of_eq hs.acts
  | @free d hs => exact hs.acts ▸ grows_freeDesk j d .nil
  | back hs _ => exact .of_eq (by rw [startWalk_d, hs.acts])

theorem Onward.count {f : Life} {o : Out} (h : Onward f o) : o.d.count = f.count := by
  cases h with
  | next hs _ => exact hs.count
  | stop hs => exact hs.count
  | @free d hs =>
      obtain ⟨d', pc, h, -, hl⟩ := freeDesk_cases d .nil
      rw [h]
      exact (congrArg Life.count hl).trans hs.count
  | back hs _ => rw [startWalk_d]; exact hs.count

theorem grows_executed (d : Desk) (inp : Inp) (pc : Pc) :
    Grows (.seg pc) d.life.acts (executed d inp pc).life.acts := by
  unfold executed
  split
  · exact .refl _ _
  · rename_i r hr
    by_cases hlife : Act.life (.rpc r) = true
    · refine ⟨[.rpc r], by simp [Desk.life, Desk.called, hlife], by simp, ?_⟩
      intro c hc
      obtain rfl : Rpc.addProp c = r := by simpa using hc
      cases pc with
      | backAdd w c' => exact ⟨w, by simpa [Pc.rpc] using hr⟩
      | fish pc => cases pc <;> simp [Pc.rpc] at hr
      | _ => simp [Pc.rpc] at hr
    · exact .of_eq (by rw [life_called d (by simpa using hlife)])

/-- **What a piece of work adds to the milestones.** -/
theorem grows_job (d : Desk) (inp : Inp) {j : Job} (ht : ∀ pc ∈ j.pcs, pc.timely d) :
    Grows j d.life.acts (j.out d inp).d.life.acts := by
  have h := job_life d inp ht
  generalize j.out d inp = o at h
  cases h with
  | request _ he => exact he.grows j
  | walking => exact grows_executed d inp _
  | cut => exact grows_executed d inp _
  | stood _ htail => exact (grows_executed d inp _).trans (.of_eq (by rw [htail.calm.1]; rfl))
  | free _ => exact (grows_executed d inp _).trans (grows_freeDesk _ _ _)
  | freeing _ _ hl _ => exact (grows_executed d inp _).trans (.of_eq (by rw [Out.d_wait, hl]))
  | freed hl => exact (grows_executed d inp _).trans (.of_eq (by rw [Out.d_ret, hl]))
  | park hl => exact .of_eq (by rw [Out.d_wait, hl])
  | begin _ _ _ ha => exact ⟨[.mark .doGame], ha, fun _ => rfl, by simp⟩
  | onward _ ho => exact ho.grows _

/-- Games are counted only when `new_desk` passes the barrier. -/
theorem count_job (d : Desk) (inp : Inp) {j : Job} (ht : ∀ pc ∈ j.pcs, pc.timely d)
    (hj : j ≠ .seg .ready) : (j.out d inp).d.count = d.count := by
  by_cases hnew : ∀ pc ∈ j.pcs, pc.newDesk = false
  · exact (steady_job d inp hnew).count
  · have h := job_life d inp ht
    generalize j.out d inp = o at h
    cases h with
    | request hcalm _ => exact absurd (fun pc hpc => newDesk_of_calm (hcalm pc hpc)) hnew
    | walking hx _ _ => exact absurd (by simpa [Job.pcs] using newDesk_of_walk hx) hnew
    | cut hx => exact absurd (by simpa [Job.pcs] using newDesk_of_walk hx) hnew
    | stood => exact absurd (by simp [Job.pcs, Pc.newDesk]) hnew
    | free => exact absurd (by simp [Job.pcs, Pc.newDesk]) hnew
    | freeing hf _ _ _ => exact absurd (by simpa [Job.pcs] using newDesk_of_freeing hf) hnew
    | freed => exact absurd (by simp [Job.pcs, Pc.newDesk]) hnew
    | park hl => exact congrArg Life.count hl
    | begin => exact absurd rfl hj
    | onward _ ho => exact ho.count

theorem freeing_of_calm {pc : Pc} (h : pc.calm = true) : pc.freeing = false := by
  simp only [Pc.calm, Bool.and_eq_true, Bool.not_eq_true'] at h
  exact h.1.2

theorem freeing_of_walk {pc : Pc} {x : Walk × Stage} (h : pc.walk? = some x) :
    pc.freeing = false := by
  cases pc <;> simp_all [Pc.walk?, Pc.freeing]

theorem freeing_of_playing {pc : Pc} (h : pc.playing = true) : pc.freeing = false := by
  cases pc <;> simp_all [Pc.playing, Pc.freeing]

/-- **A coroutine is inside `free_desk` only once `free_desk` has begun.** -/
theorem freeing_job (d : Desk) (inp : Inp) {j : Job} (ht : ∀ pc ∈ j.pcs, pc.timely d) {pc : Pc}
    (hpc : pc ∈ (j.out d inp).pcs) (hf : pc.freeing = true) :
    (∃ p ∈ j.pcs, p.freeing = true) ∨ .mark .freeDesk ∈ (j.out d inp).d.life.acts := by
  have hfree : ∀ (d : Desk) (r : Ret), .mark .freeDesk ∈ (freeDesk d r).d.life.acts := by
    intro d r
    obtain ⟨d', pc, h, -, hl⟩ := freeDesk_cases d r
    rw [h, Out.d_wait, hl]
    exact List.mem_cons_self
  have hstart : ∀ {d : Desk} {userid : Option ℕ} {k : AfterBack},
      pc ∈ (startWalk d userid k).pcs → False := by
    intro d userid k hm
    obtain ⟨pc', w, st, h, hw, -⟩ := startWalk_cases d userid k
    rw [h, Out.pcs_wait, List.mem_singleton] at hm
    subst hm
    exact absurd hf (by simp [freeing_of_walk hw])
  have h := job_life d inp ht
  generalize j.out d inp = o at h hpc ⊢
  cases h with
  | request _ he =>
      cases he with
      | calm _ hc => exact absurd hf (by simp [freeing_of_calm (hc pc hpc)])
      | woken _ _ hc => exact absurd hf (by simp [freeing_of_calm (hc pc hpc)])
      | walk _ => exact (hstart hpc).elim
      | dismissed _ he =>
          cases he with
          | raise _ => simp at hpc
          | free _ => exact Or.inr (hfree _ _)
          | back _ => exact (hstart hpc).elim
  | walking _ hx' _ =>
      rw [Out.pcs_wait, List.mem_singleton] at hpc
      subst hpc
      exact absurd hf (by simp [freeing_of_walk hx'])
  | cut _ => simp at hpc
  | stood _ htail => exact absurd hf (by simp [freeing_of_calm (htail.calm.2 pc hpc)])
  | free _ => exact Or.inr (hfree _ _)
  | freeing hf' _ _ _ => exact Or.inl ⟨_, by simp [Job.pcs], hf'⟩
  | @freed r => exact Or.inl ⟨.freeLobby r, by simp [Job.pcs], rfl⟩
  | park _ =>
      rw [Out.pcs_wait, List.mem_singleton] at hpc
      subst hpc
      simp [Pc.freeing] at hf
  | begin hp _ _ _ =>
      rw [Out.pcs_wait, List.mem_singleton] at hpc
      subst hpc
      exact absurd hf (by simp [freeing_of_playing hp])
  | onward _ ho =>
      cases ho with
      | next _ hp =>
          rw [Out.pcs_wait, List.mem_singleton] at hpc
          subst hpc
          exact absurd hf (by simp [freeing_of_playing hp])
      | stop _ => simp at hpc
      | free _ => exact Or.inr (hfree _ _)
      | back _ _ => exact (hstart hpc).elim

/-- Sitting down does not begin a walk. -/
theorem sit_walks (d : Desk) (inp : Inp) {pc : Pc} (hplain : pc.plain = false)
    (hwalk : pc.walk? = none) : (segment d inp pc).pcs.filterMap Pc.walk? = [] := by
  cases pc with
  | sitAdd u seat =>
      dsimp only [segment, sitSeated]
      split <;> rfl
  | sitUse u =>
      dsimp only [segment]
      split <;> rfl
  | sitRecord u =>
      dsimp only [segment]
      split <;> rfl
  | sitCost u c => rfl
  | _ => simp_all [Pc.plain, Pc.walk?]

theorem walk?_of_plain {pc : Pc} (h : pc.plain = true) : pc.walk? = none := by
  cases pc <;> simp_all [Pc.plain, Pc.walk?]

theorem filterMap_walk?_plain {l : List Pc} (h : ∀ pc ∈ l, pc.plain = true) :
    l.filterMap Pc.walk? = [] := by
  rw [List.filterMap_eq_nil_iff]
  exact fun pc hpc => walk?_of_plain (h pc hpc)

/-- **Where walks come from.** -/
theorem walks_job (d : Desk) (inp : Inp) {j : Job} (ht : ∀ pc ∈ j.pcs, pc.timely d)
    (hj : ∀ pc ∈ j.pcs, pc.walk? = none) :
    (j.out d inp).pcs.filterMap Pc.walk? = [] ∨ paysBack d j = true := by
  by_cases hplain : ∀ pc ∈ j.pcs, pc.plain = true
  · have he := effect_job d inp hplain
    generalize j.out d inp = o at he
    cases he with
    | same _ hpc _ => exact Or.inl (filterMap_walk?_plain fun pc h => (hpc pc h).1)
    | drop | stand | join | assign => exact Or.inl rfl
    | walk _ hw =>
        rcases hw with hpay | ⟨pc, rfl, hfail⟩
        · exact Or.inr hpay
        · -- `new_desk` does not fail before the first game
          have htimely := ht pc (by simp [Job.pcs])
          cases pc <;> simp_all [failsEarly, Pc.timely, Pc.playing]
  · cases j with
    | req r => simp [Job.pcs] at hplain
    | cmd u c => simp [Job.pcs] at hplain
    | seg pc =>
        exact Or.inl (sit_walks _ inp (by simpa [Job.pcs] using hplain) (hj pc (by simp [Job.pcs])))

end Halieutics
