/-
**One request at a time.**

When requests do not overlap, at most one coroutine serves a request, while `new_desk`, a vote and
the end of `free_desk` go on behind it.  The queue `d.cs` then stays empty.

Main definitions:

* `Halieutics.Pc.serving`, `Halieutics.Job.serving` — the points and the work of requests;
* `Halieutics.Alone` — at most one request is being served.

Main results:

* `Halieutics.single_job` — a segment forks a vote at most, and leaves `d.cs` alone;
* `Halieutics.serving_job` — background work stays in the background;
* `Halieutics.alone_of_complete` — **requests that do not overlap are served one at a time**;
* `Halieutics.Alone.rest` — whoever serves a request is alone.
-/

import Halieutics.DeskGame

set_option relaxedAutoImplicit false
set_option autoImplicit false

namespace Halieutics

open LuaTable Coroutine

/-! ### What a segment leaves behind -/

theorem single_kickUser (d : Desk) (u : Ref) (k : AfterKick) : (kickUser d u k).Single := Or.inl rfl

theorem single_startWalk (d : Desk) (userid : Option ℕ) (k : AfterBack) :
    (startWalk d userid k).Single := by
  obtain ⟨pc, w, st, h, -⟩ := startWalk_cases d userid k
  rw [h]
  exact Out.single_wait d pc

theorem Effect.single {W : Prop} {S : ℕ → Prop} {G U : Prop} {c : Desk} {o : Out}
    (h : Effect W S G U c o) : o.Single := by
  cases h with
  | same _ _ h => exact h
  | drop _ _ => exact single_kickUser _ _ _
  | stand _ _ _ _ => exact Out.single_wait _ _
  | walk _ _ => exact single_startWalk _ _ _
  | join _ _ _ _ => exact Out.single_wait _ _
  | assign _ _ _ _ _ => exact Out.single_wait _ _

/-- The queue `d.cs`, and whether somebody holds it. -/
def Desk.cs (d : Desk) : Bool × List (Ref × Cmd) := (d.csBusy, d.csQueue)

theorem Effect.cs {W : Prop} {S : ℕ → Prop} {G U : Prop} {c : Desk} {o : Out}
    (h : Effect W S G U c o) : o.d.cs = c.cs := by
  have near : ∀ {d : Desk}, Near G c d → d.cs = c.cs := fun hn => (congrArg Desk.cs hn.base :)
  cases h with
  | same hn _ _ => exact near hn
  | @drop d u k hn _ => exact near (d := d) hn
  | @stand d seat v k hn _ _ _ => exact near (d := d) hn
  | walk hn _ => rw [startWalk_d]; exact near hn
  | @join d user hn _ _ _ => exact near (d := d) hn
  | @assign d uid u seat rest hn _ _ _ _ => exact near (d := d) hn

/-- Charging and paying back fork nothing and leave `d.cs` alone. -/
theorem single_segment (d : Desk) (inp : Inp) {pc : Pc} (hplain : pc.plain = false) :
    (segment d inp pc).Single ∧ (segment d inp pc).d.cs = d.cs := by
  have walks : ∀ w, (walkOn d w).Single ∧ (walkOn d w).d.cs = d.cs := by
    intro w
    obtain ⟨w', pc', h, -⟩ := walk_cases d w ((d.tabs w.tab).drop w.i)
    rw [walkOn, h]
    exact ⟨Out.single_wait d pc', rfl⟩
  have ends : ∀ (d : Desk) (u : Ref), (sitEnd d u).Single ∧ (sitEnd d u).d.cs = d.cs := by
    intro d u
    have he := effect_sitEnd (W := False) (S := fun _ => False) (G := False) (U := False) d u
    exact ⟨he.single, he.cs⟩
  cases pc with
  | sitAdd u seat =>
      dsimp only [segment, sitSeated]
      split
      · exact ⟨Out.single_wait _ _, rfl⟩
      · exact ends (seatUser d u seat) u
  | sitUse u =>
      dsimp only [segment]
      split
      · exact ⟨Out.single_wait _ _, rfl⟩
      · exact ⟨Out.single_ret _ _, rfl⟩
  | sitRecord u =>
      dsimp only [segment]
      split
      · exact ⟨Out.single_wait _ _, rfl⟩
      · exact ⟨Out.single_ret _ _, rfl⟩
  | sitCost u c => exact ends d u
  | backRecord w c => exact ⟨Out.single_wait _ _, rfl⟩
  | backAdd w c => exact ⟨Out.single_wait _ _, rfl⟩
  | backQuery w c =>
      dsimp only [segment]
      split
      · exact ⟨Out.single_wait _ _, rfl⟩
      · exact walks _
  | backPush w c =>
      dsimp only [segment]
      split
      · exact ⟨Out.single_ret _ _, rfl⟩
      · exact walks _
  | backSave w =>
      have he := effect_afterBack (W := False) (S := fun _ => False) (G := False) (U := True)
        (replaceCosts d w.costs) w.k fun _ _ _ => trivial
      exact ⟨he.single, he.cs⟩
  | _ => simp [Pc.plain] at hplain

theorem cs_called (d : Desk) (inp : Inp) (j : Job) : (j.called d inp).cs = d.cs := by
  cases j with
  | req r => rfl
  | cmd u c => rfl
  | seg pc =>
      dsimp only [Job.called, executed]
      split <;> rfl

theorem single_cs_job (d : Desk) (inp : Inp) (j : Job) :
    (j.out d inp).Single ∧ (j.out d inp).d.cs = d.cs := by
  by_cases hplain : ∀ pc ∈ j.pcs, pc.plain = true
  · have he := effect_job d inp hplain
    exact ⟨he.single, he.cs.trans (cs_called d inp j)⟩
  · cases j with
    | req r => simp [Job.pcs] at hplain
    | cmd u c => simp [Job.pcs] at hplain
    | seg pc =>
        obtain ⟨hs, hq⟩ := single_segment (executed d inp pc) inp (by simpa [Job.pcs] using hplain)
        exact ⟨hs, hq.trans (cs_called d inp (.seg pc))⟩

/-- **A segment forks a vote at most, and leaves `d.cs` alone.** -/
theorem single_job (d : Desk) (inp : Inp) (j : Job) :
    (j.out d inp).Single ∧ (j.out d inp).d.csQueue = d.csQueue :=
  ⟨(single_cs_job d inp j).1, (congrArg Prod.snd (single_cs_job d inp j).2 :)⟩

/-! ### Requests -/

/-- The points of a request; `free_desk` goes on without one. -/
def Pc.serving (pc : Pc) : Bool := !pc.background && !pc.freeing

/-- The work of a request. -/
def Job.serving : Job → Bool
  | .req r => !r.timer
  | .cmd _ _ => true
  | .seg pc => pc.serving

theorem serving_of_newDesk {pc : Pc} (h : pc.newDesk = true) : pc.serving = false := by
  cases pc <;> simp_all [Pc.newDesk, Pc.serving, Pc.background]

theorem serving_of_freeing {pc : Pc} (h : pc.freeing = true) : pc.serving = false := by
  simp [Pc.serving, h]

/-- A segment that plays and is not `new_desk` serves a request. -/
theorem serving_of_plays {d : Desk} {pc : Pc} (hno : pc.newDesk = false)
    (h : Job.plays d (.seg pc) = true) : pc.serving = true := by
  cases pc <;> first | rfl | simp [Pc.newDesk] at hno; done |
    simp [Job.plays, Pc.newDesk, Pc.catching] at h

/-- The coroutines of a segment, one of which at most serves a request. -/
theorem Out.Single.count {o : Out} (h : o.Single) : o.pcs.countP Pc.serving ≤ 1 := by
  rcases h with h | ⟨r, hr, h⟩
  · unfold Out.pcs
    cases hres : o.res with
    | ret r => simp [h]
    | wait pc =>
        simp only [h, List.countP_singleton]
        split <;> omega
  · simp [Out.pcs, hr, h, Pc.serving, Pc.background]

/-- **Background work stays in the background.** -/
theorem serving_job (d : Desk) (inp : Inp) {j : Job} (ht : ∀ pc ∈ j.pcs, pc.timely d)
    (hj : j.serving = false) : ∀ pc ∈ (j.out d inp).pcs, pc.serving = false := by
  cases j with
  | req r =>
      have timer : ∀ f, (onTimer d f).pcs = [] := by
        intro f
        unfold onTimer
        repeat' split
        all_goals rfl
      cases r with
      | buildFish => simp [Job.out, direct, timer]
      | clearTrace => simp [Job.out, direct, timer]
      | _ => simp [Job.serving, Req.timer] at hj
  | cmd u c => simp [Job.serving] at hj
  | seg pc =>
      have hback : pc.newDesk = true ∨ pc.freeing = true ∨ pc = .voteStart ∨ ∃ n, pc = .vote n := by
        cases pc <;> simp_all [Job.serving, Pc.serving, Pc.background, Pc.newDesk]
      rcases hback with hnew | hfree | rfl | ⟨n, rfl⟩
      · -- `new_desk` goes on, ends, or frees the desk
        have hlife := job_life d inp (j := .seg pc) ht
        generalize Job.out d inp (.seg pc) = o at hlife
        have single : ∀ {d' : Desk} {pc' : Pc}, pc'.serving = false →
            ∀ p ∈ (Out.wait d' pc').pcs, p.serving = false := by
          intro d' pc' h
          simpa using h
        have playing : ∀ {pc' : Pc}, pc'.playing = true → pc'.serving = false := fun h =>
          serving_of_newDesk (playing_newDesk h)
        cases hlife with
        | request hcalm _ => simp [newDesk_of_calm (hcalm pc (by simp [Job.pcs]))] at hnew
        | walking hw _ _ => simp [newDesk_of_walk hw] at hnew
        | cut hw => simp [newDesk_of_walk hw] at hnew
        | stood _ _ => simp [Pc.newDesk] at hnew
        | free _ => simp [Pc.newDesk] at hnew
        | freeing hfree _ _ _ => simp [newDesk_of_freeing hfree] at hnew
        | freed _ => simp [Pc.newDesk] at hnew
        | park _ => exact single rfl
        | begin hplay _ _ _ => exact single (playing hplay)
        | onward hplay hon =>
            have hcount := count_of_playing hplay (ht pc (by simp [Job.pcs]))
            cases hon with
            | next _ hpc' => exact single (playing hpc')
            | stop _ => simp
            | free _ =>
                obtain ⟨d', pc', h, hpc', -⟩ := freeDesk_cases _ _
                rw [h]
                exact single (serving_of_freeing hpc')
            | back _ hz => exact absurd hz (Nat.ne_of_gt hcount)
      · rcases segment_freeing (executed d inp pc) inp hfree with
          ⟨d', pc', h, -, hpc', -⟩ | ⟨r, d', -, h, -⟩
        · rw [Job.out, h]
          simpa using serving_of_freeing hpc'
        · rw [Job.out, h]
          simp
      · dsimp only [Job.out, segment, voteStart]
        repeat' split
        all_goals simp [Pc.serving, Pc.background]
      · dsimp only [Job.out, segment, voteEnd]
        split <;> simp

/-! ### Runs -/

/-- **At most one request is being served**, and no command is queued. -/
structure Alone (s : Sys) : Prop where
  one : (pcs s).countP Pc.serving ≤ 1
  queue : s.shared.csQueue = []

theorem serving_of_idle {s : Sys} (hi : Idle s) : ∀ pc ∈ pcs s, pc.serving = false := by
  intro pc hpc
  obtain ⟨co, hco, rfl⟩ := List.mem_map.1 hpc
  simp [Pc.serving, hi co hco]

/-- **Whoever serves a request is alone.** -/
theorem Alone.rest {s : Sys} {e : Ev} {j : Job} {inp : Inp} {rest : List Pc} (h : Alone s)
    (hC : Complete s e) (hj : jobOf s e = some (j, inp)) (hp : (pcs s).Perm (j.pcs ++ rest))
    (hs : j.serving = true) : ∀ pc ∈ rest, pc.serving = false := by
  cases e with
  | call r inp' =>
      have hidle : Idle s := by
        rcases hC with ht | ⟨hi, -⟩
        · cases r with
          | buildFish | clearTrace =>
              obtain rfl := congrArg Prod.fst (Option.some_inj.1 hj)
              simp [Job.serving, Req.timer] at hs
          | _ => simp [Req.timer] at ht
        · exact hi
      exact fun pc hpc => serving_of_idle hidle pc (hp.mem_iff.2 (List.mem_append_right _ hpc))
  | resume k inp' =>
      obtain ⟨co, -, hco⟩ := Option.map_eq_some_iff.1 hj
      obtain rfl : Job.seg co.pc = j := congrArg Prod.fst hco
      have hserve : co.pc.serving = true := hs
      have hone := h.one
      rw [hp.countP_eq, Job.pcs, List.singleton_append, List.countP_cons, if_pos hserve] at hone
      have hzero : rest.countP Pc.serving = 0 := by omega
      intro pc hpc
      simpa using List.countP_eq_zero.1 hzero pc hpc

theorem alone_of_complete {id creater timelimit : ℕ} {pay : Pay} {s : Sys}
    (h : desk.Reach Complete (created id creater pay timelimit) s) : Alone s := by
  refine Machine.Reach.inv (P := Alone) ?_ ?_ (h.and_inv fun s hs => one_newDesk hs)
  · exact ⟨by simp [created, pcs, Pc.serving, Pc.background], rfl⟩
  · rintro s e s' hI ⟨hC, hone⟩ he
    rcases desk_cases he with ⟨q, rfl, hq⟩ | ⟨j, inp, rest, b, q, l, hj, hp, -, hd, hp', hl⟩
    · rcases hq with rfl | ⟨hbusy, uid, c, inp, rfl⟩
      · exact hI
      · -- a command is queued only while another one holds `d.cs`
        rcases hC with ht | ⟨-, hfree⟩
        · simp [Req.timer] at ht
        · simp [hbusy] at hfree
    · obtain ⟨hsingle, hcs⟩ := single_job s.shared inp j
      rw [hcs, hI.queue] at hl
      rcases hl with ⟨rfl, rfl⟩ | ⟨u, c, hl, -⟩
      · refine ⟨?_, by rw [hd]⟩
        rw [hp'.countP_eq, List.nil_append, List.countP_append]
        cases hs : j.serving with
        | true =>
            have hrest : rest.countP Pc.serving = 0 :=
              List.countP_eq_zero.2 fun pc hpc => by simp [hI.rest hC hj hp hs pc hpc]
            have := hsingle.count
            omega
        | false =>
            have hout : (j.out s.shared inp).pcs.countP Pc.serving = 0 := by
              refine List.countP_eq_zero.2 fun pc hpc => ?_
              simp [serving_job s.shared inp
                (fun pc hm => (hone.perm hp).timely pc (List.mem_append_left _ hm)) hs pc hpc]
            have hone' := hI.one
            rw [hp.countP_eq, List.countP_append] at hone'
            omega
      · simp at hl

end Halieutics
