/-
**What steers the game of a desk.**

A game is begun, interrupted and ended through a few fields of the desk: `d.gaming`, `d.err`,
`d.dismiss`, and the barrier and the timers of the game object.  Apart from `new_desk` only a vote
touches them.  This module says so for every piece of work.

Main definitions:

* `Halieutics.Desk.control` — these fields;
* `Halieutics.Pc.voting`, `Halieutics.Job.steers` — the points of a vote; `new_desk`, the votes, and
  the commands `dismiss_apply` and `dismiss_reply`;
* `Halieutics.Aside`, `Halieutics.KeepsVotes` — work that leaves these fields alone and begins no
  vote, and work that leaves those of the votes alone.

Main results:

* `Halieutics.aside_job` — **all other work leaves them alone**;
* `Halieutics.steers_cases` — the work that does not;
* `Halieutics.keepsVotes_newDesk` — `new_desk` leaves the votes alone.
-/

import Halieutics.DeskGame

set_option relaxedAutoImplicit false
set_option autoImplicit false

namespace Halieutics

open LuaTable Coroutine

/-- The fields that steer a game: `ended` and `timers` say that the game object is over, and that
its timers are on. -/
structure Control where
  gaming : Option Bool
  err : Option DeskErr
  dismiss : Dismiss
  sync : Option Sync
  timers : Option Bool
  ended : Option Bool

/-- **The fields of a desk that steer its game.** -/
def Desk.control (d : Desk) : Control where
  gaming := d.gaming
  err := d.err
  dismiss := d.dismiss
  sync := d.game.map Game.sync
  timers := d.game.map Game.timers
  ended := d.game.map Game.ended

/-- The points of a vote. -/
def Pc.voting : Pc → Bool
  | .voteStart | .vote _ => true
  | _ => false

/-- The work that may touch these fields. -/
def Job.steers (d : Desk) (j : Job) : Bool :=
  (j.pcs.any fun pc => pc.voting || pc.newDesk) ||
    match j.command d with
    | some (_, .dismissApply) | some (_, .dismissReply _) => true
    | _ => false

/-- **Work that leaves the fields `c` alone** and begins no vote. -/
structure Aside (c : Control) (o : Out) : Prop where
  control : o.d.control = c
  pcs : ∀ pc ∈ o.pcs, pc.voting = false

variable {d : Desk} {c : Control}

theorem aside_ret (h : d.control = c) (r : Ret) : Aside c (.ret d r) := ⟨h, List.forall_mem_nil _⟩

theorem aside_wait {pc : Pc} (h : d.control = c) (hpc : pc.voting = false) : Aside c (.wait d pc) :=
  ⟨h, List.forall_mem_singleton.2 hpc⟩

theorem control_executed (d : Desk) (inp : Inp) (pc : Pc) :
    (executed d inp pc).control = d.control := by
  unfold executed
  split <;> rfl

/-! ### The handlers of the game -/

theorem control_calc (d : Desk) (me banker score : ℤ) :
    (calcFishscoreAll d me banker score).1.control = d.control := by
  have hadd : ∀ (d : Desk) u score, (adduserscore d u score).1.control = d.control := by
    intro d u score
    unfold adduserscore
    split <;> rfl
  unfold calcFishscoreAll
  dsimp only
  split
  · split
    · exact (hadd _ _ _).trans (hadd _ _ _)
    · exact hadd _ _ _
  · rfl

/-- The roles of the game do not steer it. -/
theorem control_withRoles {g : Game} (hg : d.control.sync = some g.sync)
    (ht : d.control.timers = some g.timers) (he : d.control.ended = some g.ended) (roles : Roles) :
    (d.withRoles g roles).control = d.control := by
  unfold Desk.control Desk.withRoles at *
  dsimp only at hg ht he ⊢
  rw [hg, ht, he]
  rfl

theorem control_ofGame {g : Game} (hg : d.game = some g) (roles : Roles) :
    (d.withRoles g roles).control = d.control := by
  refine control_withRoles ?_ ?_ ?_ roles
  · exact congrArg (Option.map Game.sync) hg
  · exact congrArg (Option.map Game.timers) hg
  · exact congrArg (Option.map Game.ended) hg

theorem control_userfire (d : Desk) (u : Ref) (kind : Option ℤ) (inp : Inp) :
    (userfire d u kind inp).d.control = d.control := by
  rcases userfire_cases d u kind inp with ⟨r, h⟩ | ⟨g, k, m, -, -, hg, -, ⟨r, h⟩ | ⟨roles, -, -, h⟩⟩
  · rw [h]
    rfl
  · rw [h]
    exact control_calc d _ _ _
  · rw [h]
    have hgame := (game_of_mygame hg).1
    have hcalc := control_calc d (d.objs u).seat d.banker (-(m : ℕ))
    refine Eq.trans (control_withRoles
      (d := (calcFishscoreAll d (d.objs u).seat d.banker (-(m : ℕ))).1) (g := g) ?_ ?_ ?_ _) hcalc
    · exact (congrArg Control.sync hcalc).trans (congrArg (Option.map Game.sync) hgame)
    · exact (congrArg Control.timers hcalc).trans (congrArg (Option.map Game.timers) hgame)
    · exact (congrArg Control.ended hcalc).trans (congrArg (Option.map Game.ended) hgame)

theorem control_catchfish (d : Desk) (u : Ref) (req : CatchReq) (inp : Inp) :
    (catchfish d u req inp).d.control = d.control := by
  rcases catchfish_cases d u req inp with ⟨r, h⟩ | ⟨g, _, _, b, hg, -, -, ⟨r, h⟩ | ⟨f, fc, h⟩⟩
  · rw [h]
    rfl
  · rw [h]
    exact control_ofGame (game_of_mygame hg).1 _
  · rw [h]
    exact control_ofGame (game_of_mygame hg).1 _

theorem control_catchPay (d : Desk) (c : Catch) : (catchPay d c).d.control = d.control := by
  rcases catchPay_cases d c with ⟨-, r, h⟩ | ⟨g, _, r', hg, -, -, ⟨-, r, h⟩ | ⟨-, b, r, h⟩⟩
  · rw [h]
    rfl
  · rw [h]
    exact control_ofGame hg r'
  · rw [h]
    exact (control_calc _ _ _ _).trans (control_ofGame hg r')

theorem control_sweepPay (d : Desk) (seat : ℤ) (score : ℕ) :
    (sweepPay d seat score).d.control = d.control := by
  obtain ⟨r, h⟩ := sweepPay_cases d seat score
  rw [h]
  exact control_calc _ _ _ _

theorem control_catchsweepfish (d : Desk) (u : Ref) (req : SweepReq) (inp : Inp) :
    (catchsweepfish d u req inp).d.control = d.control := by
  rcases catchsweepfish_cases d u req inp with
    ⟨r, h⟩ | ⟨g, _, r', score, hg, -, -, ⟨r, h⟩ | h | h⟩
  · rw [h]
    rfl
  · rw [h]
    exact control_ofGame (game_of_mygame hg).1 r'
  · rw [h]
    exact (control_sweepPay _ _ _).trans (control_ofGame (game_of_mygame hg).1 r')
  · rw [h]
    exact control_ofGame (game_of_mygame hg).1 r'

theorem control_fishSegment (d : Desk) (inp : Inp) (pc : FishPc) :
    (fishSegment d inp pc).d.control = d.control := by
  cases pc with
  | stock c =>
      rcases catchStock_cases d c inp with ⟨r, h⟩ | ⟨c', h⟩ | ⟨c', h⟩ | ⟨c', h⟩
      · rw [fishSegment, h]
        rfl
      · rw [fishSegment, h]
        rfl
      · rw [fishSegment, h]
        rfl
      · rw [fishSegment, h]
        exact control_catchPay d c'
  | miss c => rfl
  | pay c => exact control_catchPay d c
  | sweep seat score => exact control_sweepPay d seat score

/-- A handler of the game suspends inside the game only. -/
theorem aside_fish {o : FishOut} (h : o.d.control = c) : Aside c (.fish o) := by
  cases o with
  | ret d r => exact aside_ret h r
  | wait d pc => exact aside_wait h rfl

theorem aside_onTimer (d : Desk) (f : Roles → Roles) : Aside d.control (onTimer d f) := by
  unfold onTimer
  cases hg : d.game with
  | none => exact aside_ret (by rfl) _
  | some g =>
      dsimp only
      split
      · refine aside_ret ?_ _
        unfold Desk.control
        rw [hg]
        rfl
      · exact aside_ret (by rfl) _

/-! ### The handlers of the desk -/

theorem Tail.aside {U : Prop} {o : Out} (h : Tail U d o) : Aside d.control o := by
  cases h with
  | ret r => exact aside_ret (by rfl) r
  | agent uid => exact aside_wait (by rfl) rfl
  | kick k => exact aside_wait (by rfl) rfl
  | lost k => exact aside_wait (by rfl) rfl
  | stand k => exact aside_wait (by rfl) rfl

theorem aside_freeLoop (d : Desk) (r : Ret) : Aside d.control (freeLoop d r) := by
  unfold freeLoop
  split
  · exact aside_wait (by rfl) rfl
  · split
    · exact aside_wait (by rfl) rfl
    · exact aside_wait (by rfl) rfl

theorem aside_freeDesk (d : Desk) (r : Ret) : Aside d.control (freeDesk d r) :=
  aside_freeLoop (d.mark .freeDesk) r

theorem aside_walkOn (d : Desk) (w : Walk) : Aside d.control (walkOn d w) := by
  obtain ⟨w', pc, h, -, -, -, ⟨c, rfl⟩ | rfl⟩ := walk_cases d w ((d.tabs w.tab).drop w.i)
  · rw [walkOn, h]
    exact aside_wait (by rfl) rfl
  · rw [walkOn, h]
    exact aside_wait (by rfl) rfl

theorem aside_startWalk (d : Desk) (userid : Option ℕ) (k : AfterBack) :
    Aside d.control (startWalk d userid k) := aside_walkOn d _

theorem aside_afterBack (d : Desk) (k : AfterBack) : Aside d.control (afterBack d k) := by
  cases k with
  | standup u k => exact (tail_actstandup (U := True) d _ k trivial).aside
  | free r => exact aside_freeDesk d r

theorem aside_standup (d : Desk) (uid : ℕ) (k : AfterStandup) :
    Aside d.control (standup d uid k) := by
  rcases standup_cases d uid k with h | ⟨-, -, u, -, h⟩
  · exact h.aside
  · rw [h]
    exact aside_startWalk d _ _

theorem aside_forceDismiss (d : Desk) : Aside d.control (forceDismiss d) := by
  rcases forceDismiss_cases d with ⟨r, h⟩ | ⟨-, -, ⟨r, h⟩ | h | ⟨-, h⟩⟩
  · rw [h]
    exact aside_ret (by rfl) r
  · rw [h]
    exact aside_ret (by rfl) r
  · rw [h]
    exact aside_freeDesk { d with dimiss := true } _
  · rw [h]
    exact aside_startWalk { d with dimiss := true } _ _

theorem aside_sitEnd (d : Desk) (u : Ref) : Aside d.control (sitEnd d u) := by
  unfold sitEnd
  dsimp only
  split
  · exact aside_ret (by rfl) _
  · exact aside_ret (by rfl) _

theorem aside_cliReady (d : Desk) (u : Ref) : Aside d.control (cliReady d u) := by
  unfold cliReady
  dsimp only
  repeat' split
  all_goals exact aside_ret (by rfl) _

theorem aside_grabBanker (d : Desk) (u : Ref) (grabbed : Bool) :
    Aside d.control (grabBanker d u grabbed) := by
  unfold grabBanker
  split
  · split
    · exact aside_ret (by rfl) _
    · exact aside_ret (by rfl) _
  · exact aside_ret (by rfl) _

/-- The commands that are not about a dismissal. -/
theorem aside_cli (d : Desk) (u : Ref) (inp : Inp) {cmd : Cmd} (ha : cmd ≠ .dismissApply)
    (hr : ∀ agree, cmd ≠ .dismissReply agree) : Aside d.control (cli d u inp cmd) := by
  cases cmd with
  | ready => exact aside_cliReady d u
  | grabBanker grabbed => exact aside_grabBanker d u grabbed
  | gamerun => exact aside_ret (by rfl) _
  | dismissApply => exact absurd rfl ha
  | dismissReply agree => exact absurd rfl (hr agree)
  | userfire kind => exact aside_fish (control_userfire d u kind inp)
  | catchfish req => exact aside_fish (control_catchfish d u req inp)
  | catchsweepfish req => exact aside_fish (control_catchsweepfish d u req inp)

/-- A command that does not steer is not about a dismissal. -/
theorem aside_command (d : Desk) (u : Ref) (inp : Inp) {cmd : Cmd} {j : Job} {d' : Desk}
    (hj : j.command d' = some (u, cmd)) (h : j.steers d' = false) :
    Aside d.control (cli d u inp cmd) := by
  unfold Job.steers at h
  rw [hj] at h
  refine aside_cli d u inp ?_ ?_
  · rintro rfl
    simp at h
  · rintro agree rfl
    simp at h

theorem aside_direct (d : Desk) (inp : Inp) {r : Req} (h : (Job.req r).steers d = false) :
    Aside d.control (direct d inp r) := by
  cases r with
  | join uid android =>
      rcases join_cases d uid android inp with ⟨r, h⟩ | ⟨user, -, -, -, -, h⟩
      · rw [direct, h]
        exact aside_ret (by rfl) r
      · rw [direct, h]
        exact aside_wait (by rfl) rfl
  | sitdown uid withseat =>
      rcases sitdown_cases d uid withseat with ⟨r, h⟩ | ⟨u, seat, rest, -, -, -, -, h⟩
      · rw [direct, h]
        exact aside_ret (by rfl) r
      · rw [direct, h]
        exact aside_wait (by rfl) rfl
  | standup uid => exact aside_standup d uid .ret
  | leave uid => exact (tail_leave (U := True) d uid .ret).aside
  | afk uid =>
      dsimp only [direct]
      unfold afk changeandroidid
      repeat' split
      all_goals exact aside_ret (by rfl) _
  | sceneinfo uid =>
      dsimp only [direct]
      unfold sceneinfo
      repeat' split
      all_goals exact aside_ret (by rfl) _
  | forceDismiss => exact aside_forceDismiss d
  | client uid cmd => exact aside_ret (by rfl) _
  | android u cmd =>
      dsimp only [direct]
      split
      · rename_i hdir
        have hcmd : (Job.req (.android u cmd)).command d = some (u, cmd) := by
          simp only [Job.command, if_pos hdir]
        exact aside_command d u inp hcmd h
      · exact aside_ret (by rfl) _
  | buildFish => exact aside_onTimer d _
  | clearTrace => exact aside_onTimer d _

theorem aside_segment (d d' : Desk) (inp : Inp) {pc : Pc} (h : (Job.seg pc).steers d' = false) :
    Aside d.control (segment d inp pc) := by
  have hpc : pc.voting = false ∧ pc.newDesk = false := by
    unfold Job.steers at h
    simpa [Job.pcs] using (Bool.or_eq_false_iff.1 h).1
  cases pc with
  | monitor | ready | start | config | banker | gamerun | gameend | result | resultErr =>
      simp [Pc.newDesk] at hpc
  | voteStart | vote => simp [Pc.voting] at hpc
  | joinAdd u => exact aside_wait (by rfl) rfl
  | joinDb u => exact aside_ret (by rfl) _
  | sitAdd u seat =>
      dsimp only [segment, sitSeated]
      split
      · exact aside_wait (by rfl) rfl
      · exact aside_sitEnd (seatUser d u seat) u
  | sitUse u =>
      dsimp only [segment]
      split
      · exact aside_wait (by rfl) rfl
      · exact aside_ret (by rfl) _
  | sitRecord u =>
      dsimp only [segment]
      split
      · exact aside_wait (by rfl) rfl
      · exact aside_ret (by rfl) _
  | sitCost u c => exact aside_sitEnd d u
  | backRecord w c => exact aside_wait (by rfl) rfl
  | backAdd w c => exact aside_wait (by rfl) rfl
  | backQuery w c =>
      dsimp only [segment]
      split
      · exact aside_wait (by rfl) rfl
      · exact aside_walkOn d _
  | backPush w c =>
      dsimp only [segment]
      split
      · exact aside_ret (by rfl) _
      · exact aside_walkOn d _
  | backSave w => exact aside_afterBack (replaceCosts d w.costs) w.k
  | standRemove uid k => exact (tail_afterStandup (U := True) d _ k).aside
  | kickRemove uid k => exact aside_wait (by rfl) rfl
  | kickLeave uid k =>
      cases k with
      | leave k => exact (tail_afterLeave (U := True) d _ k).aside
      | free r => exact aside_freeLoop d r
  | dismissAgent uid => exact aside_ret (by rfl) _
  | freeAgent u r => exact aside_wait (by rfl) rfl
  | freeDismiss r => exact aside_wait (by rfl) rfl
  | freeGamedb r => exact aside_wait (by rfl) rfl
  | freeLobby r => exact aside_ret (by rfl) _
  | begin u cmd => exact aside_command d u inp (j := .seg (.begin u cmd)) (by rfl) h
  | fish pc => exact aside_fish (control_fishSegment d inp pc)

/-- **All other work leaves the fields alone.** -/
theorem aside_job (d : Desk) (inp : Inp) {j : Job} (h : j.steers d = false) :
    Aside d.control (j.out d inp) := by
  cases j with
  | req r => exact aside_direct d inp h
  | cmd u cmd => exact aside_command d u inp (j := .cmd u cmd) rfl h
  | seg pc => exact control_executed d inp pc ▸ aside_segment (executed d inp pc) d inp h

/-- **The work that steers.** -/
theorem steers_cases {j : Job} (h : j.steers d = true) :
    j = .seg .voteStart ∨ (∃ usern, j = .seg (.vote usern)) ∨
      (∃ pc : Pc, pc.newDesk = true ∧ j = .seg pc) ∨
      ∃ u c, j.command d = some (u, c) ∧
      (c = .dismissApply ∨ ∃ agree, c = .dismissReply agree) := by
  unfold Job.steers at h
  rcases Bool.or_eq_true_iff.1 h with h | h
  · obtain ⟨pc, hpc, hv⟩ := List.any_eq_true.1 h
    have hj : j = .seg pc := by
      cases j with
      | req r => simp [Job.pcs] at hpc
      | cmd u c => simp [Job.pcs] at hpc
      | seg pc' => rw [List.mem_singleton.1 hpc]
    rcases Bool.or_eq_true_iff.1 hv with hv | hv
    · cases pc with
      | voteStart => exact Or.inl hj
      | vote usern => exact Or.inr (Or.inl ⟨usern, hj⟩)
      | _ => simp [Pc.voting] at hv
    · exact Or.inr (Or.inr (Or.inl ⟨pc, hv, hj⟩))
  · refine Or.inr (Or.inr (Or.inr ?_))
    split at h
    · rename_i u hc
      exact ⟨u, _, hc, Or.inl rfl⟩
    · rename_i u agree hc
      exact ⟨u, _, hc, Or.inr ⟨agree, rfl⟩⟩
    · cases h

/-- A command begins outside of every vote. -/
theorem voting_of_command {j : Job} {p : Ref × Cmd} (h : j.command d = some p) :
    ∀ pc ∈ j.pcs, pc.voting = false := by
  intro pc hpc
  cases j with
  | req r => simp [Job.pcs] at hpc
  | cmd u c => simp [Job.pcs] at hpc
  | seg pc' =>
      obtain rfl := List.mem_singleton.1 hpc
      cases pc with
      | voteStart | vote => simp [Job.command] at h
      | _ => rfl

/-! ### `new_desk` -/

/-- **Work that leaves the votes alone.** -/
structure KeepsVotes (d : Desk) (o : Out) : Prop where
  dismiss : o.d.dismiss = d.dismiss
  err : o.d.err = d.err
  pcs : ∀ pc ∈ o.pcs, pc.voting = false

section KeepsVotes

variable {d' : Desk} {o : Out}

theorem Aside.keepsVotes (hd : d'.dismiss = d.dismiss) (he : d'.err = d.err)
    (h : Aside d'.control o) : KeepsVotes d o :=
  ⟨(congrArg Control.dismiss h.control).trans hd, (congrArg Control.err h.control).trans he, h.pcs⟩

theorem keepsVotes_ret (hd : d'.dismiss = d.dismiss) (he : d'.err = d.err) (r : Ret) :
    KeepsVotes d (.ret d' r) := (aside_ret rfl r).keepsVotes hd he

theorem keepsVotes_wait {pc : Pc} (hd : d'.dismiss = d.dismiss) (he : d'.err = d.err)
    (hpc : pc.voting = false) : KeepsVotes d (.wait d' pc) := (aside_wait rfl hpc).keepsVotes hd he

theorem keepsVotes_force (d : Desk) : (force d).dismiss = d.dismiss ∧ (force d).err = d.err := by
  rcases force_cases d with h | ⟨g, -, h⟩
  · rw [h]
    exact ⟨rfl, rfl⟩
  · rw [h]
    exact ⟨rfl, rfl⟩

theorem Failed.keepsVotes (hd : d'.dismiss = d.dismiss) (he : d'.err = d.err) (h : Failed d' o) :
    KeepsVotes d o := by
  obtain ⟨hfd, hfe⟩ := keepsVotes_force d'
  cases h with
  | raise r => exact keepsVotes_ret hd he r
  | forced r => exact keepsVotes_ret (hfd.trans hd) (hfe.trans he) r
  | gameover scores => exact keepsVotes_wait (hfd.trans hd) (hfe.trans he) rfl
  | free => exact (aside_freeDesk d' _).keepsVotes hd he
  | back => exact (aside_startWalk d' _ _).keepsVotes hd he

theorem keepsVotes_sleepOn (hd : d'.dismiss = d.dismiss) (he : d'.err = d.err) (st : St) {pc : Pc}
    (hpc : pc.voting = false) : KeepsVotes d (sleepOn d' st pc) := by
  rcases sleepOn_cases d' st pc with ⟨-, h⟩ | ⟨-, h⟩
  · rw [h]
    exact keepsVotes_wait hd he hpc
  · rw [h]
    exact (failed_unhandled d').keepsVotes hd he

end KeepsVotes

/-- **`new_desk` leaves the votes alone.** -/
theorem keepsVotes_newDesk (d : Desk) (inp : Inp) {pc : Pc} (hpc : pc.newDesk = true) :
    KeepsVotes d (segment d inp pc) := by
  cases pc with
  | monitor => exact keepsVotes_sleepOn rfl rfl .ready rfl
  | ready =>
      dsimp only [segment, doGame]
      split
      · split
        · exact keepsVotes_wait (by rfl) (by rfl) rfl
        · exact keepsVotes_wait (by rfl) (by rfl) rfl
      · exact keepsVotes_sleepOn (by rfl) (by rfl) .banker rfl
  | start => exact keepsVotes_wait (by rfl) (by rfl) rfl
  | config => exact keepsVotes_sleepOn (by rfl) (by rfl) .banker rfl
  | banker =>
      dsimp only [segment]
      split
      · exact (failed_unhandled _).keepsVotes (by rfl) (by rfl)
      · rename_i d' hd'
        obtain ⟨seat, -, rfl⟩ := Option.map_eq_some_iff.1 hd'
        exact keepsVotes_sleepOn (by rfl) (by rfl) .gamerun rfl
  | gamerun =>
      dsimp only [segment, gameRun]
      split
      · exact (failed_unhandled _).keepsVotes (by rfl) (by rfl)
      · split
        · exact (failed_unhandled _).keepsVotes (by rfl) (by rfl)
        · exact keepsVotes_wait (by rfl) (by rfl) rfl
  | gameend =>
      dsimp only [segment, gameStop]
      split
      · exact (failed_unhandled _).keepsVotes (by rfl) (by rfl)
      · split
        · exact (failed_unhandled _).keepsVotes (by rfl) (by rfl)
        · exact keepsVotes_wait (by rfl) (by rfl) rfl
  | result scores =>
      dsimp only [segment, deskEnd]
      split
      · exact (aside_freeDesk _ _).keepsVotes (by rfl) (by rfl)
      · exact (failed_afterError _).keepsVotes (by rfl) (by rfl)
  | resultErr scores => exact (failed_afterError d).keepsVotes rfl rfl
  | _ => simp [Pc.newDesk] at hpc

end Halieutics
