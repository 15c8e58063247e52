/-
**The game of a desk, and who may touch it.**

Scores, roles and banker belong to the game.  Only the handlers of the game, its timers and
`new_desk` touch them; everybody else leaves them alone, but for a user who sits down, whose score
is set to zero.  A user object keeps its score for as long as it exists, so that every seated user
has one.

Main definitions:

* `Halieutics.SameGame`, `Halieutics.Quiet` — the game is left alone, and what work that does not
  play leaves behind;
* `Halieutics.Plays` — the work that plays;
* `Halieutics.Scored` — every seated user has a score.

Main results:

* `Halieutics.quiet_job`, `Halieutics.job_plays` — **work plays, or it leaves the game alone**;
* `Halieutics.keeps_segment` — `new_desk` changes no score;
* `Halieutics.scored_of_reach` — **every seated user has a score** in every reachable state.
-/

import Halieutics.DeskSeats

set_option relaxedAutoImplicit false
set_option autoImplicit false

namespace Halieutics

open LuaTable Coroutine

/-! ### Work that does not play -/

/-- The milestones of a game. -/
def Act.game : Act → Bool
  | .mark (.fired _ _ _ _ _) | .mark (.resolved _ _ _) | .mark .gameover => true
  | _ => false

/-- **The game is left alone.** -/
structure SameGame (d d' : Desk) : Prop where
  game : d'.game.map Game.core = d.game.map Game.core
  banker : d'.banker = d.banker
  acts : d'.hist.filter Act.game = d.hist.filter Act.game

theorem SameGame.refl (d : Desk) : SameGame d d := ⟨rfl, rfl, rfl⟩

theorem SameGame.trans {d d' d'' : Desk} (h : SameGame d d') (h' : SameGame d' d'') :
    SameGame d d'' :=
  ⟨h'.game.trans h.game, h'.banker.trans h.banker, h'.acts.trans h.acts⟩

theorem sameGame_of_core {d d' : Desk} (h : d'.core = d.core) : SameGame d d' where
  game := (congrArg Desk.game h :)
  banker := (congrArg Desk.banker h :)
  acts := by
    have hf : ∀ hist : List Act, (hist.filter Act.core).filter Act.game = hist.filter Act.game := by
      intro hist
      rw [List.filter_filter]
      congr 1
      funext a
      cases a with
      | rpc r => rfl
      | mark m => cases m <;> rfl
    rw [← hf, ← hf d.hist]
    exact (congrArg (fun d => (Desk.hist d).filter Act.game) h :)

theorem sameGame_executed (d : Desk) (inp : Inp) (pc : Pc) : SameGame d (executed d inp pc) := by
  unfold executed
  split
  · exact .refl d
  · exact ⟨rfl, rfl, rfl⟩

theorem objs_executed (d : Desk) (inp : Inp) (pc : Pc) : (executed d inp pc).objs = d.objs := by
  unfold executed
  split <;> rfl

/-- **What work that does not play leaves behind**: the game and the scores as they were, but for
the user to whom it assigns a seat. -/
structure Quiet (d : Desk) (o : Out) : Prop where
  game : SameGame d o.d
  scores : ∀ u, u < d.nobj → (o.d.objs u).game = (d.objs u).game ∨ ∃ seat, .sitAdd u seat ∈ o.pcs
  assigned : ∀ u seat, .sitAdd u seat ∈ o.pcs → (o.d.objs u).game = some 0
  pcs : ∀ pc ∈ o.pcs, pc.catching = false

theorem Quiet.of_same {d e : Desk} {o : Out} (hg : SameGame d e)
    (ho : ∀ u, (e.objs u).game = (d.objs u).game) (hn : e.nobj = d.nobj) (h : Quiet e o) :
    Quiet d o where
  game := hg.trans h.game
  scores := by
    intro u hu
    rw [← ho u]
    exact h.scores u (hn ▸ hu)
  assigned := h.assigned
  pcs := h.pcs

/-- A segment that changes no score. -/
theorem quiet_same {d : Desk} {o : Out} (hg : SameGame d o.d)
    (ho : ∀ u, (o.d.objs u).game = (d.objs u).game)
    (hpc : ∀ pc ∈ o.pcs, pc.taker? = none ∧ pc.catching = false) : Quiet d o where
  game := hg
  scores := fun u _ => Or.inl (ho u)
  assigned := by
    intro u seat hm
    have := (hpc _ hm).1
    simp [Pc.taker?] at this
  pcs := fun pc h => (hpc pc h).2

theorem game_of_core {d d' : Desk} (h : d'.core = d.core) (u : Ref) :
    (d'.objs u).game = (d.objs u).game :=
  (congrArg (fun d => (Desk.objs d u).game) h :)

theorem game_setUser (d : Desk) (u v : Ref) {f : User → User} (hf : ∀ x, (f x).game = x.game) :
    ((d.setUser u f).objs v).game = (d.objs v).game := by
  by_cases hv : v = u
  · rw [hv, objs_setUser_self, hf]
  · rw [objs_setUser_ne d f hv]

theorem game_drop (d : Desk) (u v : Ref) : ((drop d u).objs v).game = (d.objs v).game :=
  game_setUser _ u v fun _ => rfl

theorem game_unseat (d : Desk) (seat : ℤ) (u v : Ref) :
    ((unseat d seat u).objs v).game = (d.objs v).game :=
  game_setUser _ u v fun _ => rfl

theorem catching_of_walk {pc : Pc} {x : Walk × Stage} (h : pc.walk? = some x) :
    pc.catching = false := by
  cases pc <;> simp_all [Pc.walk?, Pc.catching]

theorem quiet_startWalk (d : Desk) (userid : Option ℕ) (k : AfterBack) :
    Quiet d (startWalk d userid k) := by
  obtain ⟨pc, w, st, h, hw, -⟩ := startWalk_cases d userid k
  rw [h]
  exact quiet_same (.refl d) (fun _ => rfl) (by simp [taker?_of_walk hw, catching_of_walk hw])

theorem quiet_assign (d : Desk) (u : Ref) (seat : ℤ) (rest : List ℤ) :
    Quiet d (.wait (assignSeat d u seat rest) (.sitAdd u seat)) where
  game := ⟨rfl, rfl, rfl⟩
  scores := by
    intro v _
    by_cases hv : v = u
    · exact Or.inr ⟨seat, by simp [hv]⟩
    · exact Or.inl (by simp [assignSeat, Desk.setUser, Function.update_of_ne hv])
  assigned := by
    intro v seat' hm
    obtain ⟨rfl, -⟩ : v = u ∧ seat' = seat := by simpa using hm
    simp [assignSeat, Desk.setUser]
  pcs := by simp [Pc.catching]

theorem quiet_join (d : Desk) (user : User) :
    Quiet d (.wait (joinin d user) (.joinAdd d.nobj)) where
  game := ⟨rfl, rfl, rfl⟩
  scores := fun u hu => Or.inl (congrArg User.game (Function.update_of_ne (Nat.ne_of_lt hu) _ _))
  assigned := by simp
  pcs := by simp [Pc.catching]

/-- Work that may not play leaves the game alone. -/
theorem Effect.quiet {W : Prop} {S : ℕ → Prop} {G U : Prop} {d : Desk} {o : Out} (hG : ¬ G)
    (h : Effect W S G U d.core o) : Quiet d o := by
  have core : ∀ {d' : Desk}, Near G d.core d' → d'.core = d.core :=
    fun hn => hn.resolve_right fun hg => hG hg.1
  have same : ∀ {d' : Desk} {o : Out}, Near G d.core d' → Quiet d' o → Quiet d o := by
    intro d' o hn hq
    exact hq.of_same (sameGame_of_core (core hn)) (game_of_core (core hn))
      (congrArg Desk.nobj (core hn) :)
  cases h with
  | same hn hpc _ =>
      refine quiet_same (sameGame_of_core (core hn)) (game_of_core (core hn)) fun pc hm => ?_
      exact ⟨taker?_of_plain (hpc pc hm).1, by simpa using fun hc => hG ((hpc pc hm).2 hc)⟩
  | @drop d' u k hn _ =>
      refine same hn (quiet_same ⟨rfl, rfl, rfl⟩ (game_drop d' u) ?_)
      simp [kickUser, Pc.taker?, Pc.catching]
  | @stand d' seat v k hn _ _ _ =>
      refine same hn (quiet_same ⟨rfl, rfl, rfl⟩ (game_unseat d' seat v) ?_)
      simp [Pc.taker?, Pc.catching]
  | walk hn _ => exact same hn (quiet_startWalk _ _ _)
  | join hn _ _ _ => exact same hn (quiet_join _ _)
  | assign hn _ _ _ _ => exact same hn (quiet_assign _ _ _ _)

/-- Charging and paying back leave the game alone. -/
theorem quiet_segment (d : Desk) (inp : Inp) {pc : Pc} (hplain : pc.plain = false) :
    Quiet d (segment d inp pc) := by
  have walks : ∀ w, Quiet d (walkOn d w) := by
    intro w
    obtain ⟨w', pc', h, -, -, -, ⟨c, rfl⟩ | rfl⟩ := walk_cases d w ((d.tabs w.tab).drop w.i)
    · rw [walkOn, h]; exact quiet_same (.refl d) (fun _ => rfl) (by simp [Pc.taker?, Pc.catching])
    · rw [walkOn, h]; exact quiet_same (.refl d) (fun _ => rfl) (by simp [Pc.taker?, Pc.catching])
  have ends : ∀ (d : Desk) (u : Ref), Quiet d (sitEnd d u) := fun d u =>
    (effect_sitEnd (W := False) (S := fun _ => False) (G := False) (U := False) d u).quiet id
  cases pc with
  | sitAdd u seat =>
      have hseat : SameGame d (seatUser d u seat) := ⟨rfl, rfl, rfl⟩
      dsimp only [segment, sitSeated]
      split
      · refine ⟨hseat, fun _ _ => Or.inl rfl, by simp, by simp [Pc.catching]⟩
      · exact (ends _ u).of_same hseat (fun _ => rfl) rfl
  | sitUse u =>
      dsimp only [segment]
      split
      · exact quiet_same (.refl d) (fun _ => rfl) (by simp [Pc.taker?, Pc.catching])
      · exact quiet_same (.refl d) (fun _ => rfl) (by simp)
  | sitRecord u =>
      dsimp only [segment]
      split
      · exact quiet_same ⟨rfl, rfl, rfl⟩ (fun _ => rfl)
          (by simp [deskCostBackup, Pc.taker?, Pc.catching])
      · exact quiet_same (.refl d) (fun _ => rfl) (by simp)
  | sitCost u c => exact ends d u
  | backRecord w c =>
      exact quiet_same (.refl d) (fun _ => rfl) (by simp [segment, Pc.taker?, Pc.catching])
  | backAdd w c =>
      exact quiet_same (.refl d) (fun _ => rfl) (by simp [segment, Pc.taker?, Pc.catching])
  | backQuery w c =>
      dsimp only [segment]
      split
      · exact quiet_same (.refl d) (fun _ => rfl) (by simp [Pc.taker?, Pc.catching])
      · exact walks _
  | backPush w c =>
      dsimp only [segment]
      split
      · exact quiet_same (.refl d) (fun _ => rfl) (by simp)
      · exact walks _
  | backSave w =>
      have he := effect_afterBack (W := False) (S := fun _ => False) (G := False) (U := True)
        (replaceCosts d w.costs) w.k fun _ _ _ => trivial
      exact Quiet.of_same (e := replaceCosts d w.costs) ⟨rfl, rfl, rfl⟩ (fun _ => rfl) rfl
        (he.quiet id)
  | _ => simp [Pc.plain] at hplain

theorem nobj_executed (d : Desk) (inp : Inp) (pc : Pc) : (executed d inp pc).nobj = d.nobj := by
  unfold executed
  split <;> rfl

/-- **Work that does not play leaves the game alone.** -/
theorem quiet_job (d : Desk) (inp : Inp) {j : Job} (hj : j.plays d = false) :
    Quiet d (j.out d inp) := by
  have hnot : ¬ j.plays d = true := by simp [hj]
  cases j with
  | req r => exact (effect_job d inp (j := .req r) (by simp [Job.pcs])).quiet hnot
  | cmd u c => exact (effect_job d inp (j := .cmd u c) (by simp [Job.pcs])).quiet hnot
  | seg pc =>
      refine Quiet.of_same (e := executed d inp pc) (sameGame_executed d inp pc)
        (fun u => by rw [objs_executed]) (nobj_executed d inp pc) ?_
      cases hplain : pc.plain with
      | true => exact (effect_job d inp (j := .seg pc) (by simpa [Job.pcs] using hplain)).quiet hnot
      | false => exact quiet_segment (executed d inp pc) inp hplain

/-! ### Work that plays -/

/-- **The work that plays.** -/
inductive Plays (d : Desk) (inp : Inp) : Job → Out → Prop
  | fire {j : Job} {u : Ref} {kind : Option ℤ} : j.command d = some (u, .userfire kind) →
      Plays d inp j (.fish (userfire d u kind inp))
  | hit {j : Job} {u : Ref} {req : CatchReq} : j.command d = some (u, .catchfish req) →
      Plays d inp j (.fish (catchfish d u req inp))
  | sweep {j : Job} {u : Ref} {req : SweepReq} : j.command d = some (u, .catchsweepfish req) →
      Plays d inp j (.fish (catchsweepfish d u req inp))
  | segment {pc : FishPc} : Plays d inp (.seg (.fish pc))
      (.fish (fishSegment (executed d inp (.fish pc)) inp pc))
  | timer {r : Req} {f : Roles → Roles} :
      (f = fun r => r.buildFish inp.now inp.kinds) ∨ (f = fun r => r.update inp.now) →
      Plays d inp (.req r) (onTimer d f)
  | newDesk {pc : Pc} : pc.newDesk = true →
      Plays d inp (.seg pc) (segment (executed d inp pc) inp pc)

/-- A client command is handled by `cli`, whichever way it comes. -/
theorem out_of_command {d : Desk} {j : Job} {u : Ref} {c : Cmd} (inp : Inp)
    (h : j.command d = some (u, c)) : j.out d inp = cli d u inp c := by
  cases j with
  | req r =>
      cases r with
      | android v c' =>
          simp only [Job.command] at h
          split at h
          · rename_i hdir
            obtain ⟨rfl, rfl⟩ := Prod.mk.inj (Option.some_inj.1 h)
            simp only [Job.out, direct, hdir, if_true]
          · simp at h
      | _ => simp [Job.command] at h
  | cmd v c' =>
      obtain ⟨rfl, rfl⟩ := Prod.mk.inj (Option.some_inj.1 h)
      rfl
  | seg pc =>
      cases pc with
      | begin v c' =>
          obtain ⟨rfl, rfl⟩ := Prod.mk.inj (Option.some_inj.1 h)
          rfl
      | _ => simp [Job.command] at h

theorem plays_command (d : Desk) (inp : Inp) {j : Job} {u : Ref} {c : Cmd}
    (hj : j.command d = some (u, c)) (hc : c.fishing = true) : Plays d inp j (j.out d inp) := by
  rw [out_of_command inp hj]
  cases c with
  | userfire kind => exact .fire hj
  | catchfish req => exact .hit hj
  | catchsweepfish req => exact .sweep hj
  | _ => simp [Cmd.fishing] at hc

/-- **Every piece of work that plays is on the list.** -/
theorem job_plays (d : Desk) (inp : Inp) {j : Job} (hj : j.plays d = true) :
    Plays d inp j (j.out d inp) := by
  cases j with
  | cmd u c => exact plays_command d inp rfl hj
  | req r =>
      cases r with
      | buildFish => exact .timer (Or.inl rfl)
      | clearTrace => exact .timer (Or.inr rfl)
      | _ =>
          unfold Job.plays at hj
          dsimp only at hj
          split at hj
          · rename_i p hp
            exact plays_command d inp hp hj
          · simp at hj
  | seg pc =>
      cases pc with
      | begin u c => exact plays_command d inp rfl hj
      | fish pc => exact .segment
      | _ => first | exact .newDesk rfl | simp [Job.plays, Pc.newDesk, Pc.catching] at hj

/-! ### The coroutine of the desk -/

/-- The scores `new_desk` is about to save. -/
def Pc.result? : Pc → Option (List ℤ)
  | .result scores => some scores
  | .resultErr scores => some scores
  | _ => none

/-- The mark of `gameover`. -/
def Act.over : Act → Bool
  | .mark .gameover => true
  | _ => false

/-- The scores of the seated users; `none` when somebody has no score. -/
def Desk.scores (d : Desk) : Option (List ℤ) := (vals d.users).mapM fun u => (d.objs u).game

/-- The same users are seated, with the same scores. -/
structure SameScores (d d' : Desk) : Prop where
  users : d'.users = d.users
  scores : ∀ u, (d'.objs u).game = (d.objs u).game

theorem SameScores.trans {d d' d'' : Desk} (h : SameScores d d') (h' : SameScores d' d'') :
    SameScores d d'' :=
  ⟨h'.users.trans h.users, fun u => (h'.scores u).trans (h.scores u)⟩

theorem SameScores.collect {d d' : Desk} (h : SameScores d d') : d'.scores = d.scores := by
  simp only [Desk.scores, h.users, h.scores]

/-- **What `new_desk` leaves of the scores**: it goes on, or `gameover` collects them. -/
inductive Keeps (d : Desk) (o : Out) : Prop
  | goes : SameScores d o.d → o.d.hist.filter Act.over = d.hist.filter Act.over →
      (∀ pc ∈ o.pcs, pc.result? = none) → Keeps d o
  | ended {scores : List ℤ} : SameScores d o.d → d.scores = some scores →
      o.d.hist.filter Act.over = .mark .gameover :: d.hist.filter Act.over →
      (∀ pc ∈ o.pcs, pc.result? = some scores) → Keeps d o

theorem Keeps.of_same {d d' : Desk} {o : Out} (hs : SameScores d d')
    (hh : d'.hist.filter Act.over = d.hist.filter Act.over) (h : Keeps d' o) : Keeps d o := by
  cases h with
  | goes h₁ h₂ h₃ => exact .goes (hs.trans h₁) (h₂.trans hh) h₃
  | ended h₁ h₂ h₃ h₄ => exact .ended (hs.trans h₁) (hs.collect ▸ h₂) (by rw [h₃, hh]) h₄

theorem keeps_freeDesk (d : Desk) (r : Ret) : Keeps d (freeDesk d r) := by
  unfold freeDesk freeLoop
  split
  · exact .goes ⟨rfl, fun _ => rfl⟩ rfl (by simp [Pc.result?])
  · split
    · exact .goes ⟨rfl, fun _ => rfl⟩ rfl (by simp [Pc.result?])
    · exact .goes ⟨rfl, fun v => game_drop (d.mark .freeDesk) _ v⟩ rfl
        (by simp [kickUser, Pc.result?])

theorem keeps_startWalk (d : Desk) (userid : Option ℕ) (k : AfterBack) :
    Keeps d (startWalk d userid k) := by
  obtain ⟨pc, w, st, h, hw, -⟩ := startWalk_cases d userid k
  rw [h]
  refine .goes ⟨rfl, fun _ => rfl⟩ rfl ?_
  intro pc' hpc
  rw [Out.pcs_wait, List.mem_singleton] at hpc
  subst hpc
  cases pc' <;> simp_all [Pc.walk?, Pc.result?]

theorem sameScores_force (d : Desk) : SameScores d (force d) ∧ (force d).hist = d.hist := by
  rcases force_cases d with h | ⟨g, -, h⟩
  · rw [h]; exact ⟨⟨rfl, fun _ => rfl⟩, rfl⟩
  · rw [h]; exact ⟨⟨rfl, fun _ => rfl⟩, rfl⟩

theorem scores_of_gameover {d : Desk} {scores : List ℤ} (h : gameoverScores d = some scores) :
    d.scores = some scores := by
  unfold gameoverScores at h
  split at h
  · exact h
  · exact absurd h (by simp)

theorem Failed.keeps {d : Desk} {o : Out} (h : Failed d o) : Keeps d o := by
  obtain ⟨hs, hh⟩ := sameScores_force d
  cases h with
  | raise r => exact .goes ⟨rfl, fun _ => rfl⟩ rfl (by simp)
  | forced r => exact .goes hs (by rw [Out.d_ret, hh]) (by simp)
  | gameover scores hg =>
      refine .ended ⟨hs.users, hs.scores⟩ (hs.collect ▸ scores_of_gameover hg) ?_
        (by simp [Pc.result?])
      rw [Out.d_wait, Desk.mark, List.filter_cons_of_pos rfl, hh]
  | free => exact keeps_freeDesk d _
  | back _ _ => exact keeps_startWalk d _ _

theorem keeps_sleepOn (d : Desk) (st : St) {pc : Pc} (hpc : pc.result? = none) :
    Keeps d (sleepOn d st pc) := by
  rcases sleepOn_cases d st pc with ⟨-, h⟩ | ⟨-, h⟩
  · rw [h]; exact .goes ⟨rfl, fun _ => rfl⟩ rfl (by simp [hpc])
  · rw [h]; exact (failed_unhandled d).keeps

/-- A result is saved once: after that `new_desk` ends the desk. -/
theorem keeps_result (d : Desk) (inp : Inp) (pc : Pc) (hpc : pc.result? ≠ none) :
    ∃ d', SameScores d d' ∧ d'.hist = d.hist ∧
      (segment d inp pc = freeDesk d' .nil ∨ segment d inp pc = afterError d') := by
  cases pc with
  | result scores =>
      dsimp only [segment, deskEnd]
      refine ⟨{ d with isstart := false }, ⟨rfl, fun _ => rfl⟩, rfl, ?_⟩
      split
      · exact Or.inl rfl
      · exact Or.inr rfl
  | resultErr scores => exact ⟨d, ⟨rfl, fun _ => rfl⟩, rfl, Or.inr rfl⟩
  | _ => simp [Pc.result?] at hpc

/-- **`new_desk` changes no score.** -/
theorem keeps_segment (d : Desk) (inp : Inp) {pc : Pc} (hpc : pc.newDesk = true) :
    Keeps d (segment d inp pc) := by
  cases pc with
  | monitor => exact keeps_sleepOn d .ready rfl
  | ready =>
      dsimp only [segment, doGame, gameInit]
      split
      · split
        · exact .goes ⟨rfl, fun _ => rfl⟩ rfl (by simp [Pc.result?])
        · exact .goes ⟨rfl, fun _ => rfl⟩ rfl (by simp [Pc.result?])
      · exact (keeps_sleepOn _ .banker rfl).of_same (by exact ⟨rfl, fun _ => rfl⟩) (by rfl)
  | start => exact .goes ⟨rfl, fun _ => rfl⟩ rfl (by simp [segment, gameInit, Pc.result?])
  | config => exact (keeps_sleepOn _ .banker rfl).of_same (by exact ⟨rfl, fun _ => rfl⟩) (by rfl)
  | banker =>
      dsimp only [segment]
      split
      · exact (failed_unhandled _).keeps.of_same (by exact ⟨rfl, fun _ => rfl⟩) (by rfl)
      · rename_i d' hd'
        have hs : SameScores d d' ∧ d'.hist = d.hist := by
          simp only [determinBanker, Option.map_eq_some_iff] at hd'
          obtain ⟨seat, -, rfl⟩ := hd'
          refine ⟨⟨rfl, fun u => ?_⟩, rfl⟩
          dsimp only
          split <;> rfl
        exact (keeps_sleepOn d' .gamerun rfl).of_same hs.1 (by rw [hs.2])
  | gamerun =>
      dsimp only [segment, gameRun]
      split
      · exact (failed_unhandled _).keeps.of_same (by exact ⟨rfl, fun _ => rfl⟩) (by rfl)
      · split
        · exact (failed_unhandled _).keeps.of_same (by exact ⟨rfl, fun _ => rfl⟩) (by rfl)
        · exact .goes ⟨rfl, fun _ => rfl⟩ rfl (by simp [Pc.result?])
  | gameend =>
      dsimp only [segment, gameStop]
      split
      · exact (failed_unhandled _).keeps.of_same (by exact ⟨rfl, fun _ => rfl⟩) (by rfl)
      · split
        · exact (failed_unhandled _).keeps.of_same (by exact ⟨rfl, fun _ => rfl⟩) (by rfl)
        · rename_i hg
          refine .ended ⟨rfl, fun _ => rfl⟩ (scores_of_gameover hg) rfl (by simp [Pc.result?])
  | result scores =>
      obtain ⟨d', hs, hh, h | h⟩ := keeps_result d inp (.result scores) (by simp [Pc.result?])
      · rw [h]; exact (keeps_freeDesk d' _).of_same hs (by rw [hh])
      · rw [h]; exact (failed_afterError d').keeps.of_same hs (by rw [hh])
  | resultErr scores => exact (failed_afterError d).keeps
  | _ => simp [Pc.newDesk] at hpc

theorem Keeps.scores {d : Desk} {o : Out} (h : Keeps d o) : SameScores d o.d := by
  cases h with
  | goes h _ _ => exact h
  | ended h _ _ _ => exact h

/-! ### Seated users have scores -/

theorem FishFrame.score {d d' : Desk} (h : FishFrame d d') (u : Ref) :
    (d'.objs u).game.isSome = (d.objs u).game.isSome := by
  obtain ⟨objs, game, banker, acts, rfl, hobjs, -⟩ := h
  obtain ⟨s, hs, hsome⟩ := hobjs u
  rw [← hsome]
  exact congrArg (fun x => (User.game x).isSome) hs

theorem objs_onTimer (d : Desk) (f : Roles → Roles) : (onTimer d f).d.objs = d.objs := by
  unfold onTimer
  repeat' split
  all_goals rfl

/-- **A user object keeps its score.** -/
theorem score_job (d : Desk) (inp : Inp) (j : Job) {u : Ref} (hu : u < d.nobj)
    (h : (d.objs u).game.isSome = true) : ((j.out d inp).d.objs u).game.isSome = true := by
  cases hp : j.plays d with
  | false =>
      have hq := quiet_job d inp hp
      rcases hq.scores u hu with hs | ⟨seat, hm⟩
      · rw [hs, h]
      · rw [hq.assigned u seat hm]; rfl
  | true =>
      have hframe : ∀ {o : FishOut}, FishFrame d o.d →
        ((Out.fish o).d.objs u).game.isSome = true := by
        intro o hf
        rw [d_fish, hf.score, h]
      have hplays := job_plays d inp hp
      generalize j.out d inp = o at hplays ⊢
      cases hplays with
      | fire _ => exact hframe (frame_userfire d _ _ inp)
      | hit _ => exact hframe (frame_catchfish d _ _ inp)
      | sweep _ => exact hframe (frame_catchsweepfish d _ _ inp)
      | @segment pc =>
          rw [d_fish, (frame_fishSegment (executed d inp (.fish pc)) inp pc).score,
            objs_executed, h]
      | timer _ => rw [objs_onTimer, h]
      | newDesk hnew =>
          rw [(keeps_segment _ inp hnew).scores.scores, objs_executed, h]

/-- Who has a seat had one before, or has just been assigned one. -/
theorem SeatEffect.occupants {S : ℕ → Prop} {d : Desk} {o : Out} {rest : List Pc}
    (he : SeatEffect S d o) {u : Ref} (hu : u ∈ occupants o.d (o.pcs ++ rest)) :
    u ∈ occupants d rest ∨ ∃ uid seat, S uid ∧ d.usermap.lookup uid = some u ∧
      .sitAdd u seat ∈ o.pcs := by
  have keep : ∀ {d' : Desk} {pc : Pc}, SameSeats d d' → pc.sitting? = none → ∀ {d'' : Desk},
      d''.users = d'.users → u ∈ Halieutics.occupants d'' ((Out.wait d'' pc).pcs ++ rest) →
      u ∈ Halieutics.occupants d rest := by
    intro d' pc hs hpc d'' hd hm
    have hp : pending ((Out.wait d'' pc).pcs ++ rest) = pending rest := List.filterMap_cons_none hpc
    rw [Halieutics.occupants, hd, hs.users, hp] at hm
    exact hm
  cases he with
  | same hs hpc =>
      rw [Halieutics.occupants, hs.users, pending_append, pending_eq_nil hpc] at hu
      exact Or.inl hu
  | drop hs _ => exact Or.inl (keep hs rfl rfl hu)
  | @stand d' seat v k hs hv =>
      refine Or.inl ?_
      rcases List.mem_append.1 hu with hu | hu
      · refine List.mem_append_left _ ?_
        rw [← hs.users]
        exact (vals_perm_erase hv).mem_iff.2 (List.mem_cons_of_mem _ hu)
      · exact List.mem_append_right _ hu
  | join hs _ _ _ => exact Or.inl (keep hs rfl rfl hu)
  | @assign d' uid v seat free hs hS _ hv _ =>
      rcases List.mem_append.1 hu with hu | hu
      · exact Or.inl (List.mem_append_left _ (hs.users ▸ hu))
      · rcases List.mem_cons.1 hu with rfl | hu
        · exact Or.inr ⟨uid, seat, hS, hs.usermap ▸ hv, by simp⟩
        · exact Or.inl (List.mem_append_right _ hu)

theorem SeatEffect.nobj_le {S : ℕ → Prop} {d : Desk} {o : Out} (he : SeatEffect S d o) :
    d.nobj ≤ o.d.nobj := by
  cases he with
  | same hs _ => exact Nat.le_of_eq hs.nobj.symm
  | drop hs _ => exact Nat.le_of_eq hs.nobj.symm
  | stand hs _ => exact Nat.le_of_eq hs.nobj.symm
  | join hs _ _ _ => exact Nat.le_succ_of_le (Nat.le_of_eq hs.nobj.symm)
  | assign hs _ _ _ _ => exact Nat.le_of_eq hs.nobj.symm

/-- **Every user who has a seat, or is about to, has a score.** -/
def Scored (d : Desk) (l : List Pc) : Prop :=
  ∀ u ∈ occupants d l, u < d.nobj ∧ (d.objs u).game.isSome = true

theorem Scored.perm {d : Desk} {l l' : List Pc} (hp : l.Perm l') (h : Scored d l) :
    Scored d l' := by
  have hocc : (occupants d l).Perm (occupants d l') := ((hp.filterMap _).map _).append_left _
  exact fun u hu => h u (hocc.mem_iff.2 hu)

theorem occupants_called (d : Desk) (inp : Inp) (j : Job) (l : List Pc) :
    occupants (j.called d inp) l = occupants d l := by
  cases j with
  | req r => rfl
  | cmd u c => rfl
  | seg pc =>
      dsimp only [Job.called, executed]
      split <;> rfl

theorem Scored.job {d : Desk} {rest : List Pc} (inp : Inp) {j : Job}
    (hc : Covered d (j.pcs ++ rest)) (h : Scored d (j.pcs ++ rest)) :
    Scored (j.out d inp).d ((j.out d inp).pcs ++ rest) := by
  have keep : ∀ u, u < d.nobj → u ∈ occupants d (j.pcs ++ rest) →
      ((j.out d inp).d.objs u).game.isSome = true :=
        fun u hlt hu => score_job d inp j hlt (h u hu).2
  have hnobj : (j.called d inp).nobj = d.nobj := by
    cases j with
    | req r => rfl
    | cmd u c => rfl
    | seg pc => exact nobj_executed d inp pc
  intro u hu
  by_cases hj : pending j.pcs = []
  · have he := seatEffect_job d inp hj
    have hle := hnobj ▸ he.nobj_le
    rcases he.occupants hu with hu | ⟨uid, seat, ⟨w, rfl⟩, hmap, hm⟩
    · rw [occupants_called] at hu
      have hu' : u ∈ occupants d (j.pcs ++ rest) := by
        rw [occupants, pending_append, hj, List.nil_append]
        exact hu
      exact ⟨Nat.lt_of_lt_of_le (h u hu').1 hle, keep u (h u hu').1 hu'⟩
    · refine ⟨Nat.lt_of_lt_of_le (hc.users uid u hmap) hle, ?_⟩
      rw [(quiet_job d inp rfl).assigned u seat hm]
      rfl
  · obtain ⟨v, seat, rfl⟩ := sitAdd_of_pending hj
    obtain ⟨hs, hpcs⟩ := sitSeated_same (executed d inp (.sitAdd v seat)) v seat
    have hu' : u ∈ occupants d ([.sitAdd v seat] ++ rest) := by
      have hnil : pending (Job.out d inp (.seg (.sitAdd v seat))).pcs = [] := by
        rcases hpcs with hpcs | hpcs <;> exact congrArg pending hpcs
      rw [occupants, pending_append, hnil, List.nil_append,
        show (Job.out d inp (.seg (.sitAdd v seat))).d.users = d.users.insert seat v from hs.users]
        at hu
      rcases List.mem_append.1 hu with hu | hu
      · obtain ⟨seat', hk⟩ := mem_vals.1 hu
        rw [lookup_insert_eq] at hk
        split at hk
        · obtain rfl := Option.some_inj.1 hk
          exact List.mem_append_right _ List.mem_cons_self
        · exact List.mem_append_left _ (mem_vals.2 ⟨seat', hk⟩)
      · exact List.mem_append_right _ (List.mem_cons_of_mem _ hu)
    refine ⟨?_, keep u (h u hu').1 hu'⟩
    rw [show (Job.out d inp (.seg (.sitAdd v seat))).d.nobj = d.nobj from hs.nobj]
    exact (h u hu').1

theorem scored_of_reach {C : Sys → Ev → Prop} {id creater timelimit : ℕ} {pay : Pay} {s : Sys}
    (h : desk.Reach C (created id creater pay timelimit) s) : Scored s.shared (pcs s) := by
  refine desk_inv ?_ ?_ ?_ ?_ ?_ (h.and_inv fun s hs => covered_of_reach hs)
  · exact fun d l l' hp hI => Scored.perm hp hI
  · exact fun d l b q hI => hI
  · exact fun d l u c hI => hI
  · intro u hu
    exact absurd hu List.not_mem_nil
  · rintro s e j inp rest ⟨-, hcov⟩ hj hp _ hI
    exact hI.job inp (hcov.perm hp)

end Halieutics
