/-
**Scores are zero-sum.**

Every score that changes hands goes from one seated user to another, so the scores of the seated
users sum to zero while a game is on.  What could break the sum is a user who gives his seat back
with a score; the test in `desk.standup` keeps that from happening while a game runs, and a
`standup` that was let through before is complete before somebody shoots, as long as requests do not
overlap.

Main definitions:

* `Halieutics.Desk.total`, `Halieutics.Desk.level` — the sum of the scores, and nobody has scored;
* `Halieutics.Fair`, `Halieutics.SumInv` — the invariant.

Main results:

* `Halieutics.total_calc` — **`calc_fishscore_all` keeps the sum**;
* `Halieutics.users_job` — who gives a seat back, and when;
* `Halieutics.zeroSum_of_complete` — **scores are zero-sum** until `gameover`, and so is the result
  that `gameover` saves.
-/

import Halieutics.DeskAlone
import Halieutics.FishScores

set_option relaxedAutoImplicit false
set_option autoImplicit false

namespace Halieutics

open LuaTable Coroutine

/-! ### The sum of the scores -/

/-- The score of a user object. -/
def Desk.score (d : Desk) (u : Ref) : ℤ := (d.objs u).game.getD 0

/-- **The sum of the scores** of the seated users. -/
def Desk.total (d : Desk) : ℤ := ((vals d.users).map d.score).sum

/-- Nobody who is seated has scored. -/
def Desk.level (d : Desk) : Prop := ∀ u ∈ vals d.users, (d.objs u).game = some 0

theorem Desk.level.total {d : Desk} (h : d.level) : d.total = 0 := by
  refine List.sum_eq_zero fun x hx => ?_
  obtain ⟨u, hu, rfl⟩ := List.mem_map.1 hx
  simp [Desk.score, h u hu]

/-- Setting the score of a seated user. -/
theorem total_setScore {d : Desk} {u : Ref} {x : ℤ} (hn : (vals d.users).Nodup)
    (hu : u ∈ vals d.users) (hx : (d.objs u).game = some x) (y : ℤ) :
    (d.setScore u y).total = d.total - x + y := by
  have hperm := List.perm_cons_erase hu
  have hsum : ∀ f : Ref → ℤ,
    ((vals d.users).map f).sum = f u + (((vals d.users).erase u).map f).sum := by
    intro f
    rw [(hperm.map f).sum_eq, List.map_cons, List.sum_cons]
  have hrest : ((vals d.users).erase u).map (d.setScore u y).score
      = ((vals d.users).erase u).map d.score := by
    refine List.map_congr_left fun v hv => ?_
    have hne : v ≠ u := by
      rintro rfl
      exact hn.not_mem_erase hv
    rw [Desk.score, Desk.score, objs_setScore_ne d hne]
  have hself : (d.setScore u y).score u = y := by simp [Desk.score, objs_setScore_self]
  have hold : d.score u = x := by simp [Desk.score, hx]
  rw [Desk.total, Desk.total, show (d.setScore u y).users = d.users from rfl, hsum, hsum d.score,
    hrest, hself, hold]
  ring

/-- **`calc_fishscore_all` keeps the sum.** -/
theorem total_calc {d : Desk} {l : List Pc} (hn : (vals d.users).Nodup) (hs : Scored d l)
    (me banker score : ℤ) : (calcFishscoreAll d me banker score).1.total = d.total := by
  by_cases hne : me = banker
  · rw [calc_idle (Or.inl hne)]
  · cases hu : d.atSeat me with
    | none => rw [calc_idle (Or.inr (Or.inl hu))]
    | some u =>
        cases hv : d.atSeat banker with
        | none => rw [calc_idle (Or.inr (Or.inr hv))]
        | some v =>
            obtain ⟨x, hx⟩ := hs.atSeat hu
            obtain ⟨y, hy⟩ := hs.atSeat hv
            obtain ⟨huv, hcalc⟩ := calc_moves hne hu hv hx hy score
            have hy' : ((d.setScore u (x + score)).objs v).game = some y := by
              rw [objs_setScore_ne d (Ne.symm huv), hy]
            rw [hcalc, total_setScore (d := d.setScore u (x + score)) hn (atSeat_spec hv).1 hy',
              total_setScore hn (atSeat_spec hu).1 hx]
            ring

/-- The scores of a result sum to the sum of the scores. -/
theorem sum_of_scores {d : Desk} {scores : List ℤ} (h : d.scores = some scores) :
    scores.sum = d.total := by
  have key : ∀ us : List Ref, ∀ scores, us.mapM (fun u => (d.objs u).game) = some scores →
      scores = us.map d.score := by
    intro us
    induction us with
    | nil =>
        intro scores h
        simpa using h.symm
    | cons u us ih =>
        intro scores h
        simp only [List.mapM_cons, Option.bind_eq_bind, Option.bind_eq_some_iff, Option.pure_def,
          Option.some_inj] at h
        obtain ⟨x, hx, xs, hxs, rfl⟩ := h
        rw [List.map_cons, ← ih xs hxs, Desk.score, hx]
        rfl
  rw [key _ _ h, Desk.total]

/-! ### Giving a seat back -/

/-- The walks of `desk.standup`. -/
def Pc.standing (pc : Pc) : Bool :=
  match pc.walk? with
  | some (w, _) =>
      match w.k with
      | .standup _ _ => true
      | .free _ => false
  | none => false

theorem standing_of_plain {pc : Pc} (h : pc.plain = true) : pc.standing = false := by
  simp [Pc.standing, walk?_of_plain h]

theorem standing_of_walk {pc pc' : Pc} {x x' : Walk × Stage} (h : pc.walk? = some x)
    (h' : pc'.walk? = some x') (hk : x'.1.k = x.1.k) : pc'.standing = pc.standing := by
  simp only [Pc.standing, h, h', hk]

/-- A seat may be given back: no game has started, or `desk.standup` was let through before. -/
def Stands (d : Desk) (j : Job) : Prop := d.started = false ∨ ∃ pc ∈ j.pcs, pc.standing = true

/-- **Who gives a seat back, and when.** -/
structure Seating (d : Desk) (j : Job) (o : Out) : Prop where
  users : o.d.users = d.users ∨ (Stands d j ∧ ∃ seat, o.d.users = d.users.erase seat)
  walks : ∀ pc ∈ o.pcs, pc.standing = true → Stands d j

theorem seating_of_users {d : Desk} {j : Job} {o : Out} (hu : o.d.users = d.users)
    (hpc : ∀ pc ∈ o.pcs, pc.standing = false) : Seating d j o :=
  ⟨Or.inl hu, fun pc hm hs => absurd hs (by simp [hpc pc hm])⟩

theorem Effect.seating {W : Prop} {S : ℕ → Prop} {G U : Prop} {d d' : Desk} {o : Out} {j : Job}
    (hd : d'.users = d.users) (hW : W → Stands d j) (hU : U → Stands d j)
    (h : Effect W S G U d'.core o) : Seating d j o := by
  have near : ∀ {e : Desk}, Near G d'.core e → e.users = d.users := fun hn =>
    (congrArg Desk.users hn.base :).trans hd
  cases h with
  | same hn hpc _ => exact seating_of_users (near hn) fun pc hm => standing_of_plain (hpc pc hm).1
  | @drop e u k hn _ =>
      exact seating_of_users (near (e := e) hn) (by simp [kickUser, Pc.standing, Pc.walk?])
  | @stand e seat v k hn hu hv _ =>
      refine ⟨Or.inr ⟨hU hu, seat, ?_⟩, by simp [Pc.standing, Pc.walk?]⟩
      rw [← near hn]
      rfl
  | walk hn hw => exact ⟨Or.inl (by rw [startWalk_d]; exact near hn), fun _ _ _ => hW hw⟩
  | @join e user hn _ _ _ =>
      exact seating_of_users (near (e := e) hn) (by simp [Pc.standing, Pc.walk?])
  | @assign e uid u seat rest hn _ _ _ _ =>
      exact seating_of_users (near (e := e) hn) (by simp [Pc.standing, Pc.walk?])

theorem started_of_paysBack {d : Desk} {j : Job} (h : paysBack d j = true) : d.started = false := by
  unfold paysBack at h
  obtain ⟨-, h⟩ := Bool.and_eq_true_iff.1 h
  split at h
  · simp only [standupPays, Bool.and_eq_true, Bool.not_eq_true'] at h
    exact h.1.2
  · simp only [Bool.and_eq_true, Bool.not_eq_true'] at h
    simp [Desk.started, h.2]
  · split at h
    · simp only [Bool.and_eq_true] at h
      have hnow := h.1
      unfold dismissesNow at hnow
      split at hnow
      · simpa using hnow
      · simp at hnow
    · simp at h

/-- Charging and paying back. -/
theorem seating_segment (d : Desk) (inp : Inp) {pc : Pc} (hplain : pc.plain = false)
    (hsit : pc.sitting? = none) : Seating d (.seg pc) (segment d inp pc) := by
  have ends : ∀ (u : Ref), Seating d (.seg pc) (sitEnd d u) := fun u =>
    (effect_sitEnd (W := False) (S := fun _ => False) (G := False) (U := False) d u).seating rfl
      False.elim False.elim
  have onward : ∀ {pc' : Pc}, pc'.standing = pc.standing → Seating d (.seg pc) (.wait d pc') := by
    intro pc' hs
    refine ⟨Or.inl rfl, ?_⟩
    simp only [Out.pcs_wait, List.mem_singleton, forall_eq, hs]
    exact fun hs => Or.inr ⟨pc, by simp [Job.pcs], hs⟩
  have walks : ∀ {w : Walk} {st : Stage}, pc.walk? = some (w, st) →
      Seating d (.seg pc) (walkOn d { w with i := w.i + 1 }) := by
    intro w st hx
    obtain ⟨w', pc', h, hk, -, -, hpc⟩ :=
      walk_cases d { w with i := w.i + 1 } ((d.tabs w.tab).drop (w.i + 1))
    obtain ⟨st', hw⟩ : ∃ st', pc'.walk? = some (w', st') := by
      rcases hpc with ⟨c, rfl⟩ | rfl
      · exact ⟨_, rfl⟩
      · exact ⟨_, rfl⟩
    rw [walkOn, h]
    exact onward (standing_of_walk hx hw hk)
  cases pc with
  | sitUse u =>
      dsimp only [segment]
      split
      · exact onward rfl
      · exact seating_of_users rfl (by simp)
  | sitRecord u =>
      dsimp only [segment]
      split
      · exact seating_of_users rfl (by simp [deskCostBackup, Pc.standing, Pc.walk?])
      · exact seating_of_users rfl (by simp)
  | sitCost u c => exact ends u
  | backRecord w c => exact onward rfl
  | backAdd w c => exact onward rfl
  | backQuery w c =>
      dsimp only [segment]
      split
      · exact onward rfl
      · exact walks rfl
  | backPush w c =>
      dsimp only [segment]
      split
      · exact seating_of_users rfl (by simp)
      · exact walks rfl
  | backSave w =>
      refine (effect_afterBack (W := False) (S := fun _ => False) (G := False)
        (U := ∃ u k, w.k = .standup u k) (replaceCosts d w.costs) w.k
        fun u k hk => ⟨u, k, hk⟩).seating (by rfl) False.elim ?_
      rintro ⟨u, k, hk⟩
      exact Or.inr ⟨.backSave w, by simp [Job.pcs], by simp [Pc.standing, Pc.walk?, hk]⟩
  | sitAdd u seat => simp [Pc.sitting?] at hsit
  | _ => simp [Pc.plain] at hplain

theorem started_executed (d : Desk) (inp : Inp) (pc : Pc) :
    (executed d inp pc).started = d.started := by
  unfold executed
  split <;> rfl

theorem users_called (d : Desk) (inp : Inp) (j : Job) : (j.called d inp).users = d.users := by
  cases j with
  | req r => rfl
  | cmd u c => rfl
  | seg pc =>
      dsimp only [Job.called, executed]
      split <;> rfl

/-- **Work other than `new_desk` takes seats away only where `Halieutics.Stands` says so.** -/
theorem seating_job (d : Desk) (inp : Inp) {j : Job} (hj : pending j.pcs = [])
    (hnew : ∀ pc ∈ j.pcs, pc.newDesk = false) : Seating d j (j.out d inp) := by
  by_cases hplain : ∀ pc ∈ j.pcs, pc.plain = true
  · refine (effect_job d inp hplain).seating (users_called d inp j) ?_ Or.inl
    rintro (hp | ⟨pc, rfl, hf⟩)
    · exact Or.inl (started_of_paysBack hp)
    · have := hnew pc (by simp [Job.pcs])
      cases pc <;> simp_all [Pc.newDesk, failsEarly]
  · cases j with
    | req r => simp [Job.pcs] at hplain
    | cmd u c => simp [Job.pcs] at hplain
    | seg pc =>
        have hs := seating_segment (executed d inp pc) inp (by simpa [Job.pcs] using hplain)
          (List.filterMap_eq_nil_iff.1 hj pc (by simp [Job.pcs]))
        have hstands : ∀ {j : Job}, Stands (executed d inp pc) j → Stands d j := by
          intro j hst
          rwa [Stands, started_executed] at hst
        have hu : (executed d inp pc).users = d.users := users_called d inp (.seg pc)
        refine ⟨?_, fun pc' hm hp => hstands (hs.walks pc' hm hp)⟩
        rw [← hu]
        refine hs.users.imp_right ?_
        rintro ⟨hst, seat, h⟩
        exact ⟨hstands hst, seat, h⟩

/-! ### Trading scores -/

/-- **What the handlers and the timers of the game do to the scores**: the sum stays, and without a
game nothing happens. -/
structure Trades (d d' : Desk) : Prop where
  users : d'.users = d.users
  total : d'.total = d.total
  game : d'.game.isSome = d.game.isSome
  ends : d'.hist.filter Act.over = d.hist.filter Act.over
  idle : d.game = none → ∀ u, (d'.objs u).game = (d.objs u).game

theorem none_of_isSome_eq {α : Type} {a b : Option α} (h : a.isSome = b.isSome) (ha : a = none) :
    b = none := by
  rw [ha] at h
  exact Option.isNone_iff_eq_none.1 (by simpa using h.symm)

theorem total_congr {d d' : Desk} (hu : d'.users = d.users)
    (ho : ∀ u, (d'.objs u).game = (d.objs u).game) : d'.total = d.total := by
  have hs : d'.score = d.score := by
    funext u
    rw [Desk.score, Desk.score, ho]
  rw [Desk.total, Desk.total, hu, hs]

theorem trades_of_objs {d d' : Desk} (hu : d'.users = d.users) (ho : d'.objs = d.objs)
    (hg : d'.game.isSome = d.game.isSome)
    (hh : d'.hist.filter Act.over = d.hist.filter Act.over) : Trades d d' :=
  ⟨hu, total_congr hu fun u => by rw [ho], hg, hh, fun _ u => by rw [ho]⟩

theorem Trades.refl (d : Desk) : Trades d d := trades_of_objs rfl rfl rfl rfl

theorem Trades.trans {d d' d'' : Desk} (h : Trades d d') (h' : Trades d' d'') : Trades d d'' where
  users := h'.users.trans h.users
  total := h'.total.trans h.total
  game := h'.game.trans h.game
  ends := h'.ends.trans h.ends
  idle := by
    intro hd u
    exact (h'.idle (none_of_isSome_eq h.game.symm hd) u).trans (h.idle hd u)

theorem trades_withRoles {d : Desk} {g : Game} (hg : d.game = some g) (r : Roles) :
    Trades d (d.withRoles g r) :=
  trades_of_objs rfl rfl (by simp [Desk.withRoles, hg]) rfl

section Trading

variable {d : Desk} {l : List Pc} (hn : (vals d.users).Nodup) (hs : Scored d l)

include hn hs

theorem trades_calc (hg : d.game.isSome = true) (me banker score : ℤ) :
    Trades d (calcFishscoreAll d me banker score).1 := by
  have htotal := total_calc hn hs me banker score
  obtain ⟨objs, hcalc⟩ := calc_frame d me banker score
  rw [hcalc] at htotal ⊢
  exact ⟨rfl, htotal, rfl, rfl, fun hd => by simp [hd] at hg⟩

theorem trades_userfire (u : Ref) (kind : Option ℤ) (inp : Inp) :
    Trades d (userfire d u kind inp).d := by
  rcases userfire_cases d u kind inp with ⟨r, h⟩ | ⟨g, k, m, -, -, hg, -, hcases⟩
  · rw [h]; exact .refl d
  · have hgame := (game_of_mygame hg).1
    have hcalc := trades_calc hn hs (by simp [hgame]) (d.objs u).seat d.banker (-m)
    rcases hcases with ⟨r, h⟩ | ⟨roles, -, -, h⟩
    · rw [h]; exact hcalc
    · obtain ⟨objs, hframe⟩ := calc_frame d (d.objs u).seat d.banker (-m)
      have hg' : (calcFishscoreAll d (d.objs u).seat d.banker (-m)).1.game = some g := by
        rw [hframe, hgame]
      rw [h]
      exact (hcalc.trans (trades_withRoles hg' _)).trans (trades_of_objs rfl rfl rfl rfl)

theorem trades_catchPay (c : Catch) : Trades d (catchPay d c).d := by
  rcases catchPay_cases d c with ⟨-, r, h⟩ | ⟨g, _, r', hg, -, -, ⟨-, r, h⟩ | ⟨-, b, r, h⟩⟩
  · rw [h]; exact .refl d
  · rw [h]; exact trades_withRoles hg _
  · rw [h]
    have hcalc := trades_calc (d := d.withRoles g r') hn hs rfl c.seat d.banker c.score
    exact ((trades_withRoles hg r').trans hcalc).trans (trades_of_objs rfl rfl rfl rfl)

theorem trades_sweepPay (hg : d.game.isSome = true) (seat : ℤ) (score : ℕ) :
    Trades d (sweepPay d seat score).d := by
  obtain ⟨r, h⟩ := sweepPay_cases d seat score
  rw [h]
  exact trades_calc hn hs hg _ _ _

theorem trades_fishSegment (hg : d.game.isSome = true) (inp : Inp) (pc : FishPc) :
    Trades d (fishSegment d inp pc).d := by
  cases pc with
  | stock c =>
      rcases catchStock_cases d c inp with ⟨r, h⟩ | ⟨c', h⟩ | ⟨c', h⟩ | ⟨c', h⟩
      · rw [fishSegment, h]; exact .refl d
      · rw [fishSegment, h]; exact .refl d
      · rw [fishSegment, h]; exact .refl d
      · rw [fishSegment, h]; exact trades_catchPay hn hs c'
  | miss c => exact .refl d
  | pay c => exact trades_catchPay hn hs c
  | sweep seat score => exact trades_sweepPay hn hs hg seat score

theorem trades_catchsweepfish (u : Ref) (req : SweepReq) (inp : Inp) :
    Trades d (catchsweepfish d u req inp).d := by
  rcases catchsweepfish_cases d u req inp with
    ⟨r, h⟩ | ⟨g, _, r', score, hg, -, -, ⟨r, h⟩ | h | h⟩
  · rw [h]; exact .refl d
  · rw [h]; exact trades_withRoles (game_of_mygame hg).1 _
  · rw [h]
    refine (trades_withRoles (game_of_mygame hg).1 r').trans ?_
    exact trades_sweepPay (d := d.withRoles g r') hn hs rfl req.seatId score
  · rw [h]; exact trades_withRoles (game_of_mygame hg).1 _

end Trading

theorem trades_catchfish (d : Desk) (u : Ref) (req : CatchReq) (inp : Inp) :
    Trades d (catchfish d u req inp).d := by
  rcases catchfish_cases d u req inp with ⟨r, h⟩ | ⟨g, _, _, b, hg, -, -, ⟨r, h⟩ | ⟨f, fc, h⟩⟩
  · rw [h]; exact .refl d
  · rw [h]
    exact (trades_withRoles (game_of_mygame hg).1 _).trans (trades_of_objs rfl rfl rfl rfl)
  · rw [h]
    exact (trades_withRoles (game_of_mygame hg).1 _).trans (trades_of_objs rfl rfl rfl rfl)

theorem trades_onTimer (d : Desk) (f : Roles → Roles) : Trades d (onTimer d f).d := by
  unfold onTimer
  split
  · exact .refl d
  · rename_i g hg
    split
    · exact trades_of_objs rfl rfl (by simp [hg]) rfl
    · exact .refl d

theorem trades_executed (d : Desk) (inp : Inp) (pc : Pc) : Trades d (executed d inp pc) := by
  unfold executed
  split
  · exact .refl d
  · exact trades_of_objs rfl rfl rfl rfl

/-- **The handlers and the timers trade.** -/
theorem trades_plays {d : Desk} {l : List Pc} {inp : Inp} {j : Job} {o : Out}
    (hn : (vals d.users).Nodup) (hs : Scored d l) (hj : ∀ pc ∈ j.pcs, pc.newDesk = false)
    (hg : ∀ pc ∈ j.pcs, pc.catching = true → d.game.isSome = true) (h : Plays d inp j o) :
    Trades d o.d := by
  cases h with
  | fire _ => rw [d_fish]; exact trades_userfire hn hs _ _ _
  | hit _ => rw [d_fish]; exact trades_catchfish d _ _ _
  | sweep _ => rw [d_fish]; exact trades_catchsweepfish hn hs _ _ _
  | @segment pc =>
      rw [d_fish]
      have he := trades_executed d inp (.fish pc)
      refine he.trans (trades_fishSegment (l := l) (by rw [he.users]; exact hn)
        (scored_executed inp _ hs) ?_ inp pc)
      rw [he.game]
      exact hg (.fish pc) (by simp [Job.pcs]) rfl
  | timer _ => exact trades_onTimer d _
  | @newDesk pc hnew =>
      have hno := hj pc (by simp [Job.pcs])
      rw [hnew] at hno
      simp at hno

/-! ### Starting a game -/

/-- While there is a game, the desk counts as started. -/
def Begun (d : Desk) : Prop := d.game.isSome = true → d.isstart = true ∧ 1 ≤ d.count

/-- What the end of a segment of `new_desk` leaves alone. -/
structure Carries (d d' : Desk) : Prop where
  game : d'.game.isSome = d.game.isSome
  isstart : d'.isstart = d.isstart
  count : d'.count = d.count

theorem Carries.after {d e d' : Desk} (h' : Carries e d') (h : Carries d e) : Carries d d' :=
  ⟨h'.game.trans h.game, h'.isstart.trans h.isstart, h'.count.trans h.count⟩

theorem carries_force (d : Desk) : Carries d (force d) := by
  rcases force_cases d with h | ⟨g, hg, h⟩
  · rw [h]; exact ⟨rfl, rfl, rfl⟩
  · rw [h]; exact ⟨by simp [(game_of_mygame hg).1], rfl, rfl⟩

theorem carries_freeDesk (d : Desk) (r : Ret) : Carries d (freeDesk d r).d := by
  unfold freeDesk freeLoop
  repeat' split
  all_goals exact ⟨rfl, rfl, rfl⟩

theorem Failed.carries {d : Desk} {o : Out} (h : Failed d o) : Carries d o.d := by
  cases h with
  | raise r => exact ⟨rfl, rfl, rfl⟩
  | forced r => exact carries_force d
  | gameover scores _ => exact Carries.after (e := force d) ⟨rfl, rfl, rfl⟩ (carries_force d)
  | free => exact carries_freeDesk d _
  | back _ _ => rw [startWalk_d]; exact ⟨rfl, rfl, rfl⟩

theorem carries_sleepOn (d : Desk) (st : St) (pc : Pc) : Carries d (sleepOn d st pc).d := by
  rcases sleepOn_cases d st pc with ⟨-, h⟩ | ⟨-, h⟩
  · rw [h]; exact ⟨rfl, rfl, rfl⟩
  · rw [h]; exact (failed_unhandled d).carries

/-- Most segments of `new_desk` neither make nor start a game. -/
theorem carries_segment (d : Desk) (inp : Inp) {pc : Pc} (hnew : pc.newDesk = true)
    (hready : pc ≠ .ready) (hstart : pc ≠ .start) (hres : pc.result? = none) :
    Carries d (segment d inp pc).d := by
  cases pc with
  | monitor => exact carries_sleepOn d .ready .ready
  | config =>
      refine (carries_sleepOn _ .banker .banker).after ?_
      exact ⟨by cases d.game <;> rfl, rfl, rfl⟩
  | banker =>
      dsimp only [segment]
      split
      · exact (failed_unhandled _).carries.after ⟨rfl, rfl, rfl⟩
      · rename_i d' hd'
        simp only [determinBanker, Option.map_eq_some_iff] at hd'
        obtain ⟨seat, -, rfl⟩ := hd'
        exact (carries_sleepOn _ .gamerun .gamerun).after ⟨rfl, rfl, rfl⟩
  | gamerun =>
      dsimp only [segment, gameRun]
      split
      · exact (failed_unhandled _).carries.after ⟨rfl, rfl, rfl⟩
      · rename_i g hg
        split
        · exact (failed_unhandled _).carries.after ⟨rfl, rfl, rfl⟩
        · have hgame : d.game = some g := (game_of_mygame hg).1
          exact ⟨by simp [hgame], rfl, rfl⟩
  | gameend =>
      dsimp only [segment, gameStop]
      split
      · exact (failed_unhandled _).carries.after ⟨by cases d.game <;> rfl, rfl, rfl⟩
      · rename_i g hg
        have hgame : d.game.isSome = true := by
          obtain ⟨g₀, hg₀, -⟩ := Option.map_eq_some_iff.1 hg
          simp [hg₀]
        split
        · exact (failed_unhandled _).carries.after ⟨by simp [hgame], rfl, rfl⟩
        · exact ⟨by simp [Desk.mark, hgame], rfl, rfl⟩
  | ready => exact absurd rfl hready
  | start => exact absurd rfl hstart
  | result scores => simp [Pc.result?] at hres
  | resultErr scores => simp [Pc.result?] at hres
  | _ => simp [Pc.newDesk] at hnew

/-- Once the result is saved, `new_desk` ends. -/
theorem result_segment (d : Desk) (inp : Inp) {pc : Pc} (hres : pc.result? ≠ none) :
    (segment d inp pc).d.game.isSome = d.game.isSome ∧
      ∀ pc' ∈ (segment d inp pc).pcs, pc'.newDesk = false := by
  have frees : ∀ d : Desk, (freeDesk d .nil).d.game.isSome = d.game.isSome ∧
      ∀ pc' ∈ (freeDesk d .nil).pcs, pc'.newDesk = false := by
    intro d
    obtain ⟨d', pc', h, hpc', -⟩ := freeDesk_cases d .nil
    refine ⟨(carries_freeDesk d .nil).game, ?_⟩
    rw [h]
    simpa using newDesk_of_freeing hpc'
  have fails : ∀ d : Desk, (afterError d).d.game.isSome = d.game.isSome ∧
      ∀ pc' ∈ (afterError d).pcs, pc'.newDesk = false := by
    intro d
    unfold afterError
    split
    · rcases backRoomcard_cases d none (.free .nil) with h | ⟨-, h⟩
      · rw [h]; exact frees d
      · obtain ⟨pc', w, st, hw, hpc', -⟩ := startWalk_cases d none (.free .nil)
        rw [h, hw]
        exact ⟨rfl, by simpa using newDesk_of_walk hpc'⟩
    · exact frees d
  cases pc with
  | result scores =>
      dsimp only [segment, deskEnd]
      split
      · exact frees _
      · exact fails _
  | resultErr scores => exact fails d
  | _ => simp [Pc.result?] at hres

/-- **`new_desk` drops no game.** -/
theorem game_segment (d : Desk) (inp : Inp) {pc : Pc} (hnew : pc.newDesk = true)
    (hg : d.game.isSome = true) : (segment d inp pc).d.game.isSome = true := by
  by_cases hready : pc = .ready
  · subst hready
    dsimp only [segment, doGame, gameInit]
    split
    · split
      · rfl
      · exact hg
    · rw [(carries_sleepOn _ .banker .banker).game]
      exact hg
  · by_cases hstart : pc = .start
    · subst hstart
      rfl
    · by_cases hres : pc.result? = none
      · rw [(carries_segment d inp hnew hready hstart hres).game, hg]
      · rw [(result_segment d inp hres).1, hg]

/-- **`new_desk` makes a game only when it counts as started.** -/
theorem begun_segment (d : Desk) (inp : Inp) {pc : Pc} (hnew : pc.newDesk = true)
    (hres : pc.result? = none) (ht : pc.timely d) (hb : Begun d) : Begun (segment d inp pc).d := by
  by_cases hready : pc = .ready
  · subst hready
    have hcount : d.count = 0 := ht
    dsimp only [segment, doGame, gameInit]
    split
    · split
      · exact fun _ => ⟨by assumption, Nat.le_add_left 1 _⟩
      · intro hg
        obtain ⟨-, hc⟩ := hb hg
        omega
    · rename_i hne
      exact absurd (congrArg (· + 1) hcount) hne
  · by_cases hstart : pc = .start
    · subst hstart
      exact fun _ => ⟨rfl, ht rfl⟩
    · have hc := carries_segment d inp hnew hready hstart hres
      intro hg
      rw [hc.isstart, hc.count]
      exact hb (hc.game ▸ hg)

/-! ### The invariant -/

/-- **The scores are fair**: they sum to zero, nobody has scored without a game or while somebody
is standing up, and whoever is about to sit down has not scored. -/
structure Fair (d : Desk) (l : List Pc) : Prop where
  total : d.total = 0
  begun : Begun d
  level : d.game = none → d.level
  standing : ∀ pc ∈ l, pc.standing = true → d.level
  pending : ∀ p ∈ pending l, (d.objs p.1).game = some 0

/-- **The scores are fair until `gameover`**, which collects them. -/
structure SumInv (d : Desk) (l : List Pc) : Prop where
  playing : ∀ pc ∈ l, pc.catching = true → d.game.isSome = true
  result : ∀ pc ∈ l, ∀ scores, pc.result? = some scores → scores.sum = 0
  ended : ∀ pc ∈ l, pc.result? ≠ none → .mark .gameover ∈ d.hist
  goes : ∀ pc ∈ l, pc.newDesk = true → pc.result? = none → .mark .gameover ∉ d.hist
  fair : .mark .gameover ∉ d.hist → Fair d l

/-- `gameover` is in the history when it is among the entries that say so. -/
theorem gameover_congr {d d' : Desk} (h : d'.hist.filter Act.over = d.hist.filter Act.over) :
    .mark .gameover ∈ d'.hist ↔ .mark .gameover ∈ d.hist := by
  have key : ∀ hist : List Act, .mark .gameover ∈ hist.filter Act.over ↔
    .mark .gameover ∈ hist := by
    intro hist
    simp [List.mem_filter, Act.over]
  rw [← key, h, key]

theorem gameover_mem {hist acts : List Act} (h : hist.filter Act.over = .mark .gameover :: acts) :
    .mark .gameover ∈ hist := by
  have hm : .mark .gameover ∈ hist.filter Act.over := by rw [h]; exact List.mem_cons_self
  exact (List.mem_filter.1 hm).1

theorem Stands.level {d : Desk} {rest : List Pc} {j : Job} (h : Fair d (j.pcs ++ rest))
    (hst : Stands d j) : d.level := by
  rcases hst with hno | ⟨pc, hm, hpc⟩
  · cases hg : d.game with
    | none => exact h.level hg
    | some g =>
        obtain ⟨hstart, hcount⟩ := h.begun (by simp [hg])
        simp [Desk.started, hstart, hcount] at hno
  · exact h.standing pc (List.mem_append_left _ hm) hpc

/-- Nobody who is seated has scored, when nobody scores and nobody comes with a score. -/
theorem level_mono {d d' : Desk}
    (hu : ∀ u ∈ vals d'.users, u ∈ vals d.users ∨ (d'.objs u).game = some 0)
    (hz : ∀ u ∈ vals d.users, (d'.objs u).game = (d.objs u).game ∨ (d'.objs u).game = some 0)
    (h : d.level) : d'.level := by
  intro u hm
  rcases hu u hm with hm | h0
  · rcases hz u hm with he | h0
    · rw [he, h u hm]
    · exact h0
  · exact h0

theorem serving_of_standing {pc : Pc} (h : pc.standing = true) : pc.serving = true := by
  cases pc <;> first | rfl | simp [Pc.standing, Pc.walk?] at h

theorem serving_of_catching {pc : Pc} (h : pc.catching = true) : pc.serving = true := by
  cases pc <;> first | rfl | simp [Pc.catching] at h

theorem sitting?_of_not_serving {pc : Pc} (h : pc.serving = false) : pc.sitting? = none := by
  cases pc <;> first | rfl | simp [Pc.serving, Pc.background, Pc.freeing] at h

theorem result?_of_not_newDesk {pc : Pc} (h : pc.newDesk = false) : pc.result? = none := by
  cases pc <;> first | rfl | simp [Pc.newDesk] at h

theorem pending_of_not_serving {l : List Pc} (h : ∀ pc ∈ l, pc.serving = false) : pending l = [] :=
  List.filterMap_eq_nil_iff.2 fun pc hpc => sitting?_of_not_serving (h pc hpc)

/-- The scores stay fair when the seated users keep their scores. -/
theorem Fair.same {d d' : Desk} {l l' : List Pc} (hs : SameScores d d')
    (hb : Begun d') (hg : d'.game = none → d.game = none)
    (hst : ∀ pc ∈ l', pc.standing = true → pc ∈ l)
    (hp : Halieutics.pending l' = Halieutics.pending l)
    (h : Fair d l) : Fair d' l' := by
  have hlevel : d.level → d'.level :=
    level_mono (fun u hu => Or.inl (hs.users ▸ hu)) fun u _ => Or.inl (hs.scores u)
  refine ⟨?_, hb, fun hd => hlevel (h.level (hg hd)), ?_, ?_⟩
  · rw [total_congr hs.users hs.scores, h.total]
  · exact fun pc hm hpc => hlevel (h.standing pc (hst pc hm hpc) hpc)
  · intro p hm
    rw [hs.scores, h.pending p (hp ▸ hm)]

/-- Nothing is left of a request that background work leaves behind. -/
theorem background_pcs {l : List Pc} (rest : List Pc) (h : ∀ pc ∈ l, pc.serving = false) :
    (∀ pc ∈ l ++ rest, pc.standing = true → pc ∈ rest) ∧ pending (l ++ rest) = pending rest := by
  refine ⟨?_, by rw [pending_append, pending_of_not_serving h, List.nil_append]⟩
  intro pc hm hst
  rcases List.mem_append.1 hm with hm | hm
  · exact absurd (serving_of_standing hst) (by simp [h pc hm])
  · exact hm

section Job

variable {d : Desk} {rest : List Pc} {inp : Inp}

/-- **`new_desk` keeps the scores fair**, and what `gameover` collects sums to zero. -/
theorem SumInv.newDesk {pc : Pc} (hone : OneNewDesk d (pc :: rest)) (hnew : pc.newDesk = true)
    (h : SumInv d (pc :: rest)) :
    SumInv (Job.out d inp (.seg pc)).d ((Job.out d inp (.seg pc)).pcs ++ rest) := by
  have ht := hone.timely pc List.mem_cons_self
  have he := trades_executed d inp pc
  have hes : SameScores d (executed d inp pc) := ⟨he.users, fun u => by rw [objs_executed]⟩
  have hkeeps := (keeps_segment (executed d inp pc) inp hnew).of_same hes he.ends
  have hserve : ∀ pc' ∈ (Job.out d inp (.seg pc)).pcs, pc'.serving = false :=
    serving_job d inp (j := .seg pc) (by simpa [Job.pcs] using ht) (serving_of_newDesk hnew)
  obtain ⟨hstanding, hpending⟩ := background_pcs rest hserve
  have htimely : pc.timely (executed d inp pc) :=
    timely_congr (executed_life d inp pc).1 (executed_life d inp pc).2.2 ht
  have hbegun : pc.result? = none → Begun d → Begun (Job.out d inp (.seg pc)).d := by
    intro hres hb
    refine begun_segment (executed d inp pc) inp hnew hres htimely ?_
    have hl := executed_life d inp pc
    intro hg
    rw [show (executed d inp pc).isstart = d.isstart from hl.2.1,
      show (executed d inp pc).count = d.count from hl.1]
    exact hb (he.game ▸ hg)
  have hgame : d.game.isSome = true → (Job.out d inp (.seg pc)).d.game.isSome = true := fun hg =>
    game_segment (executed d inp pc) inp hnew (he.game.trans hg)
  have hplaying : ∀ pc' ∈ (Job.out d inp (.seg pc)).pcs ++ rest, pc'.catching = true →
      (Job.out d inp (.seg pc)).d.game.isSome = true := by
    intro pc' hm hc
    rcases List.mem_append.1 hm with hm | hm
    · exact absurd (serving_of_catching hc) (by simp [hserve pc' hm])
    · exact hgame (h.playing pc' (List.mem_cons_of_mem _ hm) hc)
  have hrest : ∀ pc' ∈ rest, pc'.newDesk = false := hone.others hnew
  have hresult : ∀ pc' ∈ rest, pc'.result? = none := fun pc' hm =>
    result?_of_not_newDesk (hrest pc' hm)
  have hnone : pc.sitting? = none := sitting?_of_not_serving (serving_of_newDesk hnew)
  by_cases hres : pc.result? = none
  · have hgoes := h.goes pc List.mem_cons_self hnew hres
    have hfair := h.fair hgoes
    cases hkeeps with
    | goes hsame hover hpcs =>
        have hno : ∀ pc' ∈ (Job.out d inp (.seg pc)).pcs ++ rest, pc'.result? = none := by
          intro pc' hm
          rcases List.mem_append.1 hm with hm | hm
          · exact hpcs pc' hm
          · exact hresult pc' hm
        refine ⟨hplaying, ?_, ?_, ?_, ?_⟩
        · intro pc' hm scores hs
          simp [hno pc' hm] at hs
        · exact fun pc' hm hs => absurd (hno pc' hm) hs
        · exact fun _ _ _ _ hm => hgoes ((gameover_congr hover).1 hm)
        · intro _
          refine hfair.same hsame (hbegun hres hfair.begun) ?_ ?_ ?_
          · intro hg
            by_contra hd
            have := hgame (Option.isSome_iff_ne_none.2 hd)
            rw [show (Job.out d inp (.seg pc)).d.game = none from hg] at this
            simp at this
          · exact fun pc' hm hst => List.mem_cons_of_mem _ (hstanding pc' hm hst)
          · exact hpending.trans (List.filterMap_cons_none hnone).symm
    | @ended scores hsame hscores hover hpcs =>
        have hmem : .mark .gameover ∈ (Job.out d inp (.seg pc)).d.hist := gameover_mem hover
        refine ⟨hplaying, ?_, fun _ _ _ => hmem, ?_, fun hno => absurd hmem hno⟩
        · intro pc' hm scores' hs
          rcases List.mem_append.1 hm with hm | hm
          · obtain rfl := Option.some_inj.1 ((hpcs pc' hm).symm.trans hs)
            rw [sum_of_scores hscores, hfair.total]
          · simp [hresult pc' hm] at hs
        · intro pc' hm hn hs
          rcases List.mem_append.1 hm with hm | hm
          · simp [hpcs pc' hm] at hs
          · simp [hrest pc' hm] at hn
  · -- the result is saved: `new_desk` is over
    have hmem : .mark .gameover ∈ (Job.out d inp (.seg pc)).d.hist := by
      have hd := h.ended pc List.mem_cons_self hres
      cases hkeeps with
      | goes _ hover _ => exact (gameover_congr hover).2 hd
      | ended _ _ hover _ => exact gameover_mem hover
    have hno : ∀ pc' ∈ (Job.out d inp (.seg pc)).pcs ++ rest, pc'.newDesk = false := by
      intro pc' hm
      rcases List.mem_append.1 hm with hm | hm
      · exact (result_segment (executed d inp pc) inp hres).2 pc' hm
      · exact hrest pc' hm
    refine ⟨hplaying, ?_, fun _ _ _ => hmem, ?_, fun hn => absurd hmem hn⟩
    · intro pc' hm scores hs
      simp [result?_of_not_newDesk (hno pc' hm)] at hs
    · intro pc' hm hn _
      simp [hno pc' hm] at hn

/-- Work other than `new_desk` only has to keep the scores fair. -/
theorem SumInv.of_fair {l : List Pc} {o : Out} (hg : o.d.game.isSome = d.game.isSome)
    (hends : o.d.hist.filter Act.over = d.hist.filter Act.over)
    (hnew : ∀ pc ∈ o.pcs, pc.newDesk = false)
    (hcatch : ∀ pc ∈ o.pcs, pc.catching = true → d.game.isSome = true)
    (hfair : Fair d (l ++ rest) → Fair o.d (o.pcs ++ rest)) (h : SumInv d (l ++ rest)) :
    SumInv o.d (o.pcs ++ rest) := by
  have hresult : ∀ pc ∈ o.pcs, pc.result? = none := fun pc hm => result?_of_not_newDesk (hnew pc hm)
  refine ⟨?_, ?_, ?_, ?_, ?_⟩
  · intro pc hm hc
    rw [hg]
    rcases List.mem_append.1 hm with hm | hm
    · exact hcatch pc hm hc
    · exact h.playing pc (List.mem_append_right _ hm) hc
  · intro pc hm scores hr
    rcases List.mem_append.1 hm with hm | hm
    · simp [hresult pc hm] at hr
    · exact h.result pc (List.mem_append_right _ hm) scores hr
  · intro pc hm hr
    rcases List.mem_append.1 hm with hm | hm
    · exact absurd (hresult pc hm) hr
    · exact (gameover_congr hends).2 (h.ended pc (List.mem_append_right _ hm) hr)
  · intro pc hm hn hr hover
    rcases List.mem_append.1 hm with hm | hm
    · simp [hnew pc hm] at hn
    · exact h.goes pc (List.mem_append_right _ hm) hn hr ((gameover_congr hends).1 hover)
  · exact fun hover => hfair (h.fair fun hm => hover ((gameover_congr hends).2 hm))

/-- A timer. -/
theorem SumInv.timer {f : Roles → Roles} (h : SumInv d rest) :
    SumInv (onTimer d f).d ((onTimer d f).pcs ++ rest) := by
  have htr := trades_onTimer d f
  have hpcs : (onTimer d f).pcs = [] := by
    unfold onTimer
    repeat' split
    all_goals rfl
  have hlife : (onTimer d f).d.isstart = d.isstart ∧ (onTimer d f).d.count = d.count := by
    unfold onTimer
    repeat' split
    all_goals exact ⟨rfl, rfl⟩
  refine SumInv.of_fair (l := []) htr.game htr.ends (by simp [hpcs]) (by simp [hpcs]) ?_ h
  rw [hpcs]
  intro hfair
  refine hfair.same ⟨htr.users, fun u => by rw [objs_onTimer]⟩ ?_ ?_ (fun pc hm _ => hm) rfl
  · intro hg
    rw [hlife.1, hlife.2]
    exact hfair.begun (htr.game ▸ hg)
  · exact none_of_isSome_eq htr.game

/-- A handler suspends itself inside the game only. -/
theorem pcs_plays {j : Job} {o : Out} (hj : ∀ pc ∈ j.pcs, pc.newDesk = false)
    (hg : ∀ pc ∈ j.pcs, pc.catching = true → d.game.isSome = true) (h : Plays d inp j o) :
    ∀ pc ∈ o.pcs, pc.catching = true ∧ d.game.isSome = true := by
  have waits : ∀ {d' : Desk} {fpc : FishPc}, d.game.isSome = true →
      ∀ pc ∈ (Out.fish (.wait d' fpc)).pcs, pc.catching = true ∧ d.game.isSome = true := by
    intro d' fpc hd pc hm
    obtain rfl : pc = .fish fpc := by simpa [Out.fish] using hm
    exact ⟨rfl, hd⟩
  cases h with
  | @fire _ u kind _ =>
      rcases userfire_cases d u kind inp with
        ⟨r, h⟩ | ⟨g, k, m, -, -, -, -, ⟨r, h⟩ | ⟨roles, -, -, h⟩⟩
      · rw [h]; simp [Out.fish]
      · rw [h]; simp [Out.fish]
      · rw [h]; simp [Out.fish]
  | @hit _ u req _ =>
      rcases catchfish_cases d u req inp with ⟨r, h⟩ | ⟨g, _, _, b, hg, -, -, ⟨r, h⟩ | ⟨f, fc, h⟩⟩
      · rw [h]; simp [Out.fish]
      · rw [h]; simp [Out.fish]
      · rw [h]; exact waits (by simp [(game_of_mygame hg).1])
  | @sweep _ u req _ =>
      rcases catchsweepfish_cases d u req inp with
        ⟨r, h⟩ | ⟨g, _, r', score, hg, -, -, ⟨r, h⟩ | h | h⟩
      · rw [h]; simp [Out.fish]
      · rw [h]; simp [Out.fish]
      · obtain ⟨r, h'⟩ := sweepPay_cases (d.withRoles g r') req.seatId score
        rw [h, h']; simp [Out.fish]
      · rw [h]; exact waits (by simp [(game_of_mygame hg).1])
  | @segment fpc =>
      have hd := hg (.fish fpc) (by simp [Job.pcs]) rfl
      cases ho : fishSegment (executed d inp (.fish fpc)) inp fpc with
      | ret d' r => simp [Out.fish]
      | wait d' fpc' => exact waits hd
  | timer _ =>
      unfold onTimer
      repeat' split
      all_goals simp
  | @newDesk pc hnew =>
      have hno := hj pc (by simp [Job.pcs])
      rw [hnew] at hno
      simp at hno

/-- **The handlers of the game keep the scores fair**: whoever plays is alone. -/
theorem SumInv.plays {j : Job} {l : List Pc} (hj : ∀ pc ∈ j.pcs, pc.newDesk = false)
    (hplays : j.plays d = true) (hn : (vals d.users).Nodup) (hs : Scored d l)
    (hrest : ∀ pc ∈ rest, pc.serving = false) (h : SumInv d (j.pcs ++ rest)) :
    SumInv (j.out d inp).d ((j.out d inp).pcs ++ rest) := by
  have hcatch : ∀ pc ∈ j.pcs, pc.catching = true → d.game.isSome = true := fun pc hm =>
    h.playing pc (List.mem_append_left _ hm)
  have hp := job_plays d inp hplays
  have htr := trades_plays hn hs hj hcatch hp
  have hpcs := pcs_plays hj hcatch hp
  have hsteady := steady_job d inp hj
  have hno : ∀ pc ∈ (j.out d inp).pcs ++ rest, pc.standing = false := by
    intro pc hm
    rcases List.mem_append.1 hm with hm | hm
    · have := (hpcs pc hm).1
      cases pc <;> first | rfl | simp [Pc.catching] at this
    · cases hst : pc.standing with
      | false => rfl
      | true => exact absurd (serving_of_standing hst) (by simp [hrest pc hm])
  have hpending : pending ((j.out d inp).pcs ++ rest) = [] := by
    refine List.filterMap_eq_nil_iff.2 fun pc hm => ?_
    rcases List.mem_append.1 hm with hm | hm
    · have := (hpcs pc hm).1
      cases pc <;> first | rfl | simp [Pc.catching] at this
    · exact sitting?_of_not_serving (hrest pc hm)
  refine SumInv.of_fair htr.game htr.ends hsteady.pcs (fun pc hm _ => (hpcs pc hm).2) ?_ h
  intro hfair
  refine ⟨by rw [htr.total, hfair.total], ?_, ?_, ?_, by simp [hpending]⟩
  · intro hg
    rw [show (j.out d inp).d.isstart = d.isstart from hsteady.isstart,
      show (j.out d inp).d.count = d.count from hsteady.count]
    exact hfair.begun (htr.game ▸ hg)
  · intro hg
    have hd := none_of_isSome_eq htr.game hg
    refine level_mono (fun u hu => Or.inl (htr.users ▸ hu)) (fun u _ => Or.inl ?_) (hfair.level hd)
    exact htr.idle hd u
  · exact fun pc hm hst => absurd hst (by simp [hno pc hm])

/-- A user who has just been assigned a seat is not seated yet. -/
theorem not_seated_of_pending {d : Desk} {l : List Pc} (h : SeatBase d l) {u : Ref} {seat : ℤ}
    (hm : (u, seat) ∈ pending l) : u ∉ vals d.users := fun hu =>
  (List.disjoint_of_nodup_append h.occupants_nodup) hu (List.mem_map.2 ⟨_, hm, rfl⟩)

/-- The seat that is pending is not taken. -/
theorem lookup_of_pending {d : Desk} {l : List Pc} (h : SeatBase d l) {u : Ref} {seat : ℤ}
    (hm : (u, seat) ∈ pending l) : d.users.lookup seat = none := by
  have hnodup := (List.nodup_append.1 h.nodup).2.1
  by_contra hk
  obtain ⟨v, hv⟩ := Option.ne_none_iff_exists'.1 hk
  have hkey : seat ∈ d.users.keys := lookup_isSome_iff_mem_keys.1 (by simp [hv])
  exact (List.disjoint_of_nodup_append hnodup) hkey (List.mem_map.2 ⟨_, hm, rfl⟩)

/-- **Work that does not play keeps the scores fair**: whoever gives a seat back has not scored, and
neither has anybody who takes one. -/
theorem SumInv.quiet {j : Job} (hj : ∀ pc ∈ j.pcs, pc.newDesk = false) (hplays : j.plays d = false)
    (hs : Scored d (j.pcs ++ rest)) (hb : SeatBase d (j.pcs ++ rest))
    (hb' : SeatBase (j.out d inp).d ((j.out d inp).pcs ++ rest)) (h : SumInv d (j.pcs ++ rest)) :
    SumInv (j.out d inp).d ((j.out d inp).pcs ++ rest) := by
  have hq := quiet_job d inp hplays
  have hsteady := steady_job d inp hj
  have hgame : (j.out d inp).d.game.isSome = d.game.isSome := by
    have := congrArg Option.isSome hq.game.game
    simpa using this
  have hends : (j.out d inp).d.hist.filter Act.over = d.hist.filter Act.over := by
    have hf : ∀ hist : List Act, (hist.filter Act.game).filter Act.over = hist.filter Act.over := by
      intro hist
      rw [List.filter_filter]
      congr 1
      funext a
      cases a with
      | rpc r => rfl
      | mark m => cases m <;> rfl
    rw [← hf, hq.game.acts, hf]
  -- a score stays, or a seat was assigned and the score is zero
  have hzero : ∀ u, u < d.nobj → ((j.out d inp).d.objs u).game = (d.objs u).game ∨
      ((j.out d inp).d.objs u).game = some 0 := by
    intro u hu
    exact (hq.scores u hu).imp_right fun ⟨seat, hm⟩ => hq.assigned u seat hm
  have hseated : ∀ u ∈ vals d.users, u < d.nobj := fun u hu =>
    (hs u (List.mem_append_left _ hu)).1
  refine SumInv.of_fair hgame hends hsteady.pcs (fun pc hm hc => by simp [hq.pcs pc hm] at hc) ?_ h
  intro hfair
  have hbegun : Begun (j.out d inp).d := by
    intro hg
    rw [show (j.out d inp).d.isstart = d.isstart from hsteady.isstart,
      show (j.out d inp).d.count = d.count from hsteady.count]
    exact hfair.begun (hgame ▸ hg)
  have hpend : ∀ p ∈ pending ((j.out d inp).pcs ++ rest),
      ((j.out d inp).d.objs p.1).game = some 0 := by
    rintro ⟨u, seat⟩ hm
    obtain ⟨pc, hpc, hsit⟩ := List.mem_filterMap.1 hm
    obtain rfl : pc = .sitAdd u seat := by
      cases pc <;> simp_all [Pc.sitting?]
    rcases List.mem_append.1 hpc with hpc | hpc
    · exact hq.assigned u seat hpc
    · have hp : (u, seat) ∈ pending (j.pcs ++ rest) :=
        List.mem_filterMap.2 ⟨_, List.mem_append_right _ hpc, rfl⟩
      have hlt := (hs u (List.mem_append_right _ (List.mem_map.2 ⟨_, hp, rfl⟩))).1
      rcases hzero u hlt with he | h0
      · rw [he]
        exact hfair.pending _ hp
      · exact h0
  by_cases hsit : pending j.pcs = []
  · have hseating := seating_job d inp hsit hj
    have hlevel : (∀ u ∈ vals (j.out d inp).d.users, u ∈ vals d.users) → d.level →
        (j.out d inp).d.level := fun hsub =>
      level_mono (fun u hu => Or.inl (hsub u hu)) fun u hu => hzero u (hseated u hu)
    have hstands : Stands d j → d.level := fun hst => hst.level hfair
    rcases hseating.users with husers | ⟨hst, seat, husers⟩
    · have hsub : ∀ u ∈ vals (j.out d inp).d.users, u ∈ vals d.users := fun u hu => husers ▸ hu
      refine ⟨?_, hbegun, fun hg => hlevel hsub (hfair.level (none_of_isSome_eq hgame hg)), ?_,
        hpend⟩
      · rw [← hfair.total, Desk.total, Desk.total, husers]
        refine congrArg List.sum (List.map_congr_left fun u hu => ?_)
        have hsame : ((j.out d inp).d.objs u).game = (d.objs u).game := by
          refine (hq.scores u (hseated u hu)).resolve_right ?_
          rintro ⟨seat, hm⟩
          have hp : (u, seat) ∈ pending ((j.out d inp).pcs ++ rest) :=
            List.mem_filterMap.2 ⟨_, List.mem_append_left _ hm, rfl⟩
          exact not_seated_of_pending hb' hp (by rw [husers]; exact hu)
        rw [Desk.score, Desk.score, hsame]
      · intro pc hm hst
        rcases List.mem_append.1 hm with hm | hm
        · exact hlevel hsub (hstands (hseating.walks pc hm hst))
        · exact hlevel hsub (hfair.standing pc (List.mem_append_right _ hm) hst)
    · have hsub : ∀ u ∈ vals (j.out d inp).d.users, u ∈ vals d.users := by
        intro u hu
        rw [husers] at hu
        obtain ⟨k, hk⟩ := mem_vals.1 hu
        rw [lookup_erase_eq] at hk
        split at hk
        · simp at hk
        · exact mem_vals.2 ⟨k, hk⟩
      have hl := hlevel hsub (hstands hst)
      exact ⟨hl.total, hbegun, fun _ => hl, fun _ _ _ => hl, hpend⟩
  · -- the pending seat is taken by somebody who has not scored
    obtain ⟨u, seat, rfl⟩ := sitAdd_of_pending hsit
    obtain ⟨hsame, hpcs⟩ := sitSeated_same (executed d inp (.sitAdd u seat)) u seat
    have husers : (Job.out d inp (.seg (.sitAdd u seat))).d.users =
      d.users.insert seat u := hsame.users
    have hp : (u, seat) ∈ pending (Job.pcs (.seg (.sitAdd u seat)) ++ rest) := List.mem_cons_self
    have hvals : vals (Job.out d inp (.seg (.sitAdd u seat))).d.users = u :: vals d.users := by
      rw [husers, vals_insert (lookup_of_pending hb hp)]
    have hscores : ∀ v, v < d.nobj →
        ((Job.out d inp (.seg (.sitAdd u seat))).d.objs v).game = (d.objs v).game := by
      intro v hv
      refine (hq.scores v hv).resolve_right ?_
      rintro ⟨seat', hm⟩
      rcases hpcs with hpcs | hpcs
      · rw [show (Job.out d inp (.seg (.sitAdd u seat))).pcs = [.sitUse u] from hpcs] at hm
        simp at hm
      · rw [show (Job.out d inp (.seg (.sitAdd u seat))).pcs = [] from hpcs] at hm
        simp at hm
    have hlt := (hs u (List.mem_append_right _ (List.mem_map.2 ⟨_, hp, rfl⟩))).1
    have hu : ((Job.out d inp (.seg (.sitAdd u seat))).d.objs u).game = some 0 := by
      rw [hscores u hlt]
      exact hfair.pending _ hp
    have hlevel : d.level → (Job.out d inp (.seg (.sitAdd u seat))).d.level := by
      refine level_mono ?_ fun v hv => Or.inl (hscores v (hseated v hv))
      intro v hv
      rw [hvals] at hv
      rcases List.mem_cons.1 hv with rfl | hv
      · exact Or.inr hu
      · exact Or.inl hv
    refine ⟨?_, hbegun, fun hg => hlevel (hfair.level (none_of_isSome_eq hgame hg)), ?_, hpend⟩
    · rw [Desk.total, hvals, List.map_cons, List.sum_cons, Desk.score, hu,
        Option.getD_some, zero_add,
        ← hfair.total, Desk.total]
      refine congrArg List.sum (List.map_congr_left fun v hv => ?_)
      rw [Desk.score, Desk.score, hscores v (hseated v hv)]
    · intro pc hm hst
      rcases List.mem_append.1 hm with hm | hm
      · rcases hpcs with hpcs | hpcs
        · rw [show (Job.out d inp (.seg (.sitAdd u seat))).pcs = [.sitUse u] from hpcs,
            List.mem_singleton] at hm
          subst hm
          simp [Pc.standing, Pc.walk?] at hst
        · rw [show (Job.out d inp (.seg (.sitAdd u seat))).pcs = [] from hpcs] at hm
          simp at hm
      · exact hlevel (hfair.standing pc (List.mem_append_right _ hm) hst)

end Job

/-! ### Runs -/

section Runs

variable {id creater timelimit : ℕ} {pay : Pay} {s : Sys}

theorem sumInv_of_complete (h : desk.Reach Complete (created id creater pay timelimit) s) :
    SumInv s.shared (pcs s) := by
  have hall : ∀ s, desk.Reach Complete (created id creater pay timelimit) s →
      OneNewDesk s.shared (pcs s) ∧ Scored s.shared (pcs s) ∧ SeatInv s.shared (pcs s) ∧ Alone s :=
    fun s hs => ⟨one_newDesk hs, scored_of_reach hs,
      seatInv_of_sitsApart (hs.mono fun s e => sitsApart_of_complete e), alone_of_complete hs⟩
  refine desk_inv ?_ ?_ ?_ ?_ ?_ (h.and_inv hall)
  · intro d l l' hp hI
    have hmem : ∀ pc ∈ l', pc ∈ l := fun pc hm => hp.mem_iff.2 hm
    refine ⟨fun pc hm => hI.playing pc (hmem pc hm), fun pc hm => hI.result pc (hmem pc hm),
      fun pc hm => hI.ended pc (hmem pc hm), fun pc hm => hI.goes pc (hmem pc hm), fun hover => ?_⟩
    have hfair := hI.fair hover
    exact ⟨hfair.total, hfair.begun, hfair.level, fun pc hm => hfair.standing pc (hmem pc hm),
      fun p hm => hfair.pending p ((hp.filterMap _).mem_iff.2 hm)⟩
  · intro d l b q hI
    refine ⟨hI.playing, hI.result, hI.ended, hI.goes, fun hover => ?_⟩
    have hfair := hI.fair hover
    exact ⟨hfair.total, hfair.begun, hfair.level, hfair.standing, hfair.pending⟩
  · intro d l u c hI
    refine ⟨?_, ?_, ?_, ?_, fun hover => ?_⟩
    · intro pc hm hc
      rcases List.mem_cons.1 hm with rfl | hm
      · simp [Pc.catching] at hc
      · exact hI.playing pc hm hc
    · intro pc hm scores hr
      rcases List.mem_cons.1 hm with rfl | hm
      · simp [Pc.result?] at hr
      · exact hI.result pc hm scores hr
    · intro pc hm hr
      rcases List.mem_cons.1 hm with rfl | hm
      · simp [Pc.result?] at hr
      · exact hI.ended pc hm hr
    · intro pc hm hn hr
      rcases List.mem_cons.1 hm with rfl | hm
      · simp [Pc.newDesk] at hn
      · exact hI.goes pc hm hn hr
    · have hfair := hI.fair hover
      refine ⟨hfair.total, hfair.begun, hfair.level, ?_, hfair.pending⟩
      intro pc hm hst
      rcases List.mem_cons.1 hm with rfl | hm
      · simp [Pc.standing, Pc.walk?] at hst
      · exact hfair.standing pc hm hst
  · have hlevel : (Desk.create id creater pay timelimit).level :=
      fun u hu => absurd hu List.not_mem_nil
    have hmon : ∀ pc ∈ pcs (created id creater pay timelimit), pc = .monitor := by
      simp [created, pcs]
    refine ⟨?_, ?_, ?_, fun _ _ _ _ => by simp [created, Desk.create], fun _ => ?_⟩
    · intro pc hm hc
      simp [hmon pc hm, Pc.catching] at hc
    · intro pc hm scores hr
      simp [hmon pc hm, Pc.result?] at hr
    · intro pc hm hr
      simp [hmon pc hm, Pc.result?] at hr
    · exact ⟨hlevel.total, fun hg => by simp [created, Desk.create] at hg, fun _ => hlevel,
        fun _ _ _ => hlevel, fun p hm => absurd hm List.not_mem_nil⟩
  · rintro s e j inp rest ⟨hC, hone, hscored, hseat, halone⟩ hj hp _ hI
    by_cases hnew : ∀ pc ∈ j.pcs, pc.newDesk = false
    · have hsits : SitsApart s j := by
        have := sitsApart_of_complete e hC
        simpa only [Under, hj] using this
      have hseat' : SeatInv s.shared (j.pcs ++ rest) := hseat.perm hp
      cases hplays : j.plays s.shared with
      | false =>
          exact hI.quiet hnew hplays (Scored.perm hp hscored) hseat'.base
            (hseat'.job hp hone hsits).base
      | true =>
          cases hs : j.serving with
          | true =>
              exact hI.plays hnew hplays hseat.base.vals_nodup hscored (halone.rest hC hj hp hs)
          | false =>
              -- among the work of the game only the timers are no request
              cases j with
              | cmd u c => simp [Job.serving] at hs
              | req r =>
                  cases r with
                  | buildFish => exact hI.timer
                  | clearTrace => exact hI.timer
                  | _ => simp [Job.serving, Req.timer] at hs
              | seg pc =>
                  have hserve := serving_of_plays (hnew pc (by simp [Job.pcs])) hplays
                  simp [Job.serving, hserve] at hs
    · cases j with
      | req r => simp [Job.pcs] at hnew
      | cmd u c => simp [Job.pcs] at hnew
      | seg pc => exact hI.newDesk (hone.perm hp) (by simpa [Job.pcs] using hnew)

/-- **Scores are zero-sum** when requests do not overlap: until `gameover` the scores of the seated
users sum to zero, and so does every result that is being saved. -/
theorem zeroSum_of_complete (h : desk.Reach Complete (created id creater pay timelimit) s) :
    (.mark .gameover ∉ s.shared.hist → s.shared.total = 0) ∧
    ∀ pc ∈ pcs s, ∀ inp scores, pc.rpc s.shared inp = some (.saveGameResult scores) →
      scores.sum = 0 := by
  have hI := sumInv_of_complete h
  refine ⟨fun hover => (hI.fair hover).total, fun pc hm inp scores hr => hI.result pc hm scores ?_⟩
  cases pc with
  | result scores' => simpa [Pc.rpc, Pc.result?] using hr
  | resultErr scores' => simpa [Pc.rpc, Pc.result?] using hr
  | fish fpc => cases fpc <;> simp [Pc.rpc] at hr
  | _ => simp [Pc.rpc] at hr

/-- User 2 is one up, and the banker one down. -/
theorem zeroSum_catchOne :
    ∃ s, desk.Reach Complete (created 100001 1 ⟨true, 3⟩ 30) s ∧ s.shared.scoreAt 2 = 1 ∧
      s.shared.total = 0 := by
  obtain ⟨s, hs, hp⟩ := Machine.exists_reach (gameOn ++ catchOne ++ [.resume 1 {}])
    (p := fun s => decide (s.shared.scoreAt 2 = 1 ∧ .mark .gameover ∉ s.shared.hist))
    (C := Complete) (i := created 100001 1 ⟨true, 3⟩ 30) (M := desk) (by decide +kernel)
  obtain ⟨hscore, hover⟩ := of_decide_eq_true hp
  exact ⟨s, hs, hscore, (zeroSum_of_complete hs).1 hover⟩

end Runs

end Halieutics
