/-
**What the handlers of the game can do.**

The counterpart of `Halieutics.DeskWork` for the game: for each segment of `userfire`, `catchfish`
and `catchsweepfish`, the desks it can leave behind.

Main definitions:

* `Halieutics.Cfg.bullet` — the bullet a request asks for;
* `Halieutics.FishFrame` — what a handler of the game leaves alone.

Main results:

* `Halieutics.userfire_cases`, `Halieutics.catchfish_cases`, `Halieutics.catchPay_cases`,
  `Halieutics.catchStock_cases`, `Halieutics.sweepPay_cases`, `Halieutics.catchsweepfish_cases` —
  **what the handlers can do**;
* `Halieutics.frame_userfire` and its kin — every handler stays within the frame.
-/

import Halieutics.FishDesk

set_option relaxedAutoImplicit false
set_option autoImplicit false

namespace Halieutics

open LuaTable

/-- The kind and the multiple of the bullet a request asks for, when there is such a bullet. -/
def Cfg.bullet (cfg : Cfg) (kind : Option ℤ) : Option (ℤ × ℕ) :=
  match kind with
  | none => none
  | some k =>
      match cfgAt cfg.bulletcfg k with
      | none => none
      | some b =>
          if cfg.maxBulletMultiple < b.multiple.getD 1 then none else some (k, b.multiple.getD 1)

/-- **What `desk:userfire` can do**: nothing; charge without a bullet; or charge and load. -/
theorem userfire_cases (d : Desk) (u : Ref) (kind : Option ℤ) (inp : Inp) :
    (∃ r, userfire d u kind inp = .ret d r) ∨
    (∃ g k multiple, (d.objs u).seat ≠ d.banker ∧ (d.objs u).audience ≠ some true ∧
      d.mygame = some g ∧ inp.cfg.bullet kind = some (k, multiple) ∧
      ((∃ r, userfire d u kind inp =
          .ret (calcFishscoreAll d (d.objs u).seat d.banker (-(multiple : ℕ))).1 r) ∨
       (∃ roles, g.roles = some roles ∧
        (calcFishscoreAll d (d.objs u).seat d.banker (-(multiple : ℕ))).2 = true ∧
        let d₁ := (calcFishscoreAll d (d.objs u).seat d.banker (-(multiple : ℕ))).1
        let p := roles.loadBullet (d.objs u).seat inp.now k multiple
        userfire d u kind inp = .ret ((d₁.withRoles g p.1).mark
          (.fired p.2.id (d.objs u).seat multiple
            (d₁.scoreAt (d.objs u).seat - d.scoreAt (d.objs u).seat)
            (d₁.scoreAt d.banker - d.scoreAt d.banker))) .ok))) := by
  unfold userfire
  dsimp only
  split
  · exact Or.inl ⟨_, rfl⟩
  · rename_i hseat
    cases kind with
    | none => exact Or.inl ⟨_, rfl⟩
    | some k =>
        dsimp only
        split
        · exact Or.inl ⟨_, rfl⟩
        · rename_i haud
          cases hg : d.mygame with
          | none => exact Or.inl ⟨_, rfl⟩
          | some g =>
              cases hcfg : cfgAt inp.cfg.bulletcfg k with
              | none => exact Or.inl ⟨_, rfl⟩
              | some bulletcfg =>
                  dsimp only
                  split
                  · exact Or.inl ⟨_, rfl⟩
                  · rename_i hmax
                    refine Or.inr ⟨g, k, bulletcfg.multiple.getD 1, hseat, haud, rfl, ?_, ?_⟩
                    · simp only [Cfg.bullet, hcfg, if_neg hmax]
                    split
                    · rename_i d₁ hcalc
                      exact Or.inl ⟨_, by rw [hcalc]⟩
                    · rename_i d₁ hcalc
                      rw [hcalc]
                      cases hr : g.roles with
                      | none => exact Or.inl ⟨_, rfl⟩
                      | some roles => exact Or.inr ⟨roles, rfl, rfl, rfl⟩

/-- **What `desk:catchfish` can do up to `get_stock`**: nothing, or take a bullet, after which it
may wait for the stock. -/
theorem catchfish_cases (d : Desk) (u : Ref) (req : CatchReq) (inp : Inp) :
    (∃ r, catchfish d u req inp = .ret d r) ∨
    (∃ g roles roles' b, d.mygame = some g ∧ g.roles = some roles ∧
      catchBullet roles req = (roles', some b) ∧
      let d' := (d.withRoles g roles').mark
        (.resolved (roles'.bullets b).id req.seatId (roles'.bullets b).multiple)
      ((∃ r, catchfish d u req inp = .ret d' r) ∨
       (∃ f fishcfg, catchfish d u req inp = .wait d' (.stock
          { user := u, seat := req.seatId, fish := f,
            score := fishMultiple fishcfg inp.roll * (roles'.bullets b).multiple,
            multiple := (roles'.bullets b).multiple })))) := by
  unfold catchfish
  cases hg : d.mygame with
  | none => exact Or.inl ⟨_, rfl⟩
  | some g =>
      dsimp only
      cases hr : g.roles with
      | none => exact Or.inl ⟨_, rfl⟩
      | some roles =>
          dsimp only
          rcases hb : catchBullet roles req with ⟨roles', ob⟩
          cases ob with
          | none => exact Or.inl ⟨_, rfl⟩
          | some b =>
              refine Or.inr ⟨g, roles, roles', b, rfl, hr, hb, ?_⟩
              dsimp only
              split
              · exact Or.inl ⟨_, rfl⟩
              · split
                · exact Or.inl ⟨_, rfl⟩
                · split
                  · exact Or.inl ⟨_, rfl⟩
                  · split
                    · exact Or.inl ⟨_, rfl⟩
                    · split
                      · exact Or.inl ⟨_, rfl⟩
                      · exact Or.inr ⟨_, _, rfl⟩

/-- Neither freeing a fish nor recording a bomb touches the bullets. -/
structure SameBullets (r r' : Roles) : Prop where
  bullets : r'.bullets = r.bullets
  bulletN : r'.bulletN = r.bulletN
  active : r'.bulletActive = r.bulletActive
  free : r'.bulletFree = r.bulletFree
  gen : r'.bulletIdGen = r.bulletIdGen

theorem SameBullets.refl (r : Roles) : SameBullets r r := ⟨rfl, rfl, rfl, rfl, rfl⟩

theorem SameBullets.trans {r r' r'' : Roles} (h : SameBullets r r') (h' : SameBullets r' r'') :
    SameBullets r r'' :=
  ⟨h'.bullets.trans h.bullets, h'.bulletN.trans h.bulletN, h'.active.trans h.active,
    h'.free.trans h.free, h'.gen.trans h.gen⟩

theorem sameBullets_freeFish (r : Roles) (fid : ℕ) : SameBullets r (r.freeFish fid).1 := by
  unfold Roles.freeFish
  split <;> exact ⟨rfl, rfl, rfl, rfl, rfl⟩

theorem sameBullets_sweepLoop (cfg : Cfg) (multiply : Option ℕ) (r : Roles) (score : ℕ)
    (ids : List ℕ) : SameBullets r (sweepLoop cfg multiply r score ids).1 := by
  induction ids generalizing r score with
  | nil => exact .refl r
  | cons v vs ih =>
      have hfree := sameBullets_freeFish r v
      unfold sweepLoop
      split
      · rename_i heq
        rw [heq] at hfree
        exact hfree.trans (ih _ _)
      · rename_i heq
        rw [heq] at hfree
        split
        · exact hfree.trans (ih _ _)
        · split
          · exact hfree
          · exact hfree.trans (ih _ _)

/-- **What the end of `desk:catchfish` can do**: free the fish, and, while the game runs, move the
score and perhaps the bank. -/
theorem catchPay_cases (d : Desk) (c : Catch) :
    ((∀ g, d.game = some g → g.roles = none) ∧ ∃ r, catchPay d c = .ret d r) ∨
    (∃ g roles roles', d.game = some g ∧ g.roles = some roles ∧ SameBullets roles roles' ∧
      ((g.ended = true ∧ ∃ r, catchPay d c = .ret (d.withRoles g roles') r) ∨
       (g.ended = false ∧ ∃ banker r, catchPay d c = .ret
          { (calcFishscoreAll (d.withRoles g roles') c.seat d.banker c.score).1 with
            banker := banker } r))) := by
  unfold catchPay
  cases hg : d.game with
  | none => exact Or.inl ⟨by simp, _, rfl⟩
  | some g =>
      dsimp only
      cases hr : g.roles with
      | none =>
          refine Or.inl ⟨?_, _, rfl⟩
          rintro g' hg'
          obtain rfl := Option.some_inj.1 hg'
          exact hr
      | some roles =>
          dsimp only
          have hfree := sameBullets_freeFish roles (roles.fish c.fish).id
          split
          · exact Or.inr ⟨g, roles, _, rfl, hr, hfree, Or.inl ⟨by assumption, _, rfl⟩⟩
          · rename_i hend
            have hrec : SameBullets roles (if isBombFish (roles.fish c.fish).kind then
                (roles.freeFish (roles.fish c.fish).id).1.specialRecord (roles.fish c.fish).id
                  c.multiple
                else (roles.freeFish (roles.fish c.fish).id).1) := by
              split
              · exact hfree.trans ⟨rfl, rfl, rfl, rfl, rfl⟩
              · exact hfree
            refine Or.inr ⟨g, roles, _, rfl, hr, hrec, Or.inr ⟨by simpa using hend, ?_⟩⟩
            split
            · rename_i heq
              obtain rfl := congrArg Prod.fst heq
              exact ⟨_, _, rfl⟩
            · rename_i heq
              obtain rfl := congrArg Prod.fst heq
              split
              · exact ⟨c.seat, _, rfl⟩
              · exact ⟨_, _, rfl⟩

/-- Nothing is left to wait for once the catch is paid. -/
theorem catchPay_ne_wait (d : Desk) (c : Catch) {d' : Desk} {pc : FishPc} :
    catchPay d c ≠ .wait d' pc := by
  rcases catchPay_cases d c with ⟨-, r, h⟩ | ⟨g, _, _, -, -, -, ⟨-, r, h⟩ | ⟨-, b, r, h⟩⟩
  · rw [h]; nofun
  · rw [h]; nofun
  · rw [h]; nofun

/-- **What `desk:catchfish` can do after `get_stock`.** -/
theorem catchStock_cases (d : Desk) (c : Catch) (inp : Inp) :
    (∃ r, catchStock d c inp = .ret d r) ∨
    (∃ c', catchStock d c inp = .wait d (.miss c')) ∨
    (∃ c', catchStock d c inp = .wait d (.pay c')) ∨
    (∃ c', catchStock d c inp = catchPay d c') := by
  unfold catchStock
  dsimp only
  split
  · exact Or.inr (Or.inl ⟨_, rfl⟩)
  · split
    · split
      · exact Or.inl ⟨_, rfl⟩
      · exact Or.inr (Or.inl ⟨_, rfl⟩)
    · split
      · exact Or.inr (Or.inr (Or.inr ⟨_, rfl⟩))
      · exact Or.inr (Or.inr (Or.inl ⟨_, rfl⟩))

/-- **What the end of `desk:catchsweepfish` does**: it moves a score. -/
theorem sweepPay_cases (d : Desk) (seat : ℤ) (score : ℕ) :
    ∃ r, sweepPay d seat score = .ret (calcFishscoreAll d seat d.banker score).1 r := by
  unfold sweepPay
  split
  · rename_i heq
    exact ⟨_, by rw [heq]⟩
  · rename_i heq
    exact ⟨_, by rw [heq]⟩

/-- **What `desk:catchsweepfish` can do up to `update_stock`.** -/
theorem catchsweepfish_cases (d : Desk) (u : Ref) (req : SweepReq) (inp : Inp) :
    (∃ r, catchsweepfish d u req inp = .ret d r) ∨
    (∃ g roles roles' score, d.mygame = some g ∧ g.roles = some roles ∧ SameBullets roles roles' ∧
      ((∃ r, catchsweepfish d u req inp = .ret (d.withRoles g roles') r) ∨
       catchsweepfish d u req inp = sweepPay (d.withRoles g roles') req.seatId score ∨
       catchsweepfish d u req inp = .wait (d.withRoles g roles') (.sweep req.seatId score))) := by
  unfold catchsweepfish
  cases hg : d.mygame with
  | none => exact Or.inl ⟨_, rfl⟩
  | some g =>
      dsimp only
      cases hr : g.roles with
      | none => exact Or.inl ⟨_, rfl⟩
      | some roles =>
          dsimp only
          split
          · exact Or.inl ⟨_, rfl⟩
          · split
            · exact Or.inl ⟨_, rfl⟩
            · have hpop : SameBullets roles (roles.specialPop req.fishId).1 :=
                ⟨rfl, rfl, rfl, rfl, rfl⟩
              have hloop := hpop.trans (sameBullets_sweepLoop inp.cfg
                (roles.specialPop req.fishId).2 (roles.specialPop req.fishId).1 0 req.catchFishIds)
              generalize sweepLoop inp.cfg (roles.specialPop req.fishId).2
                (roles.specialPop req.fishId).1 0 req.catchFishIds = q at hloop ⊢
              refine Or.inr ⟨g, roles, q.1, q.2.1, rfl, hr, hloop, ?_⟩
              split
              · exact Or.inl ⟨_, rfl⟩
              · split
                · exact Or.inr (Or.inl rfl)
                · exact Or.inr (Or.inr rfl)

/-! ### What the game leaves alone -/

/-- The milestones of a game. -/
def Act.fish : Act → Bool
  | .mark (.fired _ _ _ _ _) | .mark (.resolved _ _ _) => true
  | _ => false

/-- **The frame of the game**: a handler changes the scores, the roles and the banker, and it
records bullets. -/
def FishFrame (d d' : Desk) : Prop :=
  ∃ objs game banker acts,
    d' = { d with objs := objs, game := game, banker := banker, hist := acts ++ d.hist } ∧
    (∀ u, ∃ s, objs u = { d.objs u with game := s } ∧ s.isSome = (d.objs u).game.isSome) ∧
    ∀ a ∈ acts, Act.fish a = true

theorem FishFrame.refl (d : Desk) : FishFrame d d :=
  ⟨d.objs, d.game, d.banker, [], rfl, fun u => ⟨(d.objs u).game, rfl, rfl⟩, by simp⟩

theorem FishFrame.trans {d d' d'' : Desk} (h : FishFrame d d') (h' : FishFrame d' d'') :
    FishFrame d d'' := by
  obtain ⟨o, g, b, acts, rfl, ho, ha⟩ := h
  obtain ⟨o', g', b', acts', rfl, ho', ha'⟩ := h'
  refine ⟨o', g', b', acts' ++ acts, by simp, ?_, ?_⟩
  · intro u
    obtain ⟨s, hs, hsome⟩ := ho u
    obtain ⟨s', hs', hsome'⟩ := ho' u
    refine ⟨s', ?_, ?_⟩
    · rw [hs']
      simp only [hs]
    · have hg : (o u).game = s := by rw [hs]
      exact hsome'.trans ((congrArg Option.isSome hg).trans hsome)
  · intro a hmem
    rcases List.mem_append.1 hmem with hmem | hmem
    · exact ha' a hmem
    · exact ha a hmem

theorem frame_withRoles (d : Desk) (g : Game) (roles : Roles) : FishFrame d (d.withRoles g roles) :=
  ⟨d.objs, _, d.banker, [], rfl, fun u => ⟨(d.objs u).game, rfl, rfl⟩, by simp⟩

theorem frame_banker (d : Desk) (banker : ℤ) : FishFrame d { d with banker := banker } :=
  ⟨d.objs, d.game, banker, [], rfl, fun u => ⟨(d.objs u).game, rfl, rfl⟩, by simp⟩

theorem frame_mark (d : Desk) {m : Mark} (h : Act.fish (.mark m) = true) : FishFrame d (d.mark m) :=
  ⟨d.objs, d.game, d.banker, [.mark m], rfl, fun u => ⟨(d.objs u).game, rfl, rfl⟩, by simpa using h⟩

theorem frame_adduserscore (d : Desk) (u : Ref) (score : ℤ) :
    FishFrame d (adduserscore d u score).1 := by
  unfold adduserscore
  split
  · exact .refl d
  · rename_i s hs
    refine ⟨_, d.game, d.banker, [], rfl, ?_, by simp⟩
    intro v
    by_cases hv : v = u
    · subst hv
      exact ⟨_, Function.update_self _ _ _, by rw [hs]; rfl⟩
    · exact ⟨(d.objs v).game, Function.update_of_ne hv _ _, rfl⟩

theorem frame_calcFishscoreAll (d : Desk) (me banker score : ℤ) :
    FishFrame d (calcFishscoreAll d me banker score).1 := by
  unfold calcFishscoreAll
  dsimp only
  split
  · split
    · exact (frame_adduserscore _ _ _).trans (frame_adduserscore _ _ _)
    · exact frame_adduserscore _ _ _
  · exact .refl d

theorem frame_userfire (d : Desk) (u : Ref) (kind : Option ℤ) (inp : Inp) :
    FishFrame d (userfire d u kind inp).d := by
  rcases userfire_cases d u kind inp with ⟨r, h⟩ | ⟨g, k, m, -, -, -, -, ⟨r, h⟩ | ⟨roles, -, -, h⟩⟩
  · rw [h]; exact .refl d
  · rw [h]; exact frame_calcFishscoreAll _ _ _ _
  · rw [h]
    exact ((frame_calcFishscoreAll d _ _ _).trans (frame_withRoles _ _ _)).trans (frame_mark _ rfl)

theorem frame_catchfish (d : Desk) (u : Ref) (req : CatchReq) (inp : Inp) :
    FishFrame d (catchfish d u req inp).d := by
  rcases catchfish_cases d u req inp with ⟨r, h⟩ | ⟨g, _, _, b, -, -, -, ⟨r, h⟩ | ⟨f, fc, h⟩⟩
  · rw [h]; exact .refl d
  · rw [h]; exact (frame_withRoles d _ _).trans (frame_mark _ rfl)
  · rw [h]; exact (frame_withRoles d _ _).trans (frame_mark _ rfl)

theorem frame_catchPay (d : Desk) (c : Catch) : FishFrame d (catchPay d c).d := by
  rcases catchPay_cases d c with ⟨-, r, h⟩ | ⟨g, _, r', -, -, -, ⟨-, r, h⟩ | ⟨-, b, r, h⟩⟩
  · rw [h]; exact .refl d
  · rw [h]; exact frame_withRoles d _ _
  · rw [h]
    exact ((frame_withRoles d g r').trans (frame_calcFishscoreAll _ _ _ _)).trans (frame_banker _ _)

theorem frame_sweepPay (d : Desk) (seat : ℤ) (score : ℕ) :
    FishFrame d (sweepPay d seat score).d := by
  obtain ⟨r, h⟩ := sweepPay_cases d seat score
  rw [h]
  exact frame_calcFishscoreAll _ _ _ _

theorem frame_catchsweepfish (d : Desk) (u : Ref) (req : SweepReq) (inp : Inp) :
    FishFrame d (catchsweepfish d u req inp).d := by
  rcases catchsweepfish_cases d u req inp with
    ⟨r, h⟩ | ⟨g, _, r', score, -, -, -, ⟨r, h⟩ | h | h⟩
  · rw [h]; exact .refl d
  · rw [h]; exact frame_withRoles d _ _
  · rw [h]; exact (frame_withRoles d g r').trans (frame_sweepPay _ _ _)
  · rw [h]; exact frame_withRoles d _ _

theorem frame_catchStock (d : Desk) (c : Catch) (inp : Inp) :
    FishFrame d (catchStock d c inp).d := by
  rcases catchStock_cases d c inp with ⟨r, h⟩ | ⟨c', h⟩ | ⟨c', h⟩ | ⟨c', h⟩
  · rw [h]; exact .refl d
  · rw [h]; exact .refl d
  · rw [h]; exact .refl d
  · rw [h]; exact frame_catchPay d c'

end Halieutics
