/-
**What a desk does to the pool.**

The handlers, the timers and `new_desk` all work on the pool of one game, and whatever they do to it
is a sequence of the operations of `sdk.lua`.  This is said once here: a property of the pool has
only to be kept by each operation, and it holds of the pool of every desk.

Main definitions:

* `Halieutics.PoolStep`, `Halieutics.Works` — an operation on the pool of a game, and a sequence of
  them;
* `Halieutics.Stocked` — the pool is what some sequence of the operations of `Roles.Op` leaves
  behind, up to the recorded bombs.

Main results:

* `Halieutics.works_job` — **every piece of work does a sequence of operations**;
* `Halieutics.stocked_of_reach` — **the pool of every desk is sound**.
-/

import Halieutics.FishPool

set_option relaxedAutoImplicit false
set_option autoImplicit false

namespace Halieutics

open LuaTable Coroutine

/-! ### Operations -/

/-- **An operation on the pool of a game.**  A bomb that is caught is freed before it is
recorded. -/
inductive PoolStep (r : Roles) : Roles → Prop
  | op (o : Roles.Op) : PoolStep r (r.apply o)
  | bomb (f : Ref) (multiple : ℕ) : PoolStep r
      ((r.freeFish (r.fish f).id).1.specialRecord (r.fish f).id multiple)
  | pop (id : ℕ) : PoolStep r (r.specialPop id).1

/-- A sequence of operations. -/
abbrev Works : Roles → Roles → Prop := Relation.ReflTransGen PoolStep

variable {r r' : Roles}

theorem Works.op (r : Roles) (o : Roles.Op) : Works r (r.apply o) := .single (.op o)

theorem works_buildFish (now : ℕ) (kinds : List ℤ) (r : Roles) :
    Works r (r.buildFish now kinds) := by
  induction kinds generalizing r with
  | nil => exact .refl
  | cons k ks ih => exact (Works.op r (.activeFish now k)).trans (ih _)

theorem works_catchBullet {req : CatchReq} {b : Option Ref} (h : catchBullet r req = (r', b)) :
    Works r r' := by
  have hid := Works.op r (.freeBullet req.bulletId req.seatId)
  change Works r (r.freeBullet req.bulletId req.seatId).1 at hid
  unfold catchBullet at h
  split at h
  · rename_i r₁ b₁ hb
    rw [hb] at hid
    obtain ⟨rfl, -⟩ := Prod.mk.inj h
    exact hid
  · rename_i r₁ hb
    rw [hb] at hid
    have hkind := Works.op r₁ (.freeBulletOfKind req.bulletKind req.seatId)
    change Works r₁ (r₁.freeBulletOfKind req.bulletKind req.seatId).1 at hkind
    rw [h] at hkind
    exact hid.trans hkind

theorem works_sweepLoop (cfg : Cfg) (multiply : Option ℕ) (ids : List ℕ) (r : Roles) (score : ℕ) :
    Works r (sweepLoop cfg multiply r score ids).1 := by
  induction ids generalizing r score with
  | nil => exact .refl
  | cons v vs ih =>
      have hfree : Works r (r.freeFish v).1 := Works.op r (.freeFish v)
      unfold sweepLoop
      split
      · rename_i heq
        rw [heq] at hfree
        exact hfree.trans (ih _ score)
      · rename_i heq
        rw [heq] at hfree
        split
        · exact hfree.trans (ih _ score)
        · split
          · exact hfree
          · exact hfree.trans (ih _ _)

/-! ### The pool of a desk -/

theorem SameGame.pool {d d' : Desk} (h : SameGame d d') : d'.pool = d.pool := by
  rw [Desk.pool, Desk.pool, h.roles]

theorem pool_calc (d : Desk) (me banker score : ℤ) :
    (calcFishscoreAll d me banker score).1.pool = d.pool := by
  obtain ⟨objs, h⟩ := calc_frame d me banker score
  rw [h]
  rfl

theorem pool_withRoles (d : Desk) (g : Game) (r : Roles) : (d.withRoles g r).pool = r := rfl

theorem pool_sweepPay (d : Desk) (seat : ℤ) (score : ℕ) :
    (sweepPay d seat score).d.pool = d.pool := by
  obtain ⟨r, h⟩ := sweepPay_cases d seat score
  rw [h]
  exact pool_calc _ _ _ _

theorem pool_freeDesk (d : Desk) (r : Ret) : (freeDesk d r).d.pool = d.pool := by
  unfold freeDesk freeLoop
  split
  · rfl
  · split
    · rfl
    · rfl

theorem Failed.pool {d : Desk} {o : Out} (h : Failed d o) : o.d.pool = d.pool := by
  have hforce : (force d).pool = d.pool := (sameGame_of_core (core_force d)).pool
  cases h with
  | raise r => rfl
  | forced r => exact hforce
  | gameover scores _ => exact hforce
  | free => exact pool_freeDesk d _
  | back _ _ =>
      obtain ⟨pc, w, st, h, -, -⟩ := startWalk_cases d none (.free .nil)
      rw [h]
      rfl

theorem pool_sleepOn (d : Desk) (st : St) (pc : Pc) : (sleepOn d st pc).d.pool = d.pool := by
  rcases sleepOn_cases d st pc with ⟨-, h⟩ | ⟨-, h⟩
  · rw [h]
    rfl
  · rw [h]
    exact (failed_unhandled d).pool

theorem works_of_pool {d d' : Desk} (h : d'.pool = d.pool) : Works d.pool d'.pool := by
  rw [h]

/-- The roles of the game, after the score has moved. -/
theorem catchPay_pool {d : Desk} (c : Catch) :
    (catchPay d c).d.pool = d.pool ∨ ∃ g r, d.game = some g ∧ g.roles = some r ∧
      ((g.ended = true ∧ (catchPay d c).d.pool = (r.freeFish (r.fish c.fish).id).1) ∨
       (g.ended = false ∧ (catchPay d c).d.pool =
         if isBombFish (r.fish c.fish).kind then
           (r.freeFish (r.fish c.fish).id).1.specialRecord (r.fish c.fish).id c.multiple
         else (r.freeFish (r.fish c.fish).id).1)) := by
  unfold catchPay
  cases hg : d.game with
  | none => exact Or.inl rfl
  | some g =>
      dsimp only
      cases hr : g.roles with
      | none => exact Or.inl rfl
      | some r =>
          refine Or.inr ⟨g, r, rfl, hr, ?_⟩
          dsimp only
          split
          · exact Or.inl ⟨by assumption, rfl⟩
          · rename_i hend
            refine Or.inr ⟨by simpa using hend, ?_⟩
            generalize (if isBombFish (r.fish c.fish).kind then
                (r.freeFish (r.fish c.fish).id).1.specialRecord (r.fish c.fish).id c.multiple
                else (r.freeFish (r.fish c.fish).id).1) = r'
            have hpool := pool_calc (d.withRoles g r') c.seat (d.withRoles g r').banker c.score
            rw [pool_withRoles] at hpool
            split
            · rename_i heq
              rw [heq] at hpool
              exact hpool
            · rename_i heq
              rw [heq] at hpool
              split
              · exact hpool
              · exact hpool

theorem works_catchPay (d : Desk) (c : Catch) : Works d.pool (catchPay d c).d.pool := by
  rcases catchPay_pool (d := d) c with h | ⟨g, r, hg, hr, ⟨-, h⟩ | ⟨-, h⟩⟩
  · exact works_of_pool h
  · rw [h, pool_eq hg hr]
    exact Works.op r (.freeFish _)
  · rw [h, pool_eq hg hr]
    split
    · exact .single (.bomb c.fish c.multiple)
    · exact Works.op r (.freeFish _)

theorem works_catchsweepfish (d : Desk) (u : Ref) (req : SweepReq) (inp : Inp) :
    Works d.pool (catchsweepfish d u req inp).d.pool := by
  unfold catchsweepfish
  cases hg : d.mygame with
  | none => exact .refl
  | some g =>
      dsimp only
      cases hr : g.roles with
      | none => exact .refl
      | some r =>
          dsimp only
          split
          · exact .refl
          · split
            · exact .refl
            · rw [pool_eq (game_of_mygame hg).1 hr]
              have hloop : Works r (sweepLoop inp.cfg (r.specialPop req.fishId).2
                  (r.specialPop req.fishId).1 0 req.catchFishIds).1 :=
                (Relation.ReflTransGen.single (.pop req.fishId)).trans
                  (works_sweepLoop inp.cfg _ req.catchFishIds _ 0)
              split
              · exact hloop
              · split
                · rw [pool_sweepPay]
                  exact hloop
                · exact hloop

theorem works_fishSegment (d : Desk) (inp : Inp) (pc : FishPc) :
    Works d.pool (fishSegment d inp pc).d.pool := by
  cases pc with
  | stock c =>
      rcases catchStock_cases d c inp with ⟨r, h⟩ | ⟨c', h⟩ | ⟨c', h⟩ | ⟨c', h⟩
      · rw [fishSegment, h]
        exact .refl
      · rw [fishSegment, h]
        exact .refl
      · rw [fishSegment, h]
        exact .refl
      · rw [fishSegment, h]
        exact works_catchPay d c'
  | miss c => exact .refl
  | pay c => exact works_catchPay d c
  | sweep seat score => exact works_of_pool (pool_sweepPay d seat score)

/-- The roles change, if there are any. -/
theorem works_mapRoles {d d' : Desk} {g g' : Game} {f : Roles → Roles} (hg : d.game = some g)
    (hg' : d'.game = some g') (hr : g'.roles = g.roles.map f) (hf : ∀ r, Works r (f r)) :
    Works d.pool d'.pool := by
  rw [Desk.pool, Desk.pool, hg, hg', Option.bind_some, Option.bind_some, hr]
  cases g.roles with
  | none => exact .refl
  | some r => exact hf r

theorem works_onTimer (d : Desk) {f : Roles → Roles} (hf : ∀ r, Works r (f r)) :
    Works d.pool (onTimer d f).d.pool := by
  unfold onTimer
  split
  · exact .refl
  · rename_i g hg
    split
    · exact works_mapRoles hg rfl rfl hf
    · exact .refl

/-- A game without roles is set up. -/
theorem works_setup {d d' : Desk} (hd : d.game.bind Game.roles = none) (hd' : d'.pool = {}) :
    Works d.pool d'.pool := by
  rw [hd', Desk.pool, hd]
  exact .refl

/-- `new_desk` sets a game up, runs it and stops it. -/
theorem works_segment (d : Desk) (inp : Inp) {pc : Pc} (hpc : pc.newDesk = true)
    (he : pc.early = true → d.game.bind Game.roles = none) :
    Works d.pool (segment d inp pc).d.pool := by
  cases pc with
  | monitor => exact works_of_pool (pool_sleepOn d .ready _)
  | ready =>
      dsimp only [segment, doGame, gameInit]
      split
      · split
        · exact works_setup (he rfl) rfl
        · exact .refl
      · exact works_of_pool (pool_sleepOn _ .banker _)
  | start => exact works_setup (he rfl) rfl
  | config =>
      refine works_setup (he rfl) ?_
      refine (pool_sleepOn _ .banker _).trans ?_
      cases d.game with
      | none => simp [Desk.pool]
      | some g => simp [Desk.pool]
  | banker =>
      dsimp only [segment]
      split
      · exact works_of_pool (failed_unhandled _).pool
      · rename_i d' hd'
        simp only [determinBanker, Option.map_eq_some_iff] at hd'
        obtain ⟨seat, -, rfl⟩ := hd'
        exact works_of_pool (pool_sleepOn _ .gamerun _)
  | gamerun =>
      dsimp only [segment, gameRun]
      split
      · exact works_of_pool (failed_unhandled _).pool
      · rename_i g hg
        split
        · exact works_of_pool (failed_unhandled _).pool
        · exact works_mapRoles (game_of_mygame hg).1 rfl rfl (works_buildFish inp.now inp.kinds)
  | gameend =>
      have stop : ∀ {d' : Desk} {g : Game},
          (d.game.map fun g => { g with sync := g.sync.resumed }) = some g →
          d'.game =
          some { g with roles := g.roles.map Roles.freeAll, timers := false, ended := true } →
          Works d.pool d'.pool := by
        intro d' g hg hg'
        obtain ⟨g₀, hg₀, rfl⟩ := Option.map_eq_some_iff.1 hg
        exact works_mapRoles hg₀ hg' rfl fun r => Works.op r .freeAll
      dsimp only [segment, gameStop]
      split
      · rename_i hg
        have hd : d.game = none := by simpa using hg
        refine works_of_pool ((failed_unhandled _).pool.trans ?_)
        simp [Desk.pool, hd]
      · rename_i g hg
        split
        · rw [(failed_unhandled _).pool]
          exact stop hg rfl
        · exact stop hg rfl
  | result scores =>
      dsimp only [segment, deskEnd]
      split
      · exact works_of_pool (pool_freeDesk _ _)
      · exact works_of_pool (failed_afterError _).pool
  | resultErr scores => exact works_of_pool (failed_afterError d).pool
  | _ => simp [Pc.newDesk] at hpc

/-- **Every piece of work does a sequence of operations** on the pool. -/
theorem works_job {d : Desk} (inp : Inp) {j : Job}
    (he : ∀ pc ∈ j.pcs, pc.early = true → d.game.bind Game.roles = none) :
    Works d.pool (j.out d inp).d.pool := by
  cases hp : j.plays d with
  | false => exact works_of_pool (quiet_job d inp hp).game.pool
  | true =>
      have hplays := job_plays d inp hp
      generalize j.out d inp = o at hplays
      cases hplays with
      | @fire _ u kind hcmd =>
          rw [d_fish]
          rcases userfire_cases d u kind inp with
            ⟨r, heq⟩ | ⟨g, k, m, hseat, haud, hg, hb, ⟨r, heq⟩ | ⟨r, hr, -, heq⟩⟩
          · rw [heq]
            exact .refl
          · rw [heq]
            exact works_of_pool (pool_calc _ _ _ _)
          · rw [heq, pool_eq (game_of_mygame hg).1 hr]
            exact Works.op r (.activeBullet (d.objs u).seat inp.now k m)
      | @hit _ u req hcmd =>
          rw [d_fish]
          rcases catchfish_cases d u req inp with
            ⟨r, heq⟩ | ⟨g, r, r', b, hg, hr, hb, ⟨_, heq⟩ | ⟨f, fc, heq⟩⟩
          · rw [heq]
            exact .refl
          · rw [heq, pool_eq (game_of_mygame hg).1 hr]
            exact works_catchBullet hb
          · rw [heq, pool_eq (game_of_mygame hg).1 hr]
            exact works_catchBullet hb
      | @sweep _ u req hcmd =>
          rw [d_fish]
          exact works_catchsweepfish d u req inp
      | @segment pc =>
          rw [d_fish, ← (sameGame_executed d inp (.fish pc)).pool]
          exact works_fishSegment _ inp pc
      | timer hf =>
          refine works_onTimer d ?_
          rcases hf with rfl | rfl
          · exact works_buildFish inp.now inp.kinds
          · exact fun r => Works.op r (.update inp.now)
      | @newDesk pc hnew =>
          have hsame := sameGame_executed d inp pc
          rw [← hsame.pool]
          exact works_segment _ inp hnew fun hearly =>
            hsame.rests.roles (he pc (by simp [Job.pcs]) hearly)

/-! ### The pool is sound -/

/-- **The pool of some ledger**, up to the recorded bombs. -/
def Stocked (r : Roles) : Prop :=
  ∃ s : Ledger, LedgerInv s ∧ s.roles = { r with specialFish := s.roles.specialFish }

theorem stocked_empty : Stocked {} := ⟨Ledger.run [], ledgerInv_run [], rfl⟩

theorem takeBullet_special (r : Roles) (p : Bullet → Bool) (seat : ℤ) (t : Table ℕ ℕ) :
    (({ r with specialFish := t } : Roles).takeBullet p seat).1
      = { (r.takeBullet p seat).1 with specialFish := t } := by
  unfold Roles.takeBullet
  dsimp only
  split
  · rfl
  · split
    · rfl
    · rfl

/-- The operations do not look at the recorded bombs. -/
theorem apply_special (r : Roles) (o : Roles.Op) (t : Table ℕ ℕ) :
    ({ r with specialFish := t } : Roles).apply o = { r.apply o with specialFish := t } := by
  cases o with
  | activeFish now kind =>
      change ({ r with specialFish := t } : Roles).buildFish now [kind]
        = { r.buildFish now [kind] with specialFish := t }
      unfold Roles.buildFish Roles.buildFish Roles.activeFish
      dsimp only
      split
      · rfl
      · rfl
  | activeBullet seat now kind multiple =>
      change (({ r with specialFish := t } : Roles).loadBullet seat now kind multiple).1
        = { (r.loadBullet seat now kind multiple).1 with specialFish := t }
      unfold Roles.loadBullet Roles.activeBullet
      dsimp only
      split
      · rfl
      · rfl
  | freeFish fid =>
      change (({ r with specialFish := t } : Roles).freeFish fid).1
        = { (r.freeFish fid).1 with specialFish := t }
      unfold Roles.freeFish
      dsimp only
      split
      · rfl
      · rfl
  | freeBullet bid seat => exact takeBullet_special r _ seat t
  | freeBulletOfKind kind seat => exact takeBullet_special r _ seat t
  | update now => rfl
  | freeAll => rfl

theorem Stocked.op (h : Stocked r) (o : Roles.Op) : Stocked (r.apply o) := by
  obtain ⟨s, hs, heq⟩ := h
  refine ⟨s.apply o, hs.apply o, ?_⟩
  change s.roles.apply o = { r.apply o with specialFish := (s.roles.apply o).specialFish }
  rw [heq, apply_special]

theorem Stocked.special (h : Stocked r) (t : Table ℕ ℕ) : Stocked { r with specialFish := t } := by
  obtain ⟨s, hs, heq⟩ := h
  exact ⟨s, hs, heq⟩

theorem Stocked.step (h : Stocked r) (hs : PoolStep r r') : Stocked r' := by
  cases hs with
  | op o => exact h.op o
  | bomb f multiple => exact (h.op (.freeFish (r.fish f).id)).special _
  | pop id => exact h.special _

theorem Stocked.works (h : Stocked r) (hw : Works r r') : Stocked r' := by
  induction hw with
  | refl => exact h
  | tail _ hs ih => exact ih.step hs

/-- **The pool of every desk is sound**: it is what the operations make of it. -/
theorem stocked_of_reach {C : Sys → Ev → Prop} {id creater timelimit : ℕ} {pay : Pay} {s : Sys}
    (h : desk.Reach C (created id creater pay timelimit) s) : Stocked s.shared.pool := by
  refine desk_inv (I := fun d _ => Stocked d.pool) ?_ ?_ ?_ ?_ ?_
    (h.and_inv fun s hs => early_of_reach hs)
  · exact fun _ _ _ _ hI => hI
  · exact fun _ _ _ _ hI => hI
  · exact fun _ _ _ _ hI => hI
  · exact stocked_empty
  · rintro s e j inp rest ⟨-, he⟩ _ hp _ hI
    exact hI.works (works_job inp fun pc hpc => he pc (hp.mem_iff.2 (List.mem_append_left _ hpc)))

/-! ### The fish -/

/-- **A fish in the pool**, if it is active: it is stored under its own id, it is in no free
storage, and it has been made. -/
theorem Stocked.active (h : Stocked r) {id : ℕ} {f : Ref} (hf : r.fishActive.lookup id = some f) :
    (r.fish f).id = id ∧ f ∉ r.fishFree ∧ f < r.fishN ∧ id ≤ r.fishIdGen := by
  obtain ⟨s, hs, heq⟩ := h
  have hfree : s.roles.fishFree = r.fishFree := by rw [heq]
  have hact : s.roles.fishActive = r.fishActive := by rw [heq]
  have hfish : s.roles.fish = r.fish := by rw [heq]
  have hn : s.roles.fishN = r.fishN := by rw [heq]
  have hgen : s.roles.fishIdGen = r.fishIdGen := by rw [heq]
  rw [← hact] at hf
  have hmem : f ∈ vals s.roles.fishActive := mem_vals.2 ⟨id, hf⟩
  refine ⟨hfish ▸ hs.sound.own id f hf, fun hin => ?_,
    hn ▸ hs.fishMade f (List.mem_append_left _ hmem),
    hgen ▸ hs.sound.fishGen id (hs.sound.fishIds id f hf)⟩
  exact (List.nodup_append.1 hs.sound.fishOnce).2.2 f hmem f (hfree ▸ hin) rfl

theorem FishKept.trans {r r' r'' : Roles} (h : FishKept r r') (h' : FishKept r' r'') :
    FishKept r r'' where
  refs := h'.refs.trans h.refs
  active := fun id f hf => h.active id f (h'.active id f hf)
  fish := h'.fish.trans h.fish
  fishN := h'.fishN.trans h.fishN
  gen := h'.gen.trans h.gen

/-- **What an operation does to the fish**: it may free some, or it makes one. -/
theorem PoolStep.fish (h : PoolStep r r') :
    FishKept r r' ∨ ∃ now kind, r' = r.buildFish now [kind] := by
  cases h with
  | op o =>
      cases o with
      | activeFish now kind => exact Or.inr ⟨now, kind, rfl⟩
      | activeBullet seat now kind multiple =>
          refine Or.inl ?_
          change FishKept r (r.loadBullet seat now kind multiple).1
          unfold Roles.loadBullet Roles.activeBullet
          dsimp only
          split
          · exact .of_eq rfl rfl rfl rfl rfl
          · exact .of_eq rfl rfl rfl rfl rfl
      | freeFish fid => exact Or.inl (fishKept_freeFish r fid)
      | freeBullet bid seat => exact Or.inl (fishKept_takeBullet r _ seat)
      | freeBulletOfKind kind seat => exact Or.inl (fishKept_takeBullet r _ seat)
      | update now => exact Or.inl (fishKept_update r now)
      | freeAll => exact Or.inl (fishKept_freeAll r)
  | bomb f multiple =>
      exact Or.inl ((fishKept_freeFish r _).trans (.of_eq rfl rfl rfl rfl rfl))
  | pop id => exact Or.inl (.of_eq rfl rfl rfl rfl rfl)

end Halieutics
