/-
**Sweeping with a bomb fish.**

A bomb fish that has been caught entitles its catcher to a second request, `catchsweepfish`, with
the fish that the explosion has reached; these are then freed and paid with the multiple of the
bullet that hit the bomb.  `catchfish` records that multiple — but it frees the bomb as well, and
`catchsweepfish` begins by looking for the bomb among the active fish.  Ids of fish are never used
again, so a recorded bomb is never found: the second request does nothing.  For a bomb that is still
swimming the request goes on without a record, and it raises as soon as it has freed a fish.

Main definitions:

* `Halieutics.sweepRequest` — the request to its end, and what it adds to the stock;
* `Halieutics.SweepsRight` — what the request is for: it pays for a recorded bomb, and else nothing
  happens;
* `Halieutics.Sunk` — recorded bombs are not active, and never will be;
* `Halieutics.nothingToSweep` — **the condition**: the bomb is not recorded, and it is not active or
  none of the fish is.

Main results:

* `Halieutics.sunk_of_reach` — **recorded bombs are gone** in every reachable state;
* `Halieutics.sweepsRight_iff` — **a request is served right exactly if there is nothing to sweep**;
* `Halieutics.recorded_bomb_is_not_paid` — a bomb that was caught is not paid.
-/

import Halieutics.FishOps

set_option relaxedAutoImplicit false
set_option autoImplicit false

namespace Halieutics

open LuaTable Coroutine

/-! ### The request -/

/-- `desk:catchsweepfish` to its end, and what it adds to the stock: `update_stock(fish_score)`. -/
def sweepRequest (d : Desk) (u : Ref) (req : SweepReq) (inp : Inp) : Desk × ℤ :=
  match catchsweepfish d u req inp with
  | .ret d _ => (d, 0)
  | .wait d (.sweep seat score) => ((sweepPay d seat score).d, score)
  | .wait d _ => (d, 0)

/-- The roles of the game that is running. -/
def Desk.fishing (d : Desk) : Option Roles := d.mygame.bind Game.roles

/-- The configured multiple of an active fish. -/
def Roles.worth (r : Roles) (cfg : Cfg) (id : ℕ) : ℕ :=
  match r.getFish id with
  | none => 0
  | some f => ((cfgAt cfg.fishcfg (r.fish f).kind).map FishCfg.multiple).getD 0

/-- What a bomb recorded with the multiple `m` is to be paid: each of the active fish once. -/
def Roles.prize (r : Roles) (cfg : Cfg) (m : ℕ) (ids : List ℕ) : ℕ :=
  m * (ids.dedup.map (r.worth cfg)).sum

/-- **A recorded bomb is paid**: the fish are freed, the prize moves from the banker to the seat,
the stock goes down for a human, and the record is used up. -/
structure PaysSweep (d : Desk) (u : Ref) (req : SweepReq) (cfg : Cfg) (m : ℕ) (d' : Desk)
    (stock : ℤ) :
    Prop where
  fish : ∀ id, d'.pool.fishActive.lookup id =
    if id ∈ req.catchFishIds then none else d.pool.fishActive.lookup id
  scores : ∀ seat, d'.scoreAt seat = d.scoreAt seat +
    (if seat = req.seatId then d.pool.prize cfg m req.catchFishIds else 0) -
    (if seat = d.banker then d.pool.prize cfg m req.catchFishIds else 0)
  stock : stock = if (d.objs u).android then 0 else -(d.pool.prize cfg m req.catchFishIds : ℤ)
  records : ∀ id, d'.pool.specialFish.lookup id =
    if id = req.fishId then none else d.pool.specialFish.lookup id

/-- Fish, scores, stock and records are left alone. -/
structure LeavesGame (d d' : Desk) (stock : ℤ) : Prop where
  fish : ∀ id, d'.pool.fishActive.lookup id = d.pool.fishActive.lookup id
  scores : ∀ v, (d'.objs v).game = (d.objs v).game
  stock : stock = 0
  records : ∀ id, d'.pool.specialFish.lookup id = d.pool.specialFish.lookup id

/-- **What the request is for.** -/
def SweepsRight (d : Desk) (u : Ref) (req : SweepReq) (inp : Inp) : Prop :=
  match d.fishing.bind fun r => r.specialFish.lookup req.fishId with
  | some m =>
      PaysSweep d u req inp.cfg m (sweepRequest d u req inp).1 (sweepRequest d u req inp).2
  | none => LeavesGame d (sweepRequest d u req inp).1 (sweepRequest d u req inp).2

/-- **The condition**: the bomb is not recorded, and it is not an active bomb or none of the fish is
active. -/
def nothingToSweep (d : Desk) (req : SweepReq) : Prop :=
  ∀ r, d.fishing = some r → r.specialFish.lookup req.fishId = none ∧
    ((∀ f, r.getFish req.fishId = some f → isBombFish (r.fish f).kind = false) ∨
      ∀ id ∈ req.catchFishIds, r.getFish id = none)

/-! ### Recorded bombs are gone -/

/-- **Recorded bombs are gone**: their ids have been handed out, and they are not active. -/
structure Sunk (r : Roles) : Prop where
  ids : ∀ f, (r.fish f).id ≤ r.fishIdGen
  gone : ∀ id m, r.specialFish.lookup id = some m →
    id ≤ r.fishIdGen ∧ r.fishActive.lookup id = none

variable {r r' : Roles}

theorem sunk_empty : Sunk {} where
  ids := fun _ => Nat.le_refl _
  gone := fun _ _ h => by cases h

/-- Fish may be freed, and records used up. -/
theorem Sunk.kept (h : Sunk r) (hk : FishKept r r')
    (hspecial : ∀ id m, r'.specialFish.lookup id = some m → r.specialFish.lookup id = some m) :
    Sunk r' where
  ids := by
    rw [hk.fish, hk.gen]
    exact h.ids
  gone := by
    intro id m hm
    obtain ⟨hle, hnone⟩ := h.gone id m (hspecial id m hm)
    rw [hk.gen]
    refine ⟨hle, Option.eq_none_iff_forall_ne_some.2 fun f hf => ?_⟩
    exact absurd (hnone.symm.trans (hk.active id f hf)) (by simp)

/-- A new fish gets an id that was never handed out. -/
theorem Sunk.activeFish (h : Sunk r) (now : ℕ) : Sunk (r.activeFish now).1 := by
  have hids : ∀ (f : Ref) (x : Fish), x.id = r.fishIdGen + 1 →
      ∀ g, (Function.update r.fish f x g).id ≤ r.fishIdGen + 1 := by
    intro f x hx g
    by_cases hg : g = f
    · subst hg
      rw [Function.update_self, hx]
    · rw [Function.update_of_ne hg]
      exact Nat.le_succ_of_le (h.ids g)
  have hgone : ∀ (f : Ref) id m, r.specialFish.lookup id = some m →
      id ≤ r.fishIdGen + 1 ∧ (r.fishActive.insert (r.fishIdGen + 1) f).lookup id = none := by
    intro f id m hm
    obtain ⟨hle, hnone⟩ := h.gone id m hm
    have hne : id ≠ r.fishIdGen + 1 := by omega
    rw [lookup_insert_eq, if_neg hne]
    exact ⟨Nat.le_succ_of_le hle, hnone⟩
  unfold Roles.activeFish
  dsimp only
  split
  · rename_i f _
    exact ⟨hids f _ rfl, hgone f⟩
  · exact ⟨hids r.fishN _ rfl, hgone r.fishN⟩

theorem Sunk.buildFish (now : ℕ) (kinds : List ℤ) (h : Sunk r) : Sunk (r.buildFish now kinds) := by
  induction kinds generalizing r with
  | nil => exact h
  | cons k ks ih =>
      refine ih ?_
      have h' := h.activeFish now
      generalize r.activeFish now = p at h'
      refine ⟨?_, h'.gone⟩
      intro f
      by_cases hf : f = p.2
      · subst hf
        simpa using h'.ids p.2
      · simpa [Function.update_of_ne hf] using h'.ids f

theorem lookup_freeFish (r : Roles) (fid id : ℕ) :
    (r.freeFish fid).1.fishActive.lookup id = if id = fid then none
    else r.fishActive.lookup id := by
  unfold Roles.freeFish
  split
  · rename_i hnone
    by_cases hid : id = fid
    · rw [if_pos hid, hid, hnone]
    · rw [if_neg hid]
  · exact lookup_erase_eq _ _ _

theorem special_freeFish (r : Roles) (fid : ℕ) :
    (r.freeFish fid).1.specialFish = r.specialFish := by
  unfold Roles.freeFish
  split <;> rfl

theorem Sunk.freeFish (h : Sunk r) (fid : ℕ) : Sunk (r.freeFish fid).1 := by
  refine h.kept (fishKept_freeFish r fid) fun id m hm => ?_
  rw [special_freeFish] at hm
  exact hm

/-- **A bomb is recorded** after it has been freed. -/
theorem Sunk.record (h : Sunk r) (f : Ref) (multiple : ℕ) :
    Sunk ((r.freeFish (r.fish f).id).1.specialRecord (r.fish f).id multiple) where
  ids := (h.freeFish _).ids
  gone := by
    intro id m hm
    have hm : ((r.freeFish (r.fish f).id).1.specialFish.insert (r.fish f).id multiple).lookup id
        = some m := hm
    rw [lookup_insert_eq] at hm
    split at hm
    · rename_i hid
      refine ⟨?_, ?_⟩
      · rw [hid]
        exact (fishKept_freeFish r _).gen.symm ▸ h.ids f
      · change (r.freeFish (r.fish f).id).1.fishActive.lookup id = none
        rw [lookup_freeFish, if_pos hid]
    · exact (h.freeFish _).gone id m hm

theorem Sunk.pop (h : Sunk r) (id : ℕ) : Sunk (r.specialPop id).1 := by
  refine h.kept (.of_eq rfl rfl rfl rfl rfl) fun id' m hm => ?_
  have hm : (r.specialFish.erase id).lookup id' = some m := hm
  rw [lookup_erase_eq] at hm
  split at hm
  · cases hm
  · exact hm

theorem Sunk.update (h : Sunk r) (now : ℕ) : Sunk (r.update now) :=
  h.kept (fishKept_update r now) fun _ _ hm => hm

theorem Sunk.takeBullet (h : Sunk r) (p : Bullet → Bool) (seat : ℤ) :
    Sunk (r.takeBullet p seat).1 := by
  refine h.kept (fishKept_takeBullet r p seat) fun id m hm => ?_
  unfold Roles.takeBullet at hm
  split at hm
  · exact hm
  · split at hm
    · exact hm
    · exact hm

theorem Sunk.freeAll (h : Sunk r) : Sunk r.freeAll :=
  h.kept (fishKept_freeAll r) fun _ _ hm => hm

/-! ### Runs -/

/-- **Every operation keeps recorded bombs out of the game.** -/
theorem Sunk.step (h : Sunk r) (hs : PoolStep r r') : Sunk r' := by
  cases hs with
  | op o =>
      cases o with
      | activeFish now kind => exact h.buildFish now [kind]
      | activeBullet seat now kind multiple =>
          change Sunk (r.loadBullet seat now kind multiple).1
          unfold Roles.loadBullet Roles.activeBullet
          dsimp only
          split
          · exact h.kept (.of_eq rfl rfl rfl rfl rfl) fun _ _ hm => hm
          · exact h.kept (.of_eq rfl rfl rfl rfl rfl) fun _ _ hm => hm
      | freeFish fid => exact h.freeFish fid
      | freeBullet bid seat => exact h.takeBullet _ seat
      | freeBulletOfKind kind seat => exact h.takeBullet _ seat
      | update now => exact h.update now
      | freeAll => exact h.freeAll
  | bomb f multiple => exact h.record f multiple
  | pop id => exact h.pop id

theorem Sunk.works (h : Sunk r) (hw : Works r r') : Sunk r' := by
  induction hw with
  | refl => exact h
  | tail _ hs ih => exact ih.step hs

/-- **Recorded bombs are gone** in every reachable state. -/
theorem sunk_of_reach {id creater timelimit : ℕ} {pay : Pay} {s : Sys}
    (h : desk.Reach Always (created id creater pay timelimit) s) : Sunk s.shared.pool := by
  refine desk_inv (I := fun d _ => Sunk d.pool) ?_ ?_ ?_ ?_ ?_
    (h.and_inv fun s hs => early_of_reach hs)
  · exact fun _ _ _ _ hI => hI
  · exact fun _ _ _ _ hI => hI
  · exact fun _ _ _ _ hI => hI
  · exact sunk_empty
  · rintro s e j inp rest ⟨-, he⟩ _ hp _ hI
    exact hI.works (works_job inp fun pc hpc => he pc (hp.mem_iff.2 (List.mem_append_left _ hpc)))

/-! ### The request -/

/-- Moving nothing leaves every score as it is. -/
theorem game_calc_zero (d : Desk) (me banker : ℤ) (v : Ref) :
    ((calcFishscoreAll d me banker 0).1.objs v).game = (d.objs v).game := by
  have add : ∀ (d : Desk) (u : Ref) (score : ℤ), score = 0 →
      ((adduserscore d u score).1.objs v).game = (d.objs v).game := by
    rintro d u score rfl
    unfold adduserscore
    split
    · rfl
    · rename_i s hs
      by_cases hv : v = u
      · subst hv
        simp [Desk.setUser, hs]
      · simp [Desk.setUser, Function.update_of_ne hv]
  unfold calcFishscoreAll
  dsimp only
  split
  · rename_i me banker _ _
    split
    · exact (add _ banker (-0) (by simp)).trans (add d me 0 rfl)
    · exact add d me 0 rfl
  · rfl

/-- Without active fish the loop has nothing to do. -/
theorem sweepLoop_idle (cfg : Cfg) (multiply : Option ℕ) {ids : List ℕ} (score : ℕ)
    (h : ∀ id ∈ ids, r.getFish id = none) :
    sweepLoop cfg multiply r score ids = (r, score, true) := by
  induction ids with
  | nil => rfl
  | cons v vs ih =>
      obtain ⟨hv, hvs⟩ := List.forall_mem_cons.1 h
      have hfree : r.freeFish v = (r, none) := by
        have hv : r.fishActive.lookup v = none := hv
        simp [Roles.freeFish, hv]
      unfold sweepLoop
      rw [hfree]
      exact ih hvs

/-- The loop frees fish only. -/
theorem sweepLoop_none (cfg : Cfg) (multiply : Option ℕ) (ids : List ℕ) (score : ℕ) {id : ℕ}
    (h : r.fishActive.lookup id = none) :
    (sweepLoop cfg multiply r score ids).1.fishActive.lookup id = none := by
  induction ids generalizing r score with
  | nil => exact h
  | cons v vs ih =>
      have hfree : (r.freeFish v).1.fishActive.lookup id = none := by
        rw [lookup_freeFish]
        split
        · rfl
        · exact h
      unfold sweepLoop
      split
      · rename_i heq
        rw [heq] at hfree
        exact ih score hfree
      · rename_i heq
        rw [heq] at hfree
        split
        · exact ih score hfree
        · split
          · exact hfree
          · exact ih _ hfree

/-- The first active fish of the list is freed, whatever happens afterwards. -/
theorem sweepLoop_frees (cfg : Cfg) (multiply : Option ℕ) {ids : List ℕ} (score : ℕ)
    (h : ∃ id ∈ ids, r.getFish id ≠ none) :
    ∃ id, r.fishActive.lookup id ≠ none ∧
      (sweepLoop cfg multiply r score ids).1.fishActive.lookup id = none := by
  induction ids with
  | nil => simp at h
  | cons v vs ih =>
      cases hv : r.fishActive.lookup v with
      | none =>
          have hfree : r.freeFish v = (r, none) := by simp [Roles.freeFish, hv]
          have hvs : ∃ id ∈ vs, r.getFish id ≠ none := by
            obtain ⟨id, hid, hne⟩ := h
            rcases List.mem_cons.1 hid with rfl | hid
            · exact absurd hv hne
            · exact ⟨id, hid, hne⟩
          unfold sweepLoop
          rw [hfree]
          exact ih hvs
      | some f =>
          refine ⟨v, by simp [hv], ?_⟩
          have hfree : (r.freeFish v).1.fishActive.lookup v = none := by
            rw [lookup_freeFish, if_pos rfl]
          unfold sweepLoop
          split
          · rename_i heq
            rw [heq] at hfree
            exact sweepLoop_none cfg multiply vs score hfree
          · rename_i heq
            rw [heq] at hfree
            split
            · exact sweepLoop_none cfg multiply vs score hfree
            · split
              · exact hfree
              · exact sweepLoop_none cfg _ vs _ hfree

section Request

variable {d : Desk} {u : Ref} {req : SweepReq} {inp : Inp} {g : Game}

theorem pool_sweepRequest (d : Desk) (u : Ref) (req : SweepReq) (inp : Inp) :
    (sweepRequest d u req inp).1.pool = (catchsweepfish d u req inp).d.pool := by
  unfold sweepRequest
  split
  · rename_i heq
    rw [heq]
    rfl
  · rename_i heq
    rw [heq, pool_sweepPay]
    rfl
  · rename_i heq
    rw [heq]
    rfl

/-- A desk that is returned as it is. -/
theorem leavesGame_refl (d : Desk) : LeavesGame d d 0 :=
  ⟨fun _ => rfl, fun _ => rfl, rfl, fun _ => rfl⟩

/-- Without a bomb the request does nothing. -/
theorem catchsweepfish_noBomb (u : Ref) (req : SweepReq) (inp : Inp)
    (hfish : ∀ r, d.fishing = some r →
    ∀ f, r.getFish req.fishId = some f → isBombFish (r.fish f).kind = false) :
    ∃ r, catchsweepfish d u req inp = .ret d r := by
  unfold catchsweepfish
  cases hg : d.mygame with
  | none => exact ⟨_, rfl⟩
  | some g =>
      dsimp only
      cases hr : g.roles with
      | none => exact ⟨_, rfl⟩
      | some r =>
          dsimp only
          cases hf : r.getFish req.fishId with
          | none => exact ⟨_, rfl⟩
          | some f =>
              have hbomb := hfish r (by rw [Desk.fishing, hg]; exact hr) f hf
              simp only [hbomb, Bool.not_false, if_true]
              exact ⟨_, rfl⟩

/-- With a bomb the request runs its loop. -/
theorem catchsweepfish_bomb {f : Ref} (hg : d.mygame = some g) (hr : g.roles = some r)
    (hf : r.getFish req.fishId = some f) (hbomb : isBombFish (r.fish f).kind = true) :
    (catchsweepfish d u req inp).d.pool =
      (sweepLoop inp.cfg (r.specialPop req.fishId).2 (r.specialPop req.fishId).1 0
        req.catchFishIds).1 := by
  simp only [catchsweepfish, hg, hr, hf, hbomb, Bool.not_true, Bool.false_eq_true, if_false]
  split
  · rfl
  · split
    · rw [pool_sweepPay]
      rfl
    · rfl

/-- A bomb without a record and without active fish changes nothing. -/
theorem leavesGame_idle {f : Ref} (hg : d.mygame = some g) (hr : g.roles = some r)
    (hf : r.getFish req.fishId = some f) (hbomb : isBombFish (r.fish f).kind = true)
    (hrec : r.specialFish.lookup req.fishId = none)
    (hids : ∀ id ∈ req.catchFishIds, r.getFish id = none) :
    LeavesGame d (sweepRequest d u req inp).1 (sweepRequest d u req inp).2 := by
  have hpop : ∀ id, (r.specialPop req.fishId).1.specialFish.lookup id =
    r.specialFish.lookup id := by
    intro id
    change (r.specialFish.erase req.fishId).lookup id = _
    rw [lookup_erase_eq]
    split
    · rename_i hid
      rw [hid, hrec]
    · rfl
  have hloop := sweepLoop_idle (r := (r.specialPop req.fishId).1) inp.cfg
    (r.specialPop req.fishId).2 0 hids
  have hpool : d.pool = r := pool_eq (game_of_mygame hg).1 hr
  have hout : (sweepRequest d u req inp).1.pool = (r.specialPop req.fishId).1 := by
    rw [pool_sweepRequest, catchsweepfish_bomb hg hr hf hbomb, hloop]
  have hreq : sweepRequest d u req inp =
      ((sweepPay (d.withRoles g (r.specialPop req.fishId).1) req.seatId 0).d, 0) := by
    obtain ⟨x, hx⟩ := sweepPay_cases (d.withRoles g (r.specialPop req.fishId).1) req.seatId 0
    cases ha : (d.objs u).android with
    | true =>
        have heq : catchsweepfish d u req inp =
            sweepPay (d.withRoles g (r.specialPop req.fishId).1) req.seatId 0 := by
          simp [catchsweepfish, hg, hr, hf, hbomb, hloop, Desk.withRoles, ha]
        rw [sweepRequest, heq, hx]
        rfl
    | false =>
        have heq : catchsweepfish d u req inp =
            .wait (d.withRoles g (r.specialPop req.fishId).1) (.sweep req.seatId 0) := by
          simp [catchsweepfish, hg, hr, hf, hbomb, hloop, Desk.withRoles, ha]
        rw [sweepRequest, heq]
        rfl
  refine ⟨?_, ?_, by rw [hreq], ?_⟩
  · intro id
    rw [hout, hpool]
    rfl
  · intro v
    obtain ⟨x, hx⟩ := sweepPay_cases (d.withRoles g (r.specialPop req.fishId).1) req.seatId 0
    rw [hreq, hx]
    exact game_calc_zero _ _ _ v
  · intro id
    rw [hout, hpool]
    exact hpop id

end Request

/-- **A request is served right exactly if there is nothing to sweep**, in every reachable state. -/
theorem sweepsRight_iff {id creater timelimit : ℕ} {pay : Pay} {s : Sys}
    (h : desk.Reach Always (created id creater pay timelimit) s) (u : Ref) (req : SweepReq)
    (inp : Inp) : SweepsRight s.shared u req inp ↔ nothingToSweep s.shared req := by
  have hsunk := sunk_of_reach h
  generalize s.shared = d at hsunk
  unfold SweepsRight
  constructor
  · intro hright r hr
    obtain ⟨g, hg, hroles⟩ := Option.bind_eq_some_iff.1 hr
    have hpool : d.pool = r := pool_eq (game_of_mygame hg).1 hroles
    cases hrec : r.specialFish.lookup req.fishId with
    | some m =>
        -- the bomb is not found, and its record stays
        rw [hr, Option.bind_some, hrec] at hright
        have hgone := (hsunk.gone req.fishId m (by rw [hpool]; exact hrec)).2
        have hsame : (sweepRequest d u req inp).1 = d := by
          obtain ⟨x, hx⟩ := catchsweepfish_noBomb (d := d) u req inp (by
            intro r' hr' f hf
            rw [hr, Option.some_inj] at hr'
            subst hr'
            rw [Roles.getFish, ← hpool, hgone] at hf
            cases hf)
          rw [sweepRequest, hx]
        have hused := hright.records req.fishId
        rw [hsame, if_pos rfl, hpool, hrec] at hused
        cases hused
    | none =>
        rw [hr, Option.bind_some, hrec] at hright
        refine ⟨rfl, ?_⟩
        by_contra hno
        simp only [not_or, not_forall, Bool.not_eq_false] at hno
        obtain ⟨⟨f, hf, hbomb⟩, id, hid, hactive⟩ := hno
        obtain ⟨id', hin, hout⟩ := sweepLoop_frees (r := (r.specialPop req.fishId).1) inp.cfg
          (r.specialPop req.fishId).2 0 ⟨id, hid, hactive⟩
        have hkept := hright.fish id'
        rw [pool_sweepRequest, catchsweepfish_bomb hg hroles hf hbomb, hout, hpool] at hkept
        exact hin hkept.symm
  · intro hnothing
    cases hr : d.fishing with
    | none =>
        obtain ⟨x, hx⟩ := catchsweepfish_noBomb (d := d) u req inp (by simp [hr])
        rw [Option.bind_none, sweepRequest, hx]
        exact leavesGame_refl d
    | some r =>
        obtain ⟨hrec, hidle⟩ := hnothing r hr
        obtain ⟨g, hg, hroles⟩ := Option.bind_eq_some_iff.1 hr
        rw [Option.bind_some, hrec]
        by_cases hbomb : ∀ f, r.getFish req.fishId = some f → isBombFish (r.fish f).kind = false
        · obtain ⟨x, hx⟩ := catchsweepfish_noBomb (d := d) u req inp (by
            intro r' hr'
            rw [hr, Option.some_inj] at hr'
            subst hr'
            exact hbomb)
          rw [sweepRequest, hx]
          exact leavesGame_refl d
        · simp only [not_forall, Bool.not_eq_false] at hbomb
          obtain ⟨f, hf, hb⟩ := hbomb
          refine leavesGame_idle hg hroles hf hb hrec (hidle.resolve_left fun hno => ?_)
          rw [hno f hf] at hb
          cases hb

/-- A configuration in which every fish counts two. -/
def sea : Cfg :=
  { maxBulletMultiple := 10, bulletcfg := [⟨0, some 1⟩],
    fishcfg := (List.range 24).map fun k => ⟨k, 2, none⟩ }

/-- A game with a bomb and another fish. -/
def bombOn : List Ev :=
  allSit ++ allReady ++ [.resume 0 {}, .resume 0 {}, .resume 0 {},
    .resume 0 { timeout := true, roll := 1 }, .resume 0 { timeout := true, kinds := [23, 0] }]

/-- User 2 fires and catches the bomb. -/
def catchBomb : List Ev :=
  [.call (.client 2 (.userfire (some 0))) { cfg := sea },
   .call (.client 2 (.catchfish ⟨2, 1, 0, 1⟩)) { cfg := sea },
   .resume 1 { ret := 100, hit := true }, .resume 1 {}]

/-- A request for a fish that is no bomb. -/
theorem sweepsRight_noBomb :
    ∃ s, desk.Reach Always (created 100001 1 ⟨true, 3⟩ 30) s ∧
      (s.shared.fishing.bind fun r => r.getFish 2).isSome = true ∧
      SweepsRight s.shared 1 ⟨2, 2, [1]⟩ { cfg := sea } := by
  obtain ⟨s, hs, hp⟩ := Machine.exists_reach bombOn
    (p := fun s => s.shared.fishing.any fun r => (r.getFish 2).any fun f =>
      !isBombFish (r.fish f).kind && (r.specialFish.lookup 2).isNone) (C := Always)
    (i := created 100001 1 ⟨true, 3⟩ 30) (M := desk) (by decide +kernel)
  obtain ⟨r, hr, hp⟩ := (Option.any_eq_true _ _).1 hp
  obtain ⟨f, hf, hp⟩ := (Option.any_eq_true _ _).1 hp
  simp only [Bool.and_eq_true, Bool.not_eq_true', Option.isNone_iff_eq_none] at hp
  refine ⟨s, hs, by rw [hr, Option.bind_some, hf]; rfl, (sweepsRight_iff hs _ _ _).2 ?_⟩
  intro r' hr'
  rw [hr, Option.some_inj] at hr'
  subst hr'
  refine ⟨hp.2, Or.inl fun f' hf' => ?_⟩
  have hf' : r.getFish 2 = some f' := hf'
  rw [hf, Option.some_inj] at hf'
  exact hf' ▸ hp.1

/-- **A bomb that was caught is not paid**: the request that is to sweep the other fish finds the
bomb gone, and the record stays. -/
theorem recorded_bomb_is_not_paid :
    ¬ ∀ (id creater timelimit : ℕ) (pay : Pay) (s : Sys) (u : Ref) (req : SweepReq) (inp : Inp),
      desk.Reach Always (created id creater pay timelimit) s → SweepsRight s.shared u req inp := by
  intro hall
  obtain ⟨s, hs, hp⟩ := Machine.exists_reach (bombOn ++ catchBomb)
    (p := fun s => (s.shared.fishing.bind fun r => r.specialFish.lookup 1) == some 1 &&
      (sweepRequest s.shared 1 ⟨2, 1, [2]⟩ { cfg := sea }).1.pool.specialFish.lookup 1 == some 1)
    (C := Always) (i := created 100001 1 ⟨true, 3⟩ 30) (M := desk) (by decide +kernel)
  rw [Bool.and_eq_true, beq_iff_eq, beq_iff_eq] at hp
  have hright := hall _ _ _ _ s 1 ⟨2, 1, [2]⟩ { cfg := sea } hs
  unfold SweepsRight at hright
  rw [hp.1] at hright
  have hused := hright.records 1
  rw [hp.2, if_pos rfl] at hused
  cases hused

end Halieutics
