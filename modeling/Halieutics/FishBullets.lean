/-
**No free shots.**

`userfire` charges the shooter before it hands out a bullet, and `catchfish` resolves a bullet that
is active.  Bullets are pooled objects, so a bullet object is charged many times in its life; what
is charged once is its *id*, which `ActiveBullet` takes from a counter.  A charged bullet is thus a
voucher (`Halieutics.Voucher`): numbered when it is paid for, outstanding while it is active,
redeemed by `catchfish`, and it lapses when it expires.

The charge is taken by `calc_fishscore_all`, which silently does nothing when it does not find the
shooter and the banker; the bullet is handed out nevertheless.  Nobody is the banker before the
bank is decided, and a user for whom a seat is pending is not found.

Main definitions:

* `Halieutics.Act.voucher`, `Halieutics.NoFreeShots` — charged and resolved bullets as vouchers;
* `Halieutics.Roles.vouchers`, `Halieutics.Pooled` — the active bullets as outstanding vouchers, and
  the invariant of the pool of bullets;
* `Halieutics.FiresFunded` — **the condition**: whoever fires is found, and so is the banker.

Main results:

* `Halieutics.Pooled.load`, `Halieutics.Pooled.take`, `Halieutics.Pooled.kept` — what the storages
  of bullets do;
* `Halieutics.noFreeShots_of_firesFunded` — **no free shots** in every run under the condition;
* `Halieutics.fire_before_banker_is_free` — a bullet fired before there is a banker is free.
-/

import Halieutics.Voucher
import Halieutics.FishScores

set_option relaxedAutoImplicit false
set_option autoImplicit false

namespace Halieutics

open LuaTable Coroutine

/-! ### Charged and resolved bullets -/

/-- A bullet that was charged is issued for its seat and its multiple; resolving a bullet redeems
it.  A bullet that was not charged is no voucher. -/
def Act.voucher : Act → Option (Voucher.Entry (ℤ × ℕ))
  | .mark (.fired id seat multiple dme dbanker) =>
      if dme = -multiple ∧ dbanker = multiple then some (.issued id (seat, multiple)) else none
  | .mark (.resolved id seat multiple) => some (.redeemed id (seat, multiple))
  | _ => none

/-- **No free shots**: every bullet that `catchfish` resolved was charged before to the same seat,
by exactly its multiple and in favour of the banker, and no charge backs two of them. -/
def NoFreeShots (hist : List Act) : Prop := Voucher.Honest (hist.filterMap Act.voucher)

instance (hist : List Act) : Decidable (NoFreeShots hist) :=
  inferInstanceAs (Decidable (Voucher.Honest _))

/-! ### The pool of bullets -/

/-- The voucher that an active bullet of a seat is. -/
def Roles.voucher (r : Roles) (seat : ℤ) (b : Ref) : ℕ × (ℤ × ℕ) :=
  ((r.bullets b).id, (seat, (r.bullets b).multiple))

/-- The active bullets, as vouchers. -/
def Roles.vouchers (r : Roles) : List (ℕ × (ℤ × ℕ)) :=
  r.bulletActive.entries.flatMap fun e => e.2.map (r.voucher e.1)

/-- **The pool of bullets**: no object is in two places, and the active ones agree with the
history. -/
structure Pooled (r : Roles) (hist : List (Voucher.Entry (ℤ × ℕ))) : Prop where
  refs : (r.activeBullets ++ r.bulletFree).Nodup
  made : ∀ b ∈ r.activeBullets ++ r.bulletFree, b < r.bulletN
  book : Voucher.Inv r.bulletIdGen r.vouchers hist

/-- The entries of a table of lists, with those of one key in front. -/
theorem flatMap_perm_erase {γ : Type} (t : Table ℤ (List Ref)) (k : ℤ) (f : ℤ → Ref → γ) :
    (t.entries.flatMap fun e => e.2.map (f e.1)).Perm
      (((t.lookup k).getD []).map (f k) ++ (t.erase k).entries.flatMap fun e =>
        e.2.map (f e.1)) := by
  cases h : t.lookup k with
  | none =>
      rw [entries_erase_of_none h]
      exact List.Perm.refl _
  | some v => exact (entries_perm_erase h).flatMap_right _

theorem flatMap_insert {γ : Type} (t : Table ℤ (List Ref)) (k : ℤ) (v : List Ref)
    (f : ℤ → Ref → γ) :
    ((t.insert k v).entries.flatMap fun e => e.2.map (f e.1))
      = v.map (f k) ++ (t.erase k).entries.flatMap fun e => e.2.map (f e.1) := by
  rw [entries_insert, List.flatMap_cons]

theorem activeBullets_eq (r : Roles) :
    r.activeBullets = r.bulletActive.entries.flatMap fun e => e.2.map ((fun _ b => b) e.1) := by
  simp only [Roles.activeBullets, vals, List.flatMap_def, List.map_id']

/-- One more bullet at the end of a seat's list. -/
theorem flatMap_append {γ : Type} (t : Table ℤ (List Ref)) (k : ℤ) (b : Ref) {f g : ℤ → Ref → γ}
    (hfg : ∀ e ∈ t.entries, ∀ x ∈ e.2, g e.1 x = f e.1 x) :
    ((t.insert k ((t.lookup k).getD [] ++ [b])).entries.flatMap fun e => e.2.map (g e.1)).Perm
      (g k b :: t.entries.flatMap fun e => e.2.map (f e.1)) := by
  have hg : (t.entries.flatMap fun e => e.2.map (g e.1))
      = t.entries.flatMap fun e => e.2.map (f e.1) :=
    List.flatMap_congr fun e he => List.map_congr_left fun x hx => hfg e he x hx
  rw [flatMap_insert, List.map_append, List.append_assoc, ← hg]
  refine List.perm_middle.trans (List.Perm.cons _ ?_)
  exact (flatMap_perm_erase t k g).symm

/-- One bullet of a seat's list less. -/
theorem flatMap_take {γ : Type} {t : Table ℤ (List Ref)} {k : ℤ} {mine mine' : List Ref} {b : Ref}
    (hk : t.lookup k = some mine) (hp : mine.Perm (b :: mine')) (f : ℤ → Ref → γ) :
    (t.entries.flatMap fun e => e.2.map (f e.1)).Perm
      (f k b :: (t.insert k mine').entries.flatMap fun e => e.2.map (f e.1)) := by
  refine (flatMap_perm_erase t k f).trans ?_
  rw [hk, flatMap_insert]
  exact ((hp.map _).append_right _)

/-- The object `ActiveBullet` hands out is not in use. -/
theorem loadBullet_spec (r : Roles) (seat : ℤ) (now : ℕ) (kind : ℤ) (multiple : ℕ) :
    ∃ b free n, (r.loadBullet seat now kind multiple).1.bulletActive
        = r.bulletActive.insert seat ((r.bulletActive.lookup seat).getD [] ++ [b]) ∧
      (r.loadBullet seat now kind multiple).1.bulletFree = free ∧
      (r.loadBullet seat now kind multiple).1.bulletN = n ∧
      (r.loadBullet seat now kind multiple).1.bulletIdGen = r.bulletIdGen + 1 ∧
      (∀ x, x ≠ b → (r.loadBullet seat now kind multiple).1.bullets x = r.bullets x) ∧
      (r.loadBullet seat now kind multiple).1.bullets b
        = (r.loadBullet seat now kind multiple).2 ∧
      (r.loadBullet seat now kind multiple).2.id = r.bulletIdGen + 1 ∧
      (r.loadBullet seat now kind multiple).2.multiple = multiple ∧
      ((r.bulletFree = free ++ [b] ∧ n = r.bulletN) ∨
       (r.bulletFree = [] ∧ free = [] ∧ b = r.bulletN ∧ n = r.bulletN + 1)) := by
  unfold Roles.loadBullet Roles.activeBullet
  dsimp only
  cases h : r.bulletFree.getLast? with
  | some b =>
      obtain ⟨free, hfree⟩ := List.getLast?_eq_some_iff.1 h
      refine ⟨b, free, r.bulletN, rfl, by simp [hfree], rfl, rfl, ?_, by simp, by simp, rfl,
        Or.inl ⟨hfree, rfl⟩⟩
      intro x hx
      simp [Function.update_of_ne hx]
  | none =>
      have hfree : r.bulletFree = [] := List.getLast?_eq_none_iff.1 h
      refine ⟨r.bulletN, [], r.bulletN + 1, rfl, hfree, rfl, rfl, ?_, by simp, by simp, rfl,
        Or.inr ⟨hfree, rfl, rfl, rfl⟩⟩
      intro x hx
      simp [Function.update_of_ne hx]

/-- **A bullet is loaded**: a voucher is issued. -/
theorem Pooled.load {r : Roles} {hist : List (Voucher.Entry (ℤ × ℕ))} (seat : ℤ)
    (now : ℕ) (kind : ℤ)
    (multiple : ℕ) (h : Pooled r hist) :
    Pooled (r.loadBullet seat now kind multiple).1
      (.issued (r.loadBullet seat now kind multiple).2.id (seat, multiple) :: hist) := by
  obtain ⟨b, free, n, hactive, hfree, hn, hgen, hne, hself, hid, hmult, hb⟩ :=
    loadBullet_spec r seat now kind multiple
  generalize r.loadBullet seat now kind multiple = p at hactive hfree hn hgen hne hself hid hmult ⊢
  -- the object is not in use, whether it comes from the free list or is new
  have hrefs : (b :: (r.activeBullets ++ free)).Nodup ∧
      ∀ x ∈ b :: (r.activeBullets ++ free), x < n := by
    rcases hb with ⟨hfree', rfl⟩ | ⟨hfree', rfl, rfl, rfl⟩
    · have hperm : (r.activeBullets ++ r.bulletFree).Perm (b :: (r.activeBullets ++ free)) := by
        rw [hfree', ← List.append_assoc]
        exact List.perm_append_singleton _ _
      exact ⟨hperm.nodup_iff.1 h.refs, fun x hx => h.made x (hperm.mem_iff.2 hx)⟩
    · have hmade := h.made
      have hrefs := h.refs
      rw [hfree'] at hmade hrefs
      refine ⟨List.nodup_cons.2 ⟨fun hm => Nat.lt_irrefl _ (hmade _ hm), hrefs⟩, ?_⟩
      intro x hx
      rcases List.mem_cons.1 hx with rfl | hx
      · exact Nat.lt_succ_self _
      · exact Nat.lt_succ_of_lt (hmade x hx)
  have hin : ∀ e ∈ r.bulletActive.entries, ∀ x ∈ e.2, x ≠ b := by
    rintro e he x hx rfl
    refine (List.nodup_cons.1 hrefs.1).1 (List.mem_append_left _ ?_)
    rw [activeBullets_eq]
    exact List.mem_flatMap.2 ⟨e, he, by simpa using hx⟩
  have hact : p.1.activeBullets.Perm (b :: r.activeBullets) := by
    rw [activeBullets_eq, activeBullets_eq, hactive]
    exact flatMap_append r.bulletActive seat b (f := fun _ b => b) (g := fun _ b => b)
      fun _ _ _ _ => rfl
  refine ⟨?_, ?_, ?_⟩
  · rw [hfree]
    exact (hact.append_right free).nodup_iff.2 hrefs.1
  · rw [hfree, hn]
    exact fun x hx => hrefs.2 x ((hact.append_right free).mem_iff.1 hx)
  · rw [hgen, hid]
    refine h.book.issue ?_
    have hvouchers := flatMap_append r.bulletActive seat b (f := r.voucher) (g := p.1.voucher) (by
      intro e he x hx
      rw [Roles.voucher, Roles.voucher, hne x (hin e he x hx)])
    rw [← hactive] at hvouchers
    have hnew : p.1.voucher seat b = (r.bulletIdGen + 1, (seat, multiple)) := by
      rw [Roles.voucher, hself, hid, hmult]
    rw [hnew] at hvouchers
    exact hvouchers

theorem takeBullet_spec {r r' : Roles} {p : Bullet → Bool} {seat : ℤ} {b : Ref}
    (h : r.takeBullet p seat = (r', some b)) :
    ∃ mine mine', r.bulletActive.lookup seat = some mine ∧ mine.Perm (b :: mine') ∧
      r' = { r with
        bulletActive := r.bulletActive.insert seat mine', bulletFree := r.bulletFree ++ [b] } := by
  unfold Roles.takeBullet at h
  split at h
  · simp at h
  · rename_i mine hm
    split at h
    · simp at h
    · rename_i b' hb
      obtain ⟨rfl, hbb⟩ := Prod.mk.inj h
      obtain rfl := Option.some_inj.1 hbb
      refine ⟨mine, _, hm, ?_, rfl⟩
      obtain ⟨hp, l₁, l₂, rfl, hl₁⟩ := List.find?_eq_some_iff_append.1 hb
      rw [List.eraseP_append_right _ (by simpa using hl₁),
        List.eraseP_cons_of_pos (p := fun b => p (r.bullets b)) hp]
      exact List.perm_middle

/-- Nothing is taken when there is nothing to take. -/
theorem takeBullet_none {r r' : Roles} {p : Bullet → Bool} {seat : ℤ}
    (h : r.takeBullet p seat = (r', none)) : r' = r := by
  unfold Roles.takeBullet at h
  split at h
  · exact (Prod.mk.inj h).1.symm
  · split at h
    · exact (Prod.mk.inj h).1.symm
    · simp at h

theorem catchBullet_spec {r r' : Roles} {req : CatchReq} {b : Ref}
    (h : catchBullet r req = (r', some b)) :
    ∃ mine mine', r.bulletActive.lookup req.seatId = some mine ∧ mine.Perm (b :: mine') ∧
      r' = { r with
        bulletActive := r.bulletActive.insert req.seatId mine'
        bulletFree := r.bulletFree ++ [b] } := by
  unfold catchBullet at h
  split at h
  · rename_i r₁ b₁ hfree
    obtain ⟨rfl, hb⟩ := Prod.mk.inj h
    obtain rfl := Option.some_inj.1 hb
    exact takeBullet_spec hfree
  · rename_i r₁ hfree
    rw [takeBullet_none hfree] at h
    exact takeBullet_spec h

/-- **A bullet is taken out of the active storage**: its voucher is redeemed. -/
theorem Pooled.take {r r' : Roles} {hist : List (Voucher.Entry (ℤ × ℕ))} {req : CatchReq} {b : Ref}
    (hb : catchBullet r req = (r', some b)) (h : Pooled r hist) :
    Pooled r' (.redeemed (r'.bullets b).id (req.seatId, (r'.bullets b).multiple) :: hist) := by
  obtain ⟨mine, mine', hk, hp, rfl⟩ := catchBullet_spec hb
  have hact := flatMap_take hk hp fun _ b => b
  rw [← activeBullets_eq] at hact
  have hrefs : (r.activeBullets ++ r.bulletFree).Perm
      (Roles.activeBullets { r with
        bulletActive := r.bulletActive.insert req.seatId mine'
        bulletFree := r.bulletFree ++ [b] } ++ (r.bulletFree ++ [b])) := by
    refine (hact.append_right _).trans ?_
    rw [activeBullets_eq, ← List.append_assoc]
    exact (List.perm_append_singleton _ _).symm
  refine ⟨hrefs.nodup_iff.1 h.refs, fun x hx => h.made x (hrefs.mem_iff.2 hx), ?_⟩
  exact h.book.redeem (flatMap_take hk hp r.voucher)

/-- No bullet is loaded: bullets may be freed, and fish may do what they like. -/
structure Kept (r r' : Roles) : Prop where
  refs : (r'.activeBullets ++ r'.bulletFree).Subperm (r.activeBullets ++ r.bulletFree)
  vouchers : r'.vouchers.Subperm r.vouchers
  bulletN : r'.bulletN = r.bulletN
  gen : r'.bulletIdGen = r.bulletIdGen

theorem Pooled.kept {r r' : Roles} {hist : List (Voucher.Entry (ℤ × ℕ))} (hk : Kept r r')
    (h : Pooled r hist) : Pooled r' hist := by
  obtain ⟨l, hperm, hsub⟩ := hk.refs
  refine ⟨hperm.nodup_iff.1 (hsub.nodup h.refs), ?_, ?_⟩
  · intro b hb
    rw [hk.bulletN]
    exact h.made b (hsub.subset (hperm.mem_iff.2 hb))
  · rw [hk.gen]
    exact h.book.lapse hk.vouchers

theorem SameBullets.kept {r r' : Roles} (h : SameBullets r r') : Kept r r' := by
  have hact : r'.activeBullets = r.activeBullets := by
    rw [Roles.activeBullets, Roles.activeBullets, h.active]
  have hvoucher : r'.voucher = r.voucher := by
    funext seat b
    simp only [Roles.voucher, h.bullets]
  have hv : r'.vouchers = r.vouchers := by
    simp only [Roles.vouchers, h.active, hvoucher]
  refine ⟨?_, ?_, h.bulletN, h.gen⟩
  · rw [hact, h.free]
  · rw [hv]

theorem kept_freeAll (r : Roles) : Kept r r.freeAll :=
  ⟨List.nil_subperm, List.nil_subperm, rfl, rfl⟩

theorem sameBullets_buildFish (now : ℕ) (kinds : List ℤ) (r : Roles) :
    SameBullets r (r.buildFish now kinds) := by
  induction kinds generalizing r with
  | nil => exact .refl r
  | cons k ks ih =>
      refine SameBullets.trans ?_ (ih _)
      unfold Roles.activeFish
      dsimp only
      split <;> exact ⟨rfl, rfl, rfl, rfl, rfl⟩

/-- A table of lists, split by a test. -/
theorem flatten_filter_perm (ls : List (List Ref)) (p : Ref → Bool) :
    ((ls.map fun l => l.filter fun b => !p b).flatten ++ (ls.map (·.filter p)).flatten).Perm
      ls.flatten := by
  induction ls with
  | nil => exact List.Perm.refl _
  | cons l ls ih =>
      simp only [List.map_cons, List.flatten_cons]
      have hl : (l.filter (fun b => !p b) ++ l.filter p).Perm l :=
        List.perm_append_comm.trans (List.filter_append_perm p l)
      refine List.Perm.trans ?_ (hl.append ih)
      simp only [List.append_assoc]
      refine List.Perm.append_left _ ?_
      rw [← List.append_assoc, ← List.append_assoc]
      exact List.perm_append_comm.append_right _

theorem kept_update (r : Roles) (now : ℕ) : Kept r (r.update now) := by
  refine ⟨?_, ?_, rfl, rfl⟩
  · refine List.Perm.subperm ?_
    have h := flatten_filter_perm (vals r.bulletActive)
      fun b => decide ((r.bullets b).buildTick + bulletExpireTime ≤ now)
    simp only [Roles.activeBullets, Roles.update, vals_mapVals]
    refine List.Perm.trans ?_ (h.append_right r.bulletFree)
    rw [List.append_assoc]
    exact List.Perm.append_left _ List.perm_append_comm
  · refine List.Sublist.subperm ?_
    simp only [Roles.vouchers, Roles.update, mapVals, List.flatMap_map]
    exact List.Sublist.flatMap_right _ fun e _ => List.filter_sublist.map _

/-! ### The game of a desk -/

/-- The roles of the game, as far as there are any. -/
def Desk.pool (d : Desk) : Roles := (d.game.bind Game.roles).getD {}

/-- The charged and the resolved bullets of a desk. -/
def Desk.vouchers (d : Desk) : List (Voucher.Entry (ℤ × ℕ)) := d.hist.filterMap Act.voucher

/-- `new_desk` before the game has roles. -/
def Pc.early : Pc → Bool
  | .monitor | .ready | .start | .config => true
  | _ => false

/-- **The bullets of a desk agree with its history**, and there are none before the game has been
set up. -/
structure BulletInv (d : Desk) (l : List Pc) : Prop where
  pooled : Pooled d.pool d.vouchers
  early : ∀ pc ∈ l, pc.early = true → d.game.bind Game.roles = none

/-- No bullet is loaded or resolved, and the game is not set up. -/
structure Rests (d d' : Desk) : Prop where
  pool : Kept d.pool d'.pool
  vouchers : d'.vouchers = d.vouchers
  roles : d.game.bind Game.roles = none → d'.game.bind Game.roles = none

theorem Kept.refl (r : Roles) : Kept r r := (SameBullets.refl r).kept

theorem Kept.trans {r r' r'' : Roles} (h : Kept r r') (h' : Kept r' r'') : Kept r r'' :=
  ⟨h'.refs.trans h.refs, h'.vouchers.trans h.vouchers, h'.bulletN.trans h.bulletN,
    h'.gen.trans h.gen⟩

theorem Rests.trans {d e d' : Desk} (h : Rests d e) (h' : Rests e d') : Rests d d' :=
  ⟨h.pool.trans h'.pool, h'.vouchers.trans h.vouchers, fun hd => h'.roles (h.roles hd)⟩

theorem Rests.pooled {d d' : Desk} (h : Rests d d') (hd : Pooled d.pool d.vouchers) :
    Pooled d'.pool d'.vouchers := by
  rw [h.vouchers]
  exact hd.kept h.pool

/-- A desk whose game and whose history are the same. -/
theorem rests_of_eq {d d' : Desk} (hg : d'.game = d.game) (hh : d'.hist = d.hist) : Rests d d' := by
  refine ⟨?_, by rw [Desk.vouchers, Desk.vouchers, hh], by rw [hg]; exact id⟩
  rw [Desk.pool, Desk.pool, hg]
  exact .refl _

theorem filterMap_filter_game (hist : List Act) :
    (hist.filter Act.game).filterMap Act.voucher = hist.filterMap Act.voucher := by
  induction hist with
  | nil => rfl
  | cons a hist ih =>
      cases ha : a.game with
      | true => rw [List.filter_cons_of_pos ha, List.filterMap_cons, List.filterMap_cons, ih]
      | false =>
          have hv : a.voucher = none := by
            cases a with
            | rpc r => rfl
            | mark m => cases m <;> first | rfl | simp [Act.game] at ha
          rw [List.filter_cons_of_neg (by simp [ha]), List.filterMap_cons_none hv, ih]

theorem SameGame.roles {d d' : Desk} (h : SameGame d d') :
    d'.game.bind Game.roles = d.game.bind Game.roles := by
  have hg := congrArg (fun g : Option Game => g.bind Game.roles) h.game
  cases hd : d.game <;> cases hd' : d'.game <;> simp_all [Game.core]

theorem SameGame.rests {d d' : Desk} (h : SameGame d d') : Rests d d' := by
  refine ⟨?_, ?_, by rw [h.roles]; exact id⟩
  · rw [Desk.pool, Desk.pool, h.roles]
    exact .refl _
  · rw [Desk.vouchers, Desk.vouchers, ← filterMap_filter_game, h.acts, filterMap_filter_game]

theorem rests_calc (d : Desk) (me banker score : ℤ) :
    Rests d (calcFishscoreAll d me banker score).1 := by
  obtain ⟨objs, h⟩ := calc_frame d me banker score
  rw [h]
  exact rests_of_eq rfl rfl

theorem rests_withRoles {d : Desk} {g : Game} {r r' : Roles} (hg : d.game = some g)
    (hr : g.roles = some r) (h : Kept r r') : Rests d (d.withRoles g r') := by
  refine ⟨?_, rfl, by simp [hg, hr]⟩
  simpa [Desk.pool, Desk.withRoles, hg, hr] using h

theorem pool_eq {d : Desk} {g : Game} {r : Roles} (hg : d.game = some g) (hr : g.roles = some r) :
    d.pool = r := by
  simp [Desk.pool, hg, hr]

/-- **What the game does to the bullets.** -/
inductive Shot (d : Desk) (inp : Inp) (j : Job) : Desk → Prop
  | rests {d' : Desk} : Rests d d' → Shot d inp j d'
  | loads {u : Ref} {kind : Option ℤ} {k : ℤ} {multiple : ℕ} {g : Game} {r : Roles} {d₁ : Desk} :
      j.command d = some (u, .userfire kind) → inp.cfg.bullet kind = some (k, multiple) →
      (d.objs u).seat ≠ d.banker → (d.objs u).audience ≠ some true → d.mygame = some g →
      g.roles = some r → d₁ = (calcFishscoreAll d (d.objs u).seat d.banker (-multiple)).1 →
      Shot d inp j ((d₁.withRoles g (r.loadBullet (d.objs u).seat inp.now k multiple).1).mark
        (.fired (r.loadBullet (d.objs u).seat inp.now k multiple).2.id (d.objs u).seat multiple
          (d₁.scoreAt (d.objs u).seat - d.scoreAt (d.objs u).seat)
          (d₁.scoreAt d.banker - d.scoreAt d.banker)))
  | takes {req : CatchReq} {g : Game} {r r' : Roles} {b : Ref} :
      d.mygame = some g → g.roles = some r → catchBullet r req = (r', some b) →
      Shot d inp j ((d.withRoles g r').mark
        (.resolved (r'.bullets b).id req.seatId (r'.bullets b).multiple))

theorem rests_refl (d : Desk) : Rests d d := rests_of_eq rfl rfl

theorem rests_catchPay (d : Desk) (c : Catch) : Rests d (catchPay d c).d := by
  rcases catchPay_cases d c with ⟨-, r, h⟩ | ⟨g, r, r', hg, hr, hs, ⟨-, r, h⟩ | ⟨-, b, r, h⟩⟩
  · rw [h]; exact rests_refl d
  · rw [h]; exact rests_withRoles hg hr hs.kept
  · rw [h]
    refine (rests_withRoles hg hr hs.kept).trans ?_
    exact (rests_calc _ _ _ _).trans (rests_of_eq rfl rfl)

theorem rests_sweepPay (d : Desk) (seat : ℤ) (score : ℕ) : Rests d (sweepPay d seat score).d := by
  obtain ⟨r, h⟩ := sweepPay_cases d seat score
  rw [h]
  exact rests_calc _ _ _ _

theorem rests_fishSegment (d : Desk) (inp : Inp) (pc : FishPc) :
    Rests d (fishSegment d inp pc).d := by
  cases pc with
  | stock c =>
      rcases catchStock_cases d c inp with ⟨r, h⟩ | ⟨c', h⟩ | ⟨c', h⟩ | ⟨c', h⟩
      · rw [fishSegment, h]; exact rests_refl d
      · rw [fishSegment, h]; exact rests_refl d
      · rw [fishSegment, h]; exact rests_refl d
      · rw [fishSegment, h]; exact rests_catchPay d c'
  | miss c => exact rests_refl d
  | pay c => exact rests_catchPay d c
  | sweep seat score => exact rests_sweepPay d seat score

theorem rests_catchsweepfish (d : Desk) (u : Ref) (req : SweepReq) (inp : Inp) :
    Rests d (catchsweepfish d u req inp).d := by
  rcases catchsweepfish_cases d u req inp with
    ⟨r, h⟩ | ⟨g, r, r', score, hg, hr, hs, ⟨_, h⟩ | h | h⟩
  · rw [h]; exact rests_refl d
  · rw [h]; exact rests_withRoles (game_of_mygame hg).1 hr hs.kept
  · rw [h]; exact (rests_withRoles (game_of_mygame hg).1 hr hs.kept).trans (rests_sweepPay _ _ _)
  · rw [h]; exact rests_withRoles (game_of_mygame hg).1 hr hs.kept

theorem rests_mapRoles {d d' : Desk} {g g' : Game} {f : Roles → Roles} (hg : d.game = some g)
    (hg' : d'.game = some g') (hr : g'.roles = g.roles.map f) (hf : ∀ r, Kept r (f r))
    (hv : d'.vouchers = d.vouchers) : Rests d d' := by
  refine ⟨?_, hv, by simp [hg, hg', hr]⟩
  rw [Desk.pool, Desk.pool, hg, hg', Option.bind_some, Option.bind_some, hr]
  cases g.roles with
  | none => exact .refl _
  | some r => exact hf r

theorem rests_onTimer (d : Desk) {f : Roles → Roles} (hf : ∀ r, Kept r (f r)) :
    Rests d (onTimer d f).d := by
  unfold onTimer
  split
  · exact rests_refl d
  · rename_i g hg
    split
    · exact rests_mapRoles hg rfl rfl hf rfl
    · exact rests_refl d

/-- **What the handlers and the timers of the game do to the bullets.** -/
theorem shot_plays {d : Desk} {inp : Inp} {j : Job} {o : Out} (h : Plays d inp j o)
    (hj : ∀ pc ∈ j.pcs, pc.newDesk = false) : Shot d inp j o.d := by
  cases h with
  | @fire _ u kind hcmd =>
      rw [d_fish]
      rcases userfire_cases d u kind inp with
        ⟨r, h⟩ | ⟨g, k, m, hseat, haud, hg, hb, ⟨r, h⟩ | ⟨r, hr, -, h⟩⟩
      · rw [h]; exact .rests (rests_refl d)
      · rw [h]; exact .rests (rests_calc _ _ _ _)
      · rw [h]; exact .loads hcmd hb hseat haud hg hr rfl
  | @hit _ u req hcmd =>
      rw [d_fish]
      rcases catchfish_cases d u req inp with
        ⟨r, h⟩ | ⟨g, r, r', b, hg, hr, hb, ⟨_, h⟩ | ⟨f, fc, h⟩⟩
      · rw [h]; exact .rests (rests_refl d)
      · rw [h]; exact .takes hg hr hb
      · rw [h]; exact .takes hg hr hb
  | @sweep _ u req hcmd =>
      rw [d_fish]
      exact .rests (rests_catchsweepfish d u req inp)
  | @segment pc =>
      rw [d_fish]
      exact .rests ((sameGame_executed d inp _).rests.trans (rests_fishSegment _ inp pc))
  | timer hf =>
      refine .rests (rests_onTimer d ?_)
      rcases hf with rfl | rfl
      · exact fun r => (sameBullets_buildFish inp.now inp.kinds r).kept
      · exact fun r => kept_update r inp.now
  | @newDesk pc hnew =>
      have hno := hj pc (by simp [Job.pcs])
      rw [hnew] at hno
      simp at hno

/-- **What `new_desk` does to the bullets**: it loads and resolves none, and while it has not set
the game up the game has no roles. -/
structure Stays (d : Desk) (o : Out) : Prop where
  pool : Kept d.pool o.d.pool
  vouchers : o.d.vouchers = d.vouchers
  early : ∀ pc ∈ o.pcs, pc.early = true → o.d.game.bind Game.roles = none

theorem stays_of_rests {d : Desk} {o : Out} (h : Rests d o.d)
    (hpc : ∀ pc ∈ o.pcs, pc.early = false) :
    Stays d o :=
  ⟨h.pool, h.vouchers, fun pc hm he => absurd he (by simp [hpc pc hm])⟩

theorem Stays.of_kept {d d' : Desk} {o : Out} (ho : Stays d' o) (hk : Kept d.pool d'.pool)
    (hv : d'.vouchers = d.vouchers) : Stays d o :=
  ⟨hk.trans ho.pool, ho.vouchers.trans hv, ho.early⟩

theorem Stays.of_rests {d d' : Desk} {o : Out} (ho : Stays d' o) (h : Rests d d') : Stays d o :=
  ho.of_kept h.pool h.vouchers

theorem stays_freeDesk (d : Desk) (r : Ret) : Stays d (freeDesk d r) := by
  have same : ∀ {d' : Desk}, d'.game = d.game → d'.hist = .mark .freeDesk :: d.hist →
      Rests d d' := by
    intro d' hg hh
    refine Rests.trans (e := d.mark .freeDesk) ?_ (rests_of_eq hg hh)
    exact SameGame.rests ⟨rfl, rfl, rfl⟩
  unfold freeDesk freeLoop
  split
  · exact stays_of_rests (same rfl rfl) (by simp [Pc.early])
  · split
    · exact stays_of_rests (same rfl rfl) (by simp [Pc.early])
    · exact stays_of_rests (same rfl rfl) (by simp [kickUser, Pc.early])

theorem early_of_walk {pc : Pc} {x : Walk × Stage} (h : pc.walk? = some x) : pc.early = false := by
  cases pc <;> simp_all [Pc.walk?, Pc.early]

theorem rests_force (d : Desk) : Rests d (force d) := (sameGame_of_core (core_force d)).rests

theorem Failed.stays {d : Desk} {o : Out} (h : Failed d o) : Stays d o := by
  cases h with
  | raise r => exact stays_of_rests (rests_refl d) (by simp)
  | forced r => exact stays_of_rests (rests_force d) (by simp)
  | gameover scores _ =>
      refine stays_of_rests ((rests_force d).trans ?_) (by simp [Pc.early])
      exact ⟨.refl _, rfl, id⟩
  | free => exact stays_freeDesk d _
  | back _ _ =>
      obtain ⟨pc, w, st, h, hw, -⟩ := startWalk_cases d none (.free .nil)
      rw [h]
      exact stays_of_rests (rests_refl d) (by simp [early_of_walk hw])

theorem stays_sleepOn (d : Desk) (st : St) (pc : Pc)
    (hpc : pc.early = true → d.game.bind Game.roles = none) : Stays d (sleepOn d st pc) := by
  rcases sleepOn_cases d st pc with ⟨-, h⟩ | ⟨-, h⟩
  · rw [h]
    refine ⟨.refl _, rfl, ?_⟩
    intro pc' hm he
    obtain rfl : pc' = pc := by simpa using hm
    exact hpc he
  · rw [h]; exact (failed_unhandled d).stays

/-- A game without roles is set up. -/
theorem kept_setup {d d' : Desk} (hd : d.game.bind Game.roles = none) (hd' : d'.pool = {}) :
    Kept d.pool d'.pool := by
  rw [hd', Desk.pool, hd]
  exact .refl _

theorem stays_segment (d : Desk) (inp : Inp) {pc : Pc} (hpc : pc.newDesk = true)
    (he : pc.early = true → d.game.bind Game.roles = none) : Stays d (segment d inp pc) := by
  cases pc with
  | monitor => exact stays_sleepOn d .ready _ fun _ => he rfl
  | ready =>
      have hmark : ∀ {d' : Desk}, d'.game = d.game → d'.hist = .mark .doGame :: d.hist →
          Rests d d' := by
        intro d' hg hh
        refine Rests.trans (e := d.mark .doGame) ?_ (rests_of_eq hg hh)
        exact SameGame.rests ⟨rfl, rfl, rfl⟩
      dsimp only [segment, doGame, gameInit]
      split
      · split
        · exact ⟨kept_setup (he rfl) rfl, rfl, fun _ _ _ => rfl⟩
        · exact ⟨.refl _, rfl, fun _ _ _ => he rfl⟩
      · exact (stays_sleepOn _ .banker .banker (by simp [Pc.early])).of_rests (hmark rfl rfl)
  | start => exact ⟨kept_setup (he rfl) rfl, rfl, fun _ _ _ => rfl⟩
  | config =>
      refine (stays_sleepOn _ .banker .banker (by simp [Pc.early])).of_kept
        (kept_setup (he rfl) ?_) rfl
      cases d.game <;> simp [Desk.pool]
  | banker =>
      dsimp only [segment]
      split
      · exact (failed_unhandled _).stays.of_rests (rests_of_eq rfl rfl)
      · rename_i d' hd'
        simp only [determinBanker, Option.map_eq_some_iff] at hd'
        obtain ⟨seat, -, rfl⟩ := hd'
        exact (stays_sleepOn _ .gamerun .gamerun (by simp [Pc.early])).of_rests
          (rests_of_eq rfl rfl)
  | gamerun =>
      dsimp only [segment, gameRun]
      split
      · exact (failed_unhandled _).stays.of_rests (rests_of_eq rfl rfl)
      · rename_i g hg
        split
        · exact (failed_unhandled _).stays.of_rests (rests_of_eq rfl rfl)
        · refine stays_of_rests ?_ (by simp [Pc.early])
          exact rests_mapRoles (game_of_mygame hg).1 rfl rfl
            (fun r => (sameBullets_buildFish inp.now inp.kinds r).kept) rfl
  | gameend =>
      have stop : ∀ {d' : Desk} {g : Game},
          (d.game.map fun g => { g with sync := g.sync.resumed }) = some g →
          d'.game =
          some { g with roles := g.roles.map Roles.freeAll, timers := false, ended := true } →
          d'.vouchers = d.vouchers → Rests d d' := by
        intro d' g hg hg' hv
        obtain ⟨g₀, hg₀, rfl⟩ := Option.map_eq_some_iff.1 hg
        exact rests_mapRoles hg₀ hg' rfl kept_freeAll hv
      dsimp only [segment, gameStop]
      split
      · rename_i hg
        have hd : d.game = none := by simpa using hg
        exact (failed_unhandled _).stays.of_rests (rests_of_eq (by simp [hd]) rfl)
      · rename_i g hg
        split
        · exact (failed_unhandled _).stays.of_rests (stop hg rfl rfl)
        · exact stays_of_rests (stop hg rfl rfl) (by simp [Pc.early])
  | result scores =>
      dsimp only [segment, deskEnd]
      split
      · exact (stays_freeDesk _ _).of_rests (rests_of_eq rfl rfl)
      · exact (failed_afterError _).stays.of_rests (rests_of_eq rfl rfl)
  | resultErr scores => exact (failed_afterError d).stays
  | _ => simp [Pc.newDesk] at hpc

/-! ### The condition -/

/-- **The shooter is found, and so is the banker**, whenever `userfire` gets as far as the charge
and there is something to charge. -/
def Funded (d : Desk) (inp : Inp) (j : Job) : Prop :=
  match j.command d with
  | some (u, .userfire kind) =>
      ∀ m ∈ (inp.cfg.bullet kind).map Prod.snd, m ≠ 0 → (d.objs u).seat ≠ d.banker →
        (d.objs u).audience ≠ some true → (d.mygame.bind Game.roles).isSome = true →
        (d.atSeat (d.objs u).seat).isSome = true ∧ (d.atSeat d.banker).isSome = true
  | _ => True

instance (d : Desk) (inp : Inp) (j : Job) : Decidable (Funded d inp j) := by
  delta Funded
  generalize j.command d = c
  rcases c with _ | ⟨u, cmd⟩
  · exact inferInstanceAs (Decidable True)
  · cases cmd <;> dsimp only <;> infer_instance

/-- Every shot of a run is funded. -/
def FiresFunded (s : Sys) (e : Ev) : Prop :=
  match jobOf s e with
  | none => True
  | some (j, inp) => Funded s.shared inp j

instance (s : Sys) (e : Ev) : Decidable (FiresFunded s e) := by
  delta FiresFunded
  generalize jobOf s e = x
  rcases x with _ | ⟨j, inp⟩ <;> dsimp only <;> infer_instance

/-- A funded shot is charged. -/
theorem charged_of_funded {d : Desk} {l : List Pc} (hs : Scored d l) {me banker : ℤ} {m : ℕ}
    (hne : me ≠ banker)
    (hf : m ≠ 0 → (d.atSeat me).isSome = true ∧ (d.atSeat banker).isSome = true) :
    (calcFishscoreAll d me banker (-m)).1.scoreAt me - d.scoreAt me = -m ∧
    (calcFishscoreAll d me banker (-m)).1.scoreAt banker - d.scoreAt banker = m := by
  by_cases hfound : (d.atSeat me).isSome = true ∧ (d.atSeat banker).isSome = true
  · obtain ⟨u, hu⟩ := Option.isSome_iff_exists.1 hfound.1
    obtain ⟨v, hv⟩ := Option.isSome_iff_exists.1 hfound.2
    obtain ⟨x, hx⟩ := hs.atSeat hu
    obtain ⟨y, hy⟩ := hs.atSeat hv
    obtain ⟨hme, hbanker⟩ := scoreAt_calc hne hu hv hx hy (-(m : ℤ))
    rw [hme, hbanker]
    omega
  · -- nothing is charged, but then the bullet is worth nothing
    have hm : m = 0 := by
      by_contra hm
      exact hfound (hf hm)
    have hidle : me = banker ∨ d.atSeat me = none ∨ d.atSeat banker = none := by
      by_contra hno
      simp only [not_or, ← Option.ne_none_iff_isSome, ne_eq] at hno hfound
      exact hfound hno.2
    simp [calc_idle hidle, hm]

theorem Shot.pooled {d d' : Desk} {l : List Pc} {inp : Inp} {j : Job} (hs : Scored d l)
    (hf : Funded d inp j) (h : Shot d inp j d') (hd : Pooled d.pool d.vouchers) :
    Pooled d'.pool d'.vouchers := by
  cases h with
  | rests hr => exact hr.pooled hd
  | @loads u kind k m g r d₁ hcmd hb hseat haud hg hr hcalc =>
      have hroles : (d.mygame.bind Game.roles).isSome = true := by simp [hg, hr]
      have hfound : m ≠ 0 →
          (d.atSeat (d.objs u).seat).isSome = true ∧ (d.atSeat d.banker).isSome = true := by
        intro hm
        simp only [Funded, hcmd] at hf
        exact hf m (by simp [hb]) hm hseat haud hroles
      obtain ⟨hme, hbanker⟩ := charged_of_funded hs hseat hfound
      have hhist : d₁.hist = d.hist := by
        obtain ⟨objs, ho⟩ := calc_frame d (d.objs u).seat d.banker (-m)
        rw [hcalc, ho]
      rw [pool_eq (game_of_mygame hg).1 hr] at hd
      rw [← hcalc] at hme hbanker
      have hload := hd.load (d.objs u).seat inp.now k m
      simpa [Desk.pool, Desk.vouchers, Desk.withRoles, Desk.mark, Act.voucher, hme, hbanker, hhist]
        using hload
  | @takes req g r r' b hg hr hb =>
      rw [pool_eq (game_of_mygame hg).1 hr] at hd
      exact hd.take hb

theorem Shot.roles {d d' : Desk} {inp : Inp} {j : Job} (h : Shot d inp j d')
    (hd : d.game.bind Game.roles = none) : d'.game.bind Game.roles = none := by
  have hno : ∀ {g : Game} {r : Roles}, d.mygame = some g → g.roles = some r → False := by
    intro g r hg hr
    simp [(game_of_mygame hg).1, hr] at hd
  cases h with
  | rests hr => exact hr.roles hd
  | loads _ _ _ _ hg hr _ => exact (hno hg hr).elim
  | takes hg hr _ => exact (hno hg hr).elim

theorem newDesk_of_early {pc : Pc} (h : pc.early = true) : pc.newDesk = true := by
  cases pc <;> simp_all [Pc.early, Pc.newDesk]

/-- What plays and is not `new_desk` does not set the game up. -/
theorem roles_job {d : Desk} {inp : Inp} {j : Job} (hj : ∀ pc ∈ j.pcs, pc.newDesk = false)
    (hd : d.game.bind Game.roles = none) : (j.out d inp).d.game.bind Game.roles = none := by
  cases hp : j.plays d with
  | false => exact (quiet_job d inp hp).game.rests.roles hd
  | true => exact (shot_plays (job_plays d inp hp) hj).roles hd

/-- **While `new_desk` has not set the game up, the game has no roles.** -/
theorem early_job {d : Desk} {rest : List Pc} {inp : Inp} {j : Job}
    (hone : OneNewDesk d (j.pcs ++ rest))
    (h : ∀ pc ∈ j.pcs ++ rest, pc.early = true → d.game.bind Game.roles = none) :
    ∀ pc ∈ (j.out d inp).pcs ++ rest, pc.early = true →
      (j.out d inp).d.game.bind Game.roles = none := by
  intro pc hm he
  by_cases hj : ∀ pc ∈ j.pcs, pc.newDesk = false
  · rcases List.mem_append.1 hm with hm | hm
    · have hno := (steady_job d inp hj).pcs pc hm
      rw [newDesk_of_early he] at hno
      simp at hno
    · exact roles_job hj (h pc (List.mem_append_right _ hm) he)
  · cases j with
    | req r => simp [Job.pcs] at hj
    | cmd u c => simp [Job.pcs] at hj
    | seg pc₀ =>
        have hnew : pc₀.newDesk = true := by simpa [Job.pcs] using hj
        rcases List.mem_append.1 hm with hm | hm
        · refine (stays_segment (executed d inp pc₀) inp hnew fun hearly => ?_).early pc hm he
          exact (sameGame_executed d inp pc₀).rests.roles (h pc₀ (by simp [Job.pcs]) hearly)
        · have hno := hone.others hnew pc hm
          rw [newDesk_of_early he] at hno
          simp at hno

/-- **Every piece of work keeps the bullets and the history in agreement**, provided that shots are
funded. -/
theorem BulletInv.job {d : Desk} {rest : List Pc} {inp : Inp} {j : Job}
    (hs : Scored d (j.pcs ++ rest)) (hone : OneNewDesk d (j.pcs ++ rest)) (hf : Funded d inp j)
    (h : BulletInv d (j.pcs ++ rest)) :
    BulletInv (j.out d inp).d ((j.out d inp).pcs ++ rest) := by
  refine ⟨?_, early_job hone h.early⟩
  by_cases hj : ∀ pc ∈ j.pcs, pc.newDesk = false
  · cases hp : j.plays d with
    | false => exact (quiet_job d inp hp).game.rests.pooled h.pooled
    | true => exact (shot_plays (job_plays d inp hp) hj).pooled hs hf h.pooled
  · cases j with
    | req r => simp [Job.pcs] at hj
    | cmd u c => simp [Job.pcs] at hj
    | seg pc =>
        have hnew : pc.newDesk = true := by simpa [Job.pcs] using hj
        have he : SameGame d (executed d inp pc) := sameGame_executed d inp pc
        have hstay := (stays_segment (executed d inp pc) inp hnew fun hearly =>
          he.rests.roles (h.early pc (by simp [Job.pcs]) hearly)).of_rests he.rests
        change Pooled (segment _ inp pc).d.pool (segment _ inp pc).d.vouchers
        rw [hstay.vouchers]
        exact h.pooled.kept hstay.pool

section Runs

variable {id creater timelimit : ℕ} {pay : Pay} {s : Sys}

/-- The game has no roles before it has been set up, in every run. -/
theorem early_of_reach {C : Sys → Ev → Prop}
    (h : desk.Reach C (created id creater pay timelimit) s) :
    ∀ pc ∈ pcs s, pc.early = true → s.shared.game.bind Game.roles = none := by
  refine desk_inv (I := fun d l => ∀ pc ∈ l, pc.early = true → d.game.bind Game.roles = none)
    ?_ ?_ ?_ ?_ ?_ (h.and_inv fun s hs => one_newDesk hs)
  · exact fun d l l' hp hI pc hpc => hI pc (hp.mem_iff.2 hpc)
  · exact fun d l b q hI => hI
  · intro d l u c hI pc hpc he
    rcases List.mem_cons.1 hpc with rfl | hpc
    · simp [Pc.early] at he
    · exact hI pc hpc he
  · exact fun _ _ _ => rfl
  · rintro s e j inp rest ⟨-, hone⟩ hj hp _ hI
    exact early_job (hone.perm hp) hI

theorem bulletInv_of_firesFunded
    (h : desk.Reach FiresFunded (created id creater pay timelimit) s) :
    BulletInv s.shared (pcs s) := by
  refine desk_inv ?_ ?_ ?_ ?_ ?_
    (h.and_inv fun s hs => And.intro (scored_of_reach hs) (one_newDesk hs))
  · exact fun d l l' hp hI => ⟨hI.pooled, fun pc hpc => hI.early pc (hp.mem_iff.2 hpc)⟩
  · exact fun d l b q hI => ⟨hI.pooled, hI.early⟩
  · intro d l u c hI
    refine ⟨hI.pooled, ?_⟩
    intro pc hpc he
    rcases List.mem_cons.1 hpc with rfl | hpc
    · simp [Pc.early] at he
    · exact hI.early pc hpc he
  · refine ⟨⟨List.nodup_nil, by simp [Desk.pool, created, Desk.create, Roles.activeBullets, vals],
      ?_⟩, ?_⟩
    · exact Voucher.Inv.empty 0
    · exact fun _ _ _ => rfl
  · rintro s e j inp rest ⟨hf, hscored, hone⟩ hj hp _ hI
    simp only [FiresFunded, hj] at hf
    exact hI.job (Scored.perm hp hscored) (hone.perm hp) hf

/-- **No free shots**: in every run whose shots are funded, every bullet that `catchfish` resolved
was charged before to the same seat by exactly its multiple in favour of the banker, and no charge
backs two of them. -/
theorem noFreeShots_of_firesFunded
    (h : desk.Reach FiresFunded (created id creater pay timelimit) s) : NoFreeShots s.shared.hist :=
  (bulletInv_of_firesFunded h).pooled.book.honest

end Runs

/-- A bullet of user 2 that is charged and resolved. -/
theorem noFreeShots_catchOne :
    ∃ s, desk.Reach FiresFunded (created 100001 1 ⟨true, 3⟩ 30) s ∧
      .mark (.resolved 1 2 1) ∈ s.shared.hist ∧ NoFreeShots s.shared.hist := by
  obtain ⟨s, hs, hp⟩ := Machine.exists_reach (gameOn ++ catchOne)
    (p := fun s => decide (.mark (.resolved 1 2 1) ∈ s.shared.hist)) (C := FiresFunded)
    (i := created 100001 1 ⟨true, 3⟩ 30) (M := desk) (by decide +kernel)
  exact ⟨s, hs, of_decide_eq_true hp, noFreeShots_of_firesFunded hs⟩

/-- **A bullet fired before there is a banker is free**: user 2 fires while the bank is still open,
and `catchfish` resolves the bullet. -/
theorem fire_before_banker_is_free :
    ¬ ∀ (id creater timelimit : ℕ) (pay : Pay) (s : Sys),
      desk.Reach Always (created id creater pay timelimit) s → .mark .doGame ∈ s.shared.hist →
        .mark .gameover ∉ s.shared.hist → NoFreeShots s.shared.hist := by
  intro hall
  obtain ⟨s, hs, hp⟩ := Machine.exists_reach
    (allSit ++ allReady ++ [.resume 0 {}, .resume 0 {}, .resume 0 {},
      .call (.client 2 (.userfire (some 0))) { cfg := pond },
      .call (.client 2 (.catchfish ⟨2, 1, 0, 1⟩)) { cfg := pond }])
    (p := fun s => decide (.mark .doGame ∈ s.shared.hist ∧ .mark .gameover ∉ s.shared.hist ∧
      ¬ NoFreeShots s.shared.hist)) (C := Always)
    (i := created 100001 1 ⟨true, 3⟩ 30) (M := desk) (by decide +kernel)
  obtain ⟨hbegun, hover, hno⟩ := of_decide_eq_true hp
  exact hno (hall _ _ _ _ s hs hbegun hover)

end Halieutics
