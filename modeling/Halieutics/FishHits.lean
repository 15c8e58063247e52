/-
**Whose bullet a hit report spends.**

`catchfish` does not look at the seat of its sender: the seat is part of the request, so that a
client can report the hits of the androids.  Everything else follows that seat.  The bullet is taken
from it, by id or, failing that, by kind, and it is its player whose score grows; so a request that
names the seat of somebody else spends his bullet.

A request has up to three segments.  All but the first keep to what the first has found, and
whatever happens between them, none of them touches a bullet, or a player who is neither at the seat
of the request nor the banker.

Main definitions:

* `Halieutics.Desk.bulletsAt` — the active bullets of a seat;
* `Halieutics.FishOut.finish` — a request that is handled to its end;
* `Halieutics.Unharmed` — **the other players keep their bullets and their scores**;
* `Halieutics.Foreign` — the request finds a bullet at the seat of another player.

Main results:

* `Halieutics.aloof_segment` — **what the later segments keep**, whatever has happened in between;
* `Halieutics.unharmed_iff` — **the other players are unharmed exactly if the request is not
  foreign**;
* `Halieutics.stolen_bullet` — a player spends the bullet of another one.
-/

import Halieutics.FishSweep

set_option relaxedAutoImplicit false
set_option autoImplicit false

namespace Halieutics

open LuaTable Coroutine

/-! ### The request -/

/-- The active bullets of a seat. -/
def Desk.bulletsAt (d : Desk) (seat : ℤ) : List Bullet :=
  ((d.pool.bulletActive.lookup seat).getD []).map d.pool.bullets

/-- The seat that a suspended handler works for. -/
def FishPc.seat : FishPc → ℤ
  | .stock c | .miss c | .pay c => c.seat
  | .sweep seat _ => seat

/-- **A request that is handled to its end**, with nothing in between: one input for each segment
that follows. -/
def FishOut.finish : FishOut → List Inp → Desk
  | .ret d _, _ => d
  | .wait d _, [] => d
  | .wait d pc, inp :: inps => (fishSegment (executed d inp (.fish pc)) inp pc).finish inps

@[simp] theorem FishOut.finish_ret (d : Desk) (r : Ret) (inps : List Inp) :
    (FishOut.ret d r).finish inps = d := by
  cases inps <;> rfl

/-- The points at which a request is suspended; anything may happen in between. -/
inductive Serves (d : Desk) (u : Ref) (req : CatchReq) : FishPc → Prop
  | first {inp : Inp} {d' : Desk} {pc : FishPc} :
      catchfish d u req inp = .wait d' pc → Serves d u req pc
  | next {pc pc' : FishPc} {e e' : Desk} {inp : Inp} :
      Serves d u req pc → fishSegment e inp pc = .wait e' pc' → Serves d u req pc'

/-- **The other players are unharmed**: each of them who is seated and no android keeps his bullets
and, unless he is the banker, his score. -/
def Unharmed (d d' : Desk) (u : Ref) : Prop :=
  ∀ v ∈ vals d.users, v ≠ u → (d.objs v).android = false →
    d'.bulletsAt (d.objs v).seat = d.bulletsAt (d.objs v).seat ∧
    ((d.objs v).seat ≠ d.banker → (d'.objs v).game = (d.objs v).game)

/-- The request finds a bullet, by id or by kind. -/
def Finds (d : Desk) (req : CatchReq) : Prop :=
  ∃ r, d.fishing = some r ∧ (catchBullet r req).2.isSome = true

/-- **The request is foreign**: it finds a bullet at the seat of another player who is no
android. -/
def Foreign (d : Desk) (u : Ref) (req : CatchReq) : Prop :=
  Finds d req ∧ ∃ v ∈ vals d.users, v ≠ u ∧ (d.objs v).android = false ∧
    (d.objs v).seat = req.seatId

instance (d : Desk) (req : CatchReq) : Decidable (Finds d req) :=
  decidable_of_iff ((d.fishing.any fun r => (catchBullet r req).2.isSome) = true)
    (Option.any_eq_true _ _)

instance (d : Desk) (u : Ref) (req : CatchReq) : Decidable (Foreign d u req) :=
  inferInstanceAs (Decidable (_ ∧ _))

/-! ### The segments after the first -/

section Segment

variable {d d' : Desk} {inp : Inp} {pc pc' : FishPc}

theorem SameBullets.bulletsAt (h : SameBullets d.pool d'.pool) (seat : ℤ) :
    d'.bulletsAt seat = d.bulletsAt seat := by
  rw [Desk.bulletsAt, Desk.bulletsAt, h.active, h.bullets]

/-- `calc_fishscore_all` touches the two it finds. -/
theorem objs_calc_ne {d : Desk} {v : Ref} {me banker : ℤ} (hme : (d.objs v).seat ≠ me)
    (hbanker : (d.objs v).seat ≠ banker) (score : ℤ) :
    (calcFishscoreAll d me banker score).1.objs v = d.objs v := by
  have add : ∀ (d : Desk) (w : Ref) (score : ℤ), v ≠ w →
      (adduserscore d w score).1.objs v = d.objs v := by
    intro d w score hvw
    unfold adduserscore
    split
    · rfl
    · exact objs_setUser_ne d (fun x => { x with game := some (_ + score) }) hvw
  have apart : ∀ {seat : ℤ} {w : Ref}, d.atSeat seat = some w → (d.objs v).seat ≠ seat → v ≠ w := by
    rintro seat w hw hne rfl
    exact hne (atSeat_spec hw).2
  unfold calcFishscoreAll
  dsimp only
  split
  · rename_i u w hu hw
    split at hu
    · cases hu
    · split
      · rw [add _ w _ (apart hw hbanker), add _ u _ (apart hu hme)]
      · exact add _ u _ (apart hu hme)
  · rfl

/-- **What a later segment keeps**: all bullets, and the players who are neither at the seat nor the
banker. -/
structure Aloof (seat : ℤ) (d d' : Desk) : Prop where
  bullets : ∀ x, d'.bulletsAt x = d.bulletsAt x
  objs : ∀ v, (d.objs v).seat ≠ seat → (d.objs v).seat ≠ d.banker → d'.objs v = d.objs v

theorem Aloof.refl (seat : ℤ) (d : Desk) : Aloof seat d d := ⟨fun _ => rfl, fun _ _ _ => rfl⟩

theorem aloof_calc (d : Desk) (seat score : ℤ) :
    Aloof seat d (calcFishscoreAll d seat d.banker score).1 := by
  refine ⟨fun x => ?_, fun v hs hb => objs_calc_ne hs hb score⟩
  rw [Desk.bulletsAt, Desk.bulletsAt, pool_calc]

theorem aloof_catchPay (d : Desk) (c : Catch) : Aloof c.seat d (catchPay d c).d := by
  rcases catchPay_cases d c with
    ⟨-, r, h⟩ | ⟨g, r, r', hg, hr, hsame, ⟨-, x, h⟩ | ⟨-, banker, x, h⟩⟩
  · rw [h]
    exact .refl _ _
  · rw [h]
    have hpool : SameBullets d.pool (d.withRoles g r').pool := by
      rw [pool_eq hg hr, pool_withRoles]
      exact hsame
    exact ⟨hpool.bulletsAt, fun _ _ _ => rfl⟩
  · rw [h]
    have hpool : SameBullets d.pool (d.withRoles g r').pool := by
      rw [pool_eq hg hr, pool_withRoles]
      exact hsame
    have hcalc := aloof_calc (d.withRoles g r') c.seat c.score
    exact ⟨fun x => (hcalc.bullets x).trans (hpool.bulletsAt x), hcalc.objs⟩

/-- A handler that goes on to wait has changed nothing, and keeps its seat. -/
theorem fishSegment_wait (h : fishSegment d inp pc = .wait d' pc') :
    d' = d ∧ pc'.seat = pc.seat := by
  cases pc with
  | stock c =>
      simp only [fishSegment, catchStock] at h
      split at h
      · cases h
        exact ⟨rfl, rfl⟩
      · split at h
        · split at h
          · cases h
          · cases h
            exact ⟨rfl, rfl⟩
        · split at h
          · exact absurd h (catchPay_ne_wait _ _)
          · cases h
            exact ⟨rfl, rfl⟩
  | miss c => cases h
  | pay c => exact absurd h (catchPay_ne_wait d c)
  | sweep seat score =>
      obtain ⟨r, hr⟩ := sweepPay_cases d seat score
      rw [fishSegment, hr] at h
      cases h

/-- **What the later segments keep.** -/
theorem aloof_fishSegment (d : Desk) (inp : Inp) (pc : FishPc) :
    Aloof pc.seat d (fishSegment d inp pc).d := by
  cases pc with
  | stock c =>
      simp only [fishSegment, catchStock]
      split
      · exact .refl _ _
      · split
        · split
          · exact .refl _ _
          · exact .refl _ _
        · split
          · exact aloof_catchPay d _
          · exact .refl _ _
  | miss c => exact .refl _ _
  | pay c => exact aloof_catchPay d c
  | sweep seat score =>
      obtain ⟨r, hr⟩ := sweepPay_cases d seat score
      rw [fishSegment, hr]
      exact aloof_calc d seat score

/-- The call of a handler changes nothing of this. -/
theorem aloof_executed (d : Desk) (inp : Inp) (pc : FishPc) {seat : ℤ}
    (h : Aloof seat (executed d inp (.fish pc)) d') : Aloof seat d d' := by
  have hgame : SameGame d (executed d inp (.fish pc)) := sameGame_executed d inp (.fish pc)
  have hbullets : ∀ x, (executed d inp (.fish pc)).bulletsAt x = d.bulletsAt x := fun x => by
    rw [Desk.bulletsAt, Desk.bulletsAt, hgame.pool]
  have hobjs := objs_executed d inp (.fish pc)
  have hbanker : (executed d inp (.fish pc)).banker = d.banker := by
    unfold executed
    split <;> rfl
  refine ⟨fun x => (h.bullets x).trans (hbullets x), fun v hs hb => ?_⟩
  rw [h.objs v (hobjs ▸ hs) (hobjs ▸ hbanker ▸ hb), hobjs]

/-- **Whatever has happened in between**, a later segment of a request touches no bullet, and no
player who is neither at the seat of the request nor the banker. -/
theorem aloof_segment (d : Desk) (inp : Inp) (pc : FishPc) :
    Aloof pc.seat d (Job.out d inp (.seg (.fish pc))).d := by
  have h := aloof_executed d inp pc (aloof_fishSegment (executed d inp (.fish pc)) inp pc)
  change Aloof pc.seat d (Out.fish (fishSegment (executed d inp (.fish pc)) inp pc)).d
  rw [d_fish]
  exact h

theorem aloof_finish (inps : List Inp) (d : Desk) (pc : FishPc) :
    Aloof pc.seat d ((FishOut.wait d pc).finish inps) := by
  induction inps generalizing d pc with
  | nil => exact .refl _ _
  | cons inp inps ih =>
      rw [FishOut.finish]
      refine aloof_executed d inp pc ?_
      have hseg := aloof_fishSegment (executed d inp (.fish pc)) inp pc
      cases ho : fishSegment (executed d inp (.fish pc)) inp pc with
      | ret d' r =>
          rw [ho] at hseg
          rw [FishOut.finish_ret]
          exact hseg
      | wait d' pc' =>
          -- it has changed nothing so far
          obtain ⟨rfl, hseat⟩ := fishSegment_wait ho
          exact hseat ▸ ih _ pc'

end Segment

/-! ### The whole request -/

section Request

variable {d : Desk} {u : Ref} {req : CatchReq} {inp : Inp}

/-- Without a bullet nothing happens. -/
theorem catchfish_misses (h : ¬ Finds d req) (u : Ref) (inp : Inp) :
    ∃ r, catchfish d u req inp = .ret d r := by
  rcases catchfish_cases d u req inp with ⟨r, hr⟩ | ⟨g, r, r', b, hg, hr, hb, -⟩
  · exact ⟨r, hr⟩
  · refine absurd ⟨r, ?_, ?_⟩ h
    · rw [Desk.fishing, hg]
      exact hr
    · rw [hb]
      rfl

/-- **The bullet is taken from the seat of the request**, and the handler works for this seat from
then on. -/
theorem catchfish_finds (h : Finds d req) (u : Ref) (inp : Inp) :
    ∃ g r r' b d', d.game = some g ∧ g.roles = some r ∧ catchBullet r req = (r', some b) ∧
      d' = (d.withRoles g r').mark
      (.resolved (r'.bullets b).id req.seatId (r'.bullets b).multiple) ∧
      ((∃ x, catchfish d u req inp = .ret d' x) ∨
        ∃ pc, pc.seat = req.seatId ∧ catchfish d u req inp = .wait d' pc) := by
  obtain ⟨r, hr, hsome⟩ := h
  obtain ⟨g, hg, hroles⟩ := Option.bind_eq_some_iff.1 hr
  rcases hb : catchBullet r req with ⟨r', _ | b⟩
  · rw [hb] at hsome
    cases hsome
  · refine ⟨g, r, r', b, _, (game_of_mygame hg).1, hroles, hb, rfl, ?_⟩
    unfold catchfish
    rw [hg]
    dsimp only
    rw [hroles]
    dsimp only
    rw [hb]
    dsimp only
    split
    · exact Or.inl ⟨_, rfl⟩
    · split
      · exact Or.inl ⟨_, rfl⟩
      · split
        · exact Or.inl ⟨_, rfl⟩
        · split
          · exact Or.inl ⟨_, rfl⟩
          · split
            · exact Or.inl ⟨_, rfl⟩
            · exact Or.inr ⟨_, rfl, rfl⟩

/-- **What a request that finds a bullet does**: a bullet of its seat is gone, the other seats keep
theirs, and so do the players who are neither at this seat nor the banker. -/
theorem finish_finds (h : Finds d req) (u : Ref) (inp : Inp) (inps : List Inp) :
    (((catchfish d u req inp).finish inps).bulletsAt req.seatId).length + 1
      = (d.bulletsAt req.seatId).length ∧
    (∀ x, x ≠ req.seatId → ((catchfish d u req inp).finish inps).bulletsAt x = d.bulletsAt x) ∧
    ∀ v, (d.objs v).seat ≠ req.seatId → (d.objs v).seat ≠ d.banker →
      ((catchfish d u req inp).finish inps).objs v = d.objs v := by
  obtain ⟨g, r, r', b, d', hg, hr, hb, hd', hout⟩ := catchfish_finds h u inp
  have haloof : Aloof req.seatId d' ((catchfish d u req inp).finish inps) := by
    rcases hout with ⟨x, hx⟩ | ⟨pc, hseat, hx⟩
    · rw [hx, FishOut.finish_ret]
      exact .refl _ _
    · rw [hx, ← hseat]
      exact aloof_finish inps d' pc
  obtain ⟨mine, mine', hmine, hperm, hr'⟩ := catchBullet_spec hb
  have hpool : d'.pool = r' := by
    rw [hd']
    rfl
  have hbullets : ∀ x,
    d'.bulletsAt x = ((r'.bulletActive.lookup x).getD []).map r.bullets := fun x => by
    rw [Desk.bulletsAt, hpool, hr']
  have hlookup : ∀ x, r'.bulletActive.lookup x
      = if x = req.seatId then some mine' else r.bulletActive.lookup x := fun x => by
    rw [hr']
    exact lookup_insert_eq _ _ _ _
  have hold : ∀ x, d.bulletsAt x = ((r.bulletActive.lookup x).getD []).map r.bullets := fun x => by
    rw [Desk.bulletsAt, pool_eq hg hr]
  refine ⟨?_, fun x hx => ?_, fun v hs hbank => ?_⟩
  · rw [haloof.bullets, hbullets, hold, hlookup, if_pos rfl, hmine]
    simp only [Option.getD_some, List.length_map, hperm.length_eq, List.length_cons]
  · rw [haloof.bullets, hbullets, hold, hlookup, if_neg hx]
  · rw [haloof.objs v (hd' ▸ hs) (hd' ▸ hbank), hd']
    rfl

/-- A foreign request takes a bullet. -/
theorem not_unharmed_of_foreign (h : Foreign d u req) (inp : Inp) (inps : List Inp) :
    ¬ Unharmed d ((catchfish d u req inp).finish inps) u := by
  obtain ⟨hfinds, v, hv, hvu, handroid, hseat⟩ := h
  intro hun
  have hlen := (finish_finds hfinds u inp inps).1
  have hsame := (hun v hv hvu handroid).1
  rw [hseat] at hsame
  rw [hsame] at hlen
  omega

/-- A request keeps to its seat. -/
theorem Serves.seat {pc : FishPc} (h : Serves d u req pc) : pc.seat = req.seatId := by
  induction h with
  | @first inp d' pc h =>
      by_cases hfinds : Finds d req
      · obtain ⟨g, r, r', b, d'', -, -, -, -, ⟨x, hx⟩ | ⟨pc', hseat, hx⟩⟩ :=
          catchfish_finds hfinds u inp
        · rw [hx] at h
          cases h
        · rw [hx] at h
          cases h
          exact hseat
      · obtain ⟨r, hr⟩ := catchfish_misses hfinds u inp
        rw [hr] at h
        cases h
  | next _ hs ih => exact (fishSegment_wait hs).2.trans ih

/-- **The other players are unharmed exactly if the request is not foreign**; and whatever happens
between its segments, the later ones touch no bullet, and no player who is neither at the seat of
the request nor the banker. -/
theorem unharmed_iff (d : Desk) (u : Ref) (req : CatchReq) :
    (∀ inp inps, Unharmed d ((catchfish d u req inp).finish inps) u ↔ ¬ Foreign d u req) ∧
    ∀ pc, Serves d u req pc → ∀ e inp, Aloof req.seatId e (Job.out e inp (.seg (.fish pc))).d := by
  refine ⟨fun inp inps => ⟨fun hun hforeign => not_unharmed_of_foreign hforeign inp inps hun, ?_⟩,
    fun pc hpc e inp => hpc.seat ▸ aloof_segment e inp pc⟩
  intro hown v hv hvu handroid
  by_cases hfinds : Finds d req
  · obtain ⟨-, hbullets, hobjs⟩ := finish_finds hfinds u inp inps
    have hseat : (d.objs v).seat ≠ req.seatId := fun heq => hown ⟨hfinds, v, hv, hvu, handroid, heq⟩
    exact ⟨hbullets _ hseat, fun hbank => congrArg User.game (hobjs v hseat hbank)⟩
  · obtain ⟨r, hr⟩ := catchfish_misses hfinds u inp
    rw [hr, FishOut.finish_ret]
    exact ⟨rfl, fun _ => rfl⟩

end Request

/-- **A player spends the bullet of another one**: user 2 fires, and the banker reports a hit for
his seat. -/
theorem stolen_bullet :
    ¬ ∀ (id creater timelimit : ℕ) (pay : Pay) (s : Sys) (uid : ℕ) (u : Ref)
    (req : CatchReq) (inp : Inp)
      (inps : List Inp), desk.Reach Always (created id creater pay timelimit) s →
        admits s.shared uid = some u →
        Unharmed s.shared ((catchfish s.shared u req inp).finish inps) u := by
  intro hall
  obtain ⟨s, hs, hp⟩ := Machine.exists_reach
    (gameOn ++ [.call (.client 2 (.userfire (some 0))) { cfg := pond }])
    (p := fun s => (admits s.shared 1).any fun u => decide (Foreign s.shared u ⟨2, 1, 0, 1⟩))
    (C := Always)
    (i := created 100001 1 ⟨true, 3⟩ 30) (M := desk) (by decide +kernel)
  obtain ⟨u, hu, hforeign⟩ := (Option.any_eq_true _ _).1 hp
  exact not_unharmed_of_foreign (of_decide_eq_true hforeign) _ _
    (hall _ _ _ _ s 1 u _ { cfg := pond } [{ ret := 100, hit := true }, {}] hs hu)

end Halieutics
