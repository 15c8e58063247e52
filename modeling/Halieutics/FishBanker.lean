/-
**The banker has a seat.**

`determin_banker` picks a seat among those of `d.users`; after that the banker changes when somebody
catches a banker fish, and the new banker is the seat of the request, which the client chose.
Nobody checks it, but the request has found a bullet there, and only seated players fire.  Nor does
anybody give a seat back once the game has begun: the test in `desk.standup` sees to that, as long
as nobody was let through before and is still standing up.

So the seats of the active bullets, those of the catches in flight and the banker's are all taken
while the game is on, and they are found by `calc_fishscore_all`, which looks for the player of a
seat.

Main definitions:

* `Halieutics.Orderly` — operations are complete before the next begins;
* `Halieutics.Roles.armed` — the seats of the active bullets;
* `Halieutics.Sights` — what the handlers do to bullets, catches and the banker;
* `Halieutics.Turn` — what `new_desk` does to the banker, from stage to stage;
* `Halieutics.Banked`, `Halieutics.BankInv` — **the invariant**.

Main results:

* `Halieutics.sights_job`, `Halieutics.turn_segment` — one piece of work;
* `Halieutics.bankInv_of_orderly` — every run;
* `Halieutics.bankerSeated_of_orderly` — **the banker is a seated player**, `determin_banker`
  prefers those who grabbed, and `userfire` finds the shooter and a different banker;
* `Halieutics.standup_unseats_banker` — a `standup` that is still paying back when the game begins.
-/

import Halieutics.DeskInterrupted
import Halieutics.DeskPlaces
import Halieutics.FishHits
import Halieutics.FishSum

set_option relaxedAutoImplicit false
set_option autoImplicit false

namespace Halieutics

open LuaTable Coroutine

/-! ### Complete operations -/

/-- **A piece of work of complete operations**: whoever acts is at the desk, and `new_desk` goes on
only when nobody is standing up. -/
def Whole (s : Sys) (j : Job) : Prop :=
  (∀ p ∈ j.command s.shared, s.shared.usermap.lookup (s.shared.objs p.1).id = some p.1) ∧
  ((∃ pc ∈ j.pcs, pc.newDesk = true) → ∀ pc ∈ pcs s, pc.standing = false)

/-- **Operations are complete before the next begins.** -/
def Orderly (s : Sys) (e : Ev) : Prop := Complete s e ∧ Under Whole s e

instance (s : Sys) (j : Job) : Decidable (Whole s j) := inferInstanceAs (Decidable (_ ∧ _))

instance (s : Sys) (e : Ev) : Decidable (Orderly s e) := inferInstanceAs (Decidable (_ ∧ _))

/-- `calc_fishscore_all` finds a player at `me`, and a different one at `banker`. -/
def Desk.finds (d : Desk) (me banker : ℤ) : Prop :=
  ∃ u v, u ≠ v ∧ d.atSeat me = some u ∧ d.atSeat banker = some v

/-! ### Bullets and catches -/

/-- The seats of the active bullets. -/
def Roles.armed (r : Roles) : List ℤ := r.vouchers.map fun p => p.2.1

/-- The seat that a catch in flight works for. -/
def Pc.aims? : Pc → Option ℤ
  | .fish (.stock c) | .fish (.miss c) | .fish (.pay c) => some c.seat
  | _ => none

theorem armed_eq (r : Roles) :
    r.armed = r.bulletActive.entries.flatMap fun e => e.2.map ((fun seat _ => seat) e.1) := by
  simp only [Roles.armed, Roles.vouchers, List.map_flatMap, List.map_map]
  rfl

/-- Without a bullet more no seat is armed more. -/
theorem Kept.armed {r r' : Roles} (h : Kept r r') {seat : ℤ} (hs : seat ∈ r'.armed) :
    seat ∈ r.armed := by
  obtain ⟨p, hp, rfl⟩ := List.mem_map.1 hs
  exact List.mem_map.2 ⟨p, h.vouchers.subset hp, rfl⟩

theorem armed_load {r : Roles} {seat seat' : ℤ} {now : ℕ} {kind : ℤ} {multiple : ℕ}
    (h : seat' ∈ (r.loadBullet seat now kind multiple).1.armed) :
    seat' = seat ∨ seat' ∈ r.armed := by
  obtain ⟨b, -, -, hactive, -⟩ := loadBullet_spec r seat now kind multiple
  rw [armed_eq, hactive] at h
  rw [armed_eq]
  exact List.mem_cons.1 ((flatMap_append r.bulletActive seat b (f := fun seat _ => seat)
    (g := fun seat _ => seat) fun _ _ _ _ => rfl).mem_iff.1 h)

/-- A bullet is taken from an armed seat. -/
theorem armed_take {r r' : Roles} {req : CatchReq} {b : Ref}
    (h : catchBullet r req = (r', some b)) :
    req.seatId ∈ r.armed ∧ ∀ seat ∈ r'.armed, seat ∈ r.armed := by
  obtain ⟨mine, mine', hk, hp, rfl⟩ := catchBullet_spec h
  have hperm := flatMap_take hk hp fun seat _ => seat
  rw [armed_eq]
  refine ⟨hperm.mem_iff.2 List.mem_cons_self, fun seat hs => ?_⟩
  rw [armed_eq] at hs
  exact hperm.mem_iff.2 (List.mem_cons_of_mem _ hs)

/-- The player who fires. -/
def Fires (d : Desk) (j : Job) (seat : ℤ) : Prop :=
  ∃ u kind, j.command d = some (u, .userfire kind) ∧ (d.objs u).audience ≠ some true ∧
    (d.objs u).seat = seat

/-- **What work other than `new_desk` does to bullets, catches and the banker**: bullets come from
the player who fires, catches from bullets, and the banker from a catch. -/
structure Sights (d : Desk) (j : Job) (o : Out) : Prop where
  bullets : ∀ seat ∈ o.d.pool.armed, seat ∈ d.pool.armed ∨ Fires d j seat
  catches : ∀ pc ∈ o.pcs, ∀ seat, pc.aims? = some seat →
    seat ∈ d.pool.armed ∨ ∃ pc' ∈ j.pcs, pc'.aims? = some seat
  banker : o.d.banker = d.banker ∨ ∃ pc ∈ j.pcs, pc.aims? = some o.d.banker

section Sights

variable {d : Desk} {inp : Inp} {j : Job} {o : Out}

theorem Shot.armed {d' : Desk} (h : Shot d inp j d') {seat : ℤ} (hs : seat ∈ d'.pool.armed) :
    seat ∈ d.pool.armed ∨ Fires d j seat := by
  cases h with
  | rests hr => exact Or.inl (hr.pool.armed hs)
  | @loads u kind k m g r d₁ hcmd hb hseat haud hg hr hcalc =>
      rcases armed_load hs with rfl | hs
      · exact Or.inr ⟨u, kind, hcmd, haud, rfl⟩
      · rw [pool_eq (game_of_mygame hg).1 hr]
        exact Or.inl hs
  | @takes req g r r' b hg hr hb =>
      rw [pool_eq (game_of_mygame hg).1 hr]
      exact Or.inl ((armed_take hb).2 seat hs)

theorem banker_calc (d : Desk) (me banker score : ℤ) :
    (calcFishscoreAll d me banker score).1.banker = d.banker := by
  obtain ⟨objs, h⟩ := calc_frame d me banker score
  rw [h]

/-- **The catcher of a banker fish becomes the banker**, and nobody else does. -/
theorem banker_catchPay (d : Desk) (c : Catch) :
    (catchPay d c).d.banker = d.banker ∨ (catchPay d c).d.banker = c.seat := by
  unfold catchPay
  split
  · exact Or.inl rfl
  · split
    · exact Or.inl rfl
    · dsimp only
      split
      · exact Or.inl rfl
      · split
        · rename_i hc
          have hb := congrArg (fun p => Desk.banker p.1) hc
          exact Or.inl (hb.symm.trans (banker_calc _ _ _ _))
        · rename_i hc
          have hb := congrArg (fun p => Desk.banker p.1) hc
          split
          · exact Or.inr rfl
          · exact Or.inl (hb.symm.trans (banker_calc _ _ _ _))

theorem banker_fishSegment (d : Desk) (inp : Inp) (pc : FishPc) :
    (fishSegment d inp pc).d.banker = d.banker ∨
      (Pc.fish pc).aims? = some (fishSegment d inp pc).d.banker := by
  have pays : ∀ c : Catch, (catchPay d c).d.banker = d.banker ∨
    some c.seat = some (catchPay d c).d.banker :=
    fun c => (banker_catchPay d c).imp_right fun h => congrArg some h.symm
  cases pc with
  | stock c =>
      simp only [fishSegment, catchStock]
      split
      · exact Or.inl rfl
      · split
        · split
          · exact Or.inl rfl
          · exact Or.inl rfl
        · split
          · exact pays { c with stock := inp.ret }
          · exact Or.inl rfl
  | miss c => exact Or.inl rfl
  | pay c => exact pays c
  | sweep seat score =>
      obtain ⟨r, h⟩ := sweepPay_cases d seat score
      rw [fishSegment, h]
      exact Or.inl (banker_calc d seat d.banker score)

/-- A catch goes on for the same seat. -/
theorem aims_fishSegment {d' : Desk} {pc pc' : FishPc} (h : fishSegment d inp pc = .wait d' pc') :
    (Pc.fish pc').aims? = (Pc.fish pc).aims? := by
  have hseat := (fishSegment_wait h).2
  cases pc with
  | stock c =>
      rcases catchStock_cases d c inp with ⟨r, hr⟩ | ⟨c', hr⟩ | ⟨c', hr⟩ | ⟨c', hr⟩
      · rw [fishSegment, hr] at h; cases h
      · rw [fishSegment, hr] at h; cases h; exact congrArg some hseat
      · rw [fishSegment, hr] at h; cases h; exact congrArg some hseat
      · exact absurd (hr.symm.trans h) (catchPay_ne_wait d c')
  | miss c => cases h
  | pay c => exact absurd h (catchPay_ne_wait d c)
  | sweep seat score =>
      obtain ⟨r, hr⟩ := sweepPay_cases d seat score
      rw [fishSegment, hr] at h
      cases h

/-- **The handlers and the timers of the game.** -/
theorem sights_plays (hj : ∀ pc ∈ j.pcs, pc.newDesk = false) (h : Plays d inp j o) :
    Sights d j o := by
  refine ⟨fun _ hs => (shot_plays h hj).armed hs, ?_, ?_⟩
  · -- a catch begins with a bullet
    intro pc hpc seat hseat
    cases h with
    | @fire _ u kind _ =>
        rcases userfire_cases d u kind inp with
          ⟨r, h⟩ | ⟨g, k, m, -, -, -, -, ⟨r, h⟩ | ⟨roles, -, -, h⟩⟩
        · rw [h] at hpc; cases hpc
        · rw [h] at hpc; cases hpc
        · rw [h] at hpc; cases hpc
    | @hit _ u req _ =>
        rcases catchfish_cases d u req inp with
          ⟨r, h⟩ | ⟨g, r, r', b, hg, hr, hb, ⟨x, h⟩ | ⟨f, fc, h⟩⟩
        · rw [h] at hpc; cases hpc
        · rw [h] at hpc; cases hpc
        · rw [h] at hpc
          obtain rfl := List.mem_singleton.1 hpc
          obtain rfl := Option.some_inj.1 hseat
          rw [pool_eq (game_of_mygame hg).1 hr]
          exact Or.inl (armed_take hb).1
    | @sweep _ u req _ =>
        rcases catchsweepfish_cases d u req inp with
          ⟨r, h⟩ | ⟨g, _, r', score, -, -, -, ⟨r, h⟩ | h | h⟩
        · rw [h] at hpc; cases hpc
        · rw [h] at hpc; cases hpc
        · obtain ⟨r, h'⟩ := sweepPay_cases (d.withRoles g r') req.seatId score
          rw [h, h'] at hpc
          cases hpc
        · rw [h] at hpc
          obtain rfl := List.mem_singleton.1 hpc
          cases hseat
    | @segment fpc =>
        cases ho : fishSegment (executed d inp (.fish fpc)) inp fpc with
        | ret d' r => rw [ho] at hpc; cases hpc
        | wait d' fpc' =>
            rw [ho] at hpc
            obtain rfl := List.mem_singleton.1 hpc
            exact Or.inr ⟨.fish fpc, List.mem_cons_self, (aims_fishSegment ho).symm.trans hseat⟩
    | timer _ =>
        unfold onTimer at hpc
        repeat' split at hpc
        all_goals cases hpc
    | @newDesk pc hnew => exact absurd (hnew.symm.trans (hj pc List.mem_cons_self)) (by decide)
  · cases h with
    | @fire _ u kind _ =>
        rw [d_fish]
        rcases userfire_cases d u kind inp with
          ⟨r, h⟩ | ⟨g, k, m, -, -, -, -, ⟨r, h⟩ | ⟨roles, -, -, h⟩⟩
        · rw [h]; exact Or.inl rfl
        · rw [h]; exact Or.inl (banker_calc _ _ _ _)
        · rw [h]; exact Or.inl (banker_calc _ _ _ _)
    | @hit _ u req _ =>
        rw [d_fish]
        rcases catchfish_cases d u req inp with ⟨r, h⟩ | ⟨g, _, _, b, -, -, -, ⟨x, h⟩ | ⟨f, fc, h⟩⟩
        · rw [h]; exact Or.inl rfl
        · rw [h]; exact Or.inl rfl
        · rw [h]; exact Or.inl rfl
    | @sweep _ u req _ =>
        rw [d_fish]
        rcases catchsweepfish_cases d u req inp with
          ⟨r, h⟩ | ⟨g, _, r', score, -, -, -, ⟨r, h⟩ | h | h⟩
        · rw [h]; exact Or.inl rfl
        · rw [h]; exact Or.inl rfl
        · obtain ⟨r, h'⟩ := sweepPay_cases (d.withRoles g r') req.seatId score
          rw [h, h']
          exact Or.inl (banker_calc _ _ _ _)
        · rw [h]; exact Or.inl rfl
    | @segment fpc =>
        rw [d_fish]
        refine (banker_fishSegment (executed d inp (.fish fpc)) inp fpc).imp (fun h => ?_) fun h =>
          ⟨.fish fpc, List.mem_cons_self, h⟩
        exact h.trans (sameGame_executed d inp (.fish fpc)).banker
    | timer _ =>
        unfold onTimer
        repeat' split
        all_goals exact Or.inl rfl
    | @newDesk pc hnew => exact absurd (hnew.symm.trans (hj pc List.mem_cons_self)) (by decide)

theorem aims?_of_not_catching {pc : Pc} (h : pc.catching = false) : pc.aims? = none := by
  cases pc <;> first | rfl | cases h

theorem catching_of_aims {pc : Pc} {seat : ℤ} (h : pc.aims? = some seat) : pc.catching = true := by
  cases pc <;> first | rfl | cases h

/-- **Work other than `new_desk`.** -/
theorem sights_job (d : Desk) (inp : Inp) (hj : ∀ pc ∈ j.pcs, pc.newDesk = false) :
    Sights d j (j.out d inp) := by
  cases hplays : j.plays d with
  | true => exact sights_plays hj (job_plays d inp hplays)
  | false =>
      have hq := quiet_job d inp hplays
      refine ⟨fun _ hs => Or.inl (hq.game.rests.pool.armed hs), fun pc hpc seat hseat => ?_,
        Or.inl hq.game.banker⟩
      rw [aims?_of_not_catching (hq.pcs pc hpc)] at hseat
      cases hseat

end Sights

/-! ### The coroutine of the desk -/

/-- `new_desk` before the game object is there. -/
def Pc.awaits : Pc → Bool
  | .monitor | .ready | .start => true
  | _ => false

/-- `new_desk` once there is a banker. -/
def Pc.banked : Pc → Bool
  | .gamerun | .gameend => true
  | _ => false

/-- **What `new_desk` does to the banker, from stage to stage.** -/
inductive Turn (d : Desk) : Pc → Out → Prop
  | waits {pc pc' : Pc} {d' : Desk} : pc.awaits = true → pc'.awaits = true → d'.game = d.game →
      Turn d pc (.wait d' pc')
  | enters {pc : Pc} {d' : Desk} : pc.awaits = true → Turn d pc (.wait d' .config)
  | sets {d' : Desk} : Turn d .config (.wait d' .banker)
  | elects {d' : Desk} {u : Ref} : u ∈ vals d.users → d'.banker = (d.objs u).seat →
      Turn d .banker (.wait d' .gamerun)
  | runs {d' : Desk} : d'.banker = d.banker → Turn d .gamerun (.wait d' .gameend)
  | ends {pc : Pc} {o : Out} : (∀ pc' ∈ o.pcs, pc'.inGame = false ∧ pc'.awaits = false) →
    Turn d pc o

section Turn

variable {d : Desk} {o : Out}

theorem awaits_of_freeing {pc : Pc} (h : pc.freeing = true) : pc.awaits = false := by
  cases pc <;> first | rfl | cases h

theorem turn_freeDesk (d₀ : Desk) (pc : Pc) (r : Ret) : Turn d₀ pc (freeDesk d r) := by
  obtain ⟨d', pc', h, hpc, -⟩ := freeDesk_cases d r
  rw [h]
  exact .ends (List.forall_mem_singleton.2 ⟨inGame_of_freeing hpc, awaits_of_freeing hpc⟩)

theorem Failed.turn (d₀ : Desk) (pc : Pc) (h : Failed d o) : Turn d₀ pc o := by
  cases h with
  | raise r => exact .ends nofun
  | forced r => exact .ends nofun
  | gameover scores => exact .ends (List.forall_mem_singleton.2 ⟨rfl, rfl⟩)
  | free => exact turn_freeDesk d₀ pc _
  | back =>
      obtain ⟨pc', w, st, h, hpc, -⟩ := startWalk_cases d none (.free .nil)
      rw [h]
      refine .ends (List.forall_mem_singleton.2 ?_)
      cases pc' <;> first | exact ⟨rfl, rfl⟩ | cases hpc

/-- `determin_banker` picks a player, and one who grabbed if there is any. -/
theorem determinBanker_spec {d' : Desk} {roll : ℕ} (h : determinBanker d roll = some d') :
    ∃ u ∈ vals d.users, d'.banker = (d.objs u).seat ∧
      ((∃ v ∈ vals d.users, (d.objs v).grabbed = true) → (d.objs u).grabbed = true) := by
  obtain ⟨seat, hseat, rfl⟩ := Option.map_eq_some_iff.1 h
  obtain ⟨u, hu, rfl⟩ := List.mem_map.1 (List.mem_of_getElem? hseat)
  split at hu
  · rename_i hnone
    refine ⟨u, hu, rfl, ?_⟩
    rintro ⟨v, hv, hgrabbed⟩
    exact absurd hgrabbed (List.filter_eq_nil_iff.1 hnone v hv)
  · obtain ⟨hu, hgrabbed⟩ := List.mem_filter.1 hu
    exact ⟨u, hu, rfl, fun _ => hgrabbed⟩

theorem turn_segment (d : Desk) (inp : Inp) {pc : Pc} (hpc : pc.newDesk = true) (ht : pc.timely d) :
    Turn d pc (segment d inp pc) := by
  cases pc with
  | monitor =>
      rcases sleepOn_cases d .ready .ready with ⟨-, h⟩ | ⟨-, h⟩
      · rw [segment, h]
        exact .waits rfl rfl rfl
      · rw [segment, h]
        exact (failed_unhandled d).turn d _
  | ready =>
      have hc : d.count = 0 := ht
      dsimp only [segment, doGame]
      rw [if_pos (by simp [Desk.mark, hc])]
      split
      · exact .enters rfl
      · exact .waits rfl rfl rfl
  | start => exact .enters rfl
  | config =>
      dsimp only [segment]
      rcases sleepOn_cases { d with game := d.game.map fun g => { g with roles := some {} } }
        .banker .banker
        with ⟨-, h⟩ | ⟨-, h⟩
      · rw [h]
        exact .sets
      · rw [h]
        exact (failed_unhandled _).turn d _
  | banker =>
      dsimp only [segment]
      split
      · exact (failed_unhandled _).turn d _
      · rename_i d' hd'
        obtain ⟨u, hu, hbanker, -⟩ := determinBanker_spec hd'
        rcases sleepOn_cases d' .gamerun .gamerun with ⟨-, h⟩ | ⟨-, h⟩
        · rw [h]
          exact .elects hu hbanker
        · rw [h]
          exact (failed_unhandled _).turn d _
  | gamerun =>
      dsimp only [segment, gameRun]
      split
      · exact (failed_unhandled _).turn d _
      · split
        · exact (failed_unhandled _).turn d _
        · exact .runs rfl
  | gameend =>
      dsimp only [segment, gameStop]
      split
      · exact (failed_unhandled _).turn d _
      · split
        · exact (failed_unhandled _).turn d _
        · exact .ends (List.forall_mem_singleton.2 ⟨rfl, rfl⟩)
  | result scores =>
      dsimp only [segment, deskEnd]
      split
      · exact turn_freeDesk d _ _
      · exact (failed_afterError _).turn d _
  | resultErr scores => exact (failed_afterError d).turn d _
  | _ => cases hpc

end Turn

/-! ### The invariant -/

/-- **While the game is on**: nobody is standing up, and the seats of the bullets, of the catches in
flight and of the banker are taken. -/
structure Banked (d : Desk) (l : List Pc) : Prop where
  still : ∀ pc ∈ l, pc.standing = false
  bullets : ∀ seat ∈ d.pool.armed, d.taken seat
  catches : ∀ pc ∈ l, ∀ seat, pc.aims? = some seat → d.taken seat
  banker : ∀ pc ∈ l, pc.banked = true → d.taken d.banker

/-- **The invariant**: there is no game before `desk:init`, and while there is one the seats that
matter are taken. -/
structure BankInv (d : Desk) (l : List Pc) : Prop where
  waiting : ∀ pc ∈ l, pc.awaits = true → d.game = none
  playing : ∀ pc ∈ l, pc.inGame = true → Banked d l

theorem newDesk_of_awaits {pc : Pc} (h : pc.awaits = true) : pc.newDesk = true := by
  cases pc <;> first | rfl | cases h

theorem inGame_of_awaits {pc : Pc} (h : pc.awaits = true) : pc.inGame = false := by
  cases pc <;> first | rfl | cases h

theorem newDesk_of_banked {pc : Pc} (h : pc.banked = true) : pc.newDesk = true := by
  cases pc <;> first | rfl | cases h

theorem not_standing_of_newDesk {pc : Pc} (h : pc.newDesk = true) : pc.standing = false := by
  cases pc <;> first | rfl | cases h

theorem aims?_of_newDesk {pc : Pc} (h : pc.newDesk = true) : pc.aims? = none := by
  cases pc <;> first | rfl | cases h

section Job

variable {d : Desk} {rest : List Pc} {inp : Inp}

/-- **Nobody gives a seat back** once a game has started and nobody is standing up. -/
theorem taken_job (inp : Inp) {j : Job} (hj : ∀ pc ∈ j.pcs, pc.newDesk = false)
    (hstarted : d.started = true) (hstill : ∀ pc ∈ j.pcs, pc.standing = false) :
    (∀ seat, d.taken seat → (j.out d inp).d.taken seat) ∧ ∀ pc ∈ (j.out d inp).pcs,
    pc.standing = false := by
  by_cases hsit : pending j.pcs = []
  · have hnot : ¬ Stands d j := by
      rintro (hno | ⟨pc, hpc, hst⟩)
      · rw [hstarted] at hno
        cases hno
      · rw [hstill pc hpc] at hst
        cases hst
    have hseating := seating_job d inp hsit hj
    refine ⟨fun seat hs => ?_, fun pc hpc => ?_⟩
    · rw [Desk.taken, hseating.users.resolve_right fun h => hnot h.1]
      exact hs
    · by_contra hst
      exact hnot (hseating.walks pc hpc (by simpa using hst))
  · obtain ⟨u, seat, rfl⟩ := sitAdd_of_pending hsit
    obtain ⟨hsame, hpcs⟩ := sitSeated_same (executed d inp (.sitAdd u seat)) u seat
    refine ⟨fun seat' hs => ?_, fun pc hpc => ?_⟩
    · have husers : (Job.out d inp (.seg (.sitAdd u seat))).d.users =
        d.users.insert seat u := hsame.users
      rw [Desk.taken, husers, lookup_insert_eq]
      split
      · rfl
      · exact hs
    · have hm : pc ∈ (sitSeated (executed d inp (.sitAdd u seat)) u seat).pcs := hpc
      rcases hpcs with hp | hp
      · rw [hp] at hm
        obtain rfl := List.mem_singleton.1 hm
        rfl
      · rw [hp] at hm
        cases hm

/-- **Work other than `new_desk`**; whoever fires sits where his object says. -/
theorem Banked.job {j : Job} (hj : ∀ pc ∈ j.pcs, pc.newDesk = false) (hstarted : d.started = true)
    (hfires : ∀ seat, Fires d j seat → d.taken seat) (h : Banked d (j.pcs ++ rest)) :
    Banked (j.out d inp).d ((j.out d inp).pcs ++ rest) := by
  obtain ⟨hs, hstill⟩ := taken_job inp hj hstarted fun pc hpc =>
    h.still pc (List.mem_append_left _ hpc)
  have hsights := sights_job d inp hj
  have hout := (steady_job d inp hj).pcs
  have hold : ∀ seat, (∃ pc ∈ j.pcs, pc.aims? = some seat) → d.taken seat := by
    rintro seat ⟨pc, hpc, hseat⟩
    exact h.catches pc (List.mem_append_left _ hpc) seat hseat
  refine ⟨fun pc hpc => ?_, fun seat hseat => hs seat ?_, fun pc hpc seat hseat => hs seat ?_,
    fun pc hpc hbanked => hs _ ?_⟩
  · rcases List.mem_append.1 hpc with hpc | hpc
    · exact hstill pc hpc
    · exact h.still pc (List.mem_append_right _ hpc)
  · exact (hsights.bullets seat hseat).elim (h.bullets seat) (hfires seat)
  · rcases List.mem_append.1 hpc with hpc | hpc
    · exact (hsights.catches pc hpc seat hseat).elim (h.bullets seat) (hold seat)
    · exact h.catches pc (List.mem_append_right _ hpc) seat hseat
  · rcases List.mem_append.1 hpc with hpc | hpc
    · exact absurd ((newDesk_of_banked hbanked).symm.trans (hout pc hpc)) (by decide)
    · rcases hsights.banker with hsame | haims
      · rw [hsame]
        exact h.banker pc (List.mem_append_right _ hpc) hbanked
      · exact hold _ haims

/-- Work other than `new_desk` stays in the game, or outside of it. -/
theorem BankInv.job {j : Job} (hj : ∀ pc ∈ j.pcs, pc.newDesk = false)
    (hgame : d.game = none → (j.out d inp).d.game = none)
    (hplays : ∀ pc ∈ rest, pc.inGame = true → d.started = true)
    (hfires : ∀ seat, Fires d j seat → d.taken seat) (h : BankInv d (j.pcs ++ rest)) :
    BankInv (j.out d inp).d ((j.out d inp).pcs ++ rest) := by
  have hout := (steady_job d inp hj).pcs
  have hrest : ∀ pc ∈ (j.out d inp).pcs ++ rest, pc.newDesk = true → pc ∈ rest := by
    intro pc hpc hnew
    rcases List.mem_append.1 hpc with hpc | hpc
    · exact absurd (hnew.symm.trans (hout pc hpc)) (by decide)
    · exact hpc
  refine ⟨fun pc hpc hw => ?_, fun pc hpc hin => ?_⟩
  · exact hgame (h.waiting pc (List.mem_append_right _ (hrest pc hpc (newDesk_of_awaits hw))) hw)
  · have hm := hrest pc hpc (newDesk_of_inGame hin)
    exact (h.playing pc (List.mem_append_right _ hm) hin).job hj (hplays pc hm hin) hfires

/-- A game without roles has no bullets. -/
theorem armed_of_early (h : d.game.bind Game.roles = none) : d.pool.armed = [] := by
  rw [Desk.pool, h]
  rfl

/-- **The work of `new_desk`.** -/
theorem BankInv.newDesk {pc : Pc} (hone : OneNewDesk d (pc :: rest)) (hpc : pc.newDesk = true)
    (hstill : ∀ p ∈ rest, p.standing = false) (hplaced : Placed d (pc :: rest))
    (hearly : pc.early = true → d.game.bind Game.roles = none)
    (hcatch : ∀ p ∈ rest, p.catching = true → d.game.isSome = true) (h : BankInv d (pc :: rest)) :
    BankInv (Job.out d inp (.seg pc)).d ((Job.out d inp (.seg pc)).pcs ++ rest) := by
  have hrest := hone.others hpc
  have hexec := sameGame_executed d inp pc
  have husers : (executed d inp pc).users = d.users := users_called d inp (.seg pc)
  have hlife := life_executed d inp (Or.inr hpc)
  have ht : pc.timely (executed d inp pc) := timely_congr (congrArg Life.count hlife)
    (congrArg Life.waiting hlife) (hone.timely pc List.mem_cons_self)
  have hturn := turn_segment (executed d inp pc) inp hpc ht
  have htaken : ∀ seat, d.taken seat → (Job.out d inp (.seg pc)).d.taken seat := by
    intro seat hs
    rw [Desk.taken, show (Job.out d inp (.seg pc)).d.users = d.users from
      ((keeps_segment (executed d inp pc) inp hpc).scores.users).trans husers]
    exact hs
  have hstays := (stays_segment (executed d inp pc) inp hpc fun he =>
    hexec.rests.roles (hearly he)).of_rests hexec.rests
  -- only the point of `new_desk` itself matters
  have single : ∀ {d' : Desk} {pc' : Pc}, Job.out d inp (.seg pc) = .wait d' pc' →
    pc'.newDesk = true →
      (pc'.awaits = true → d'.game = none) →
      (pc'.inGame = true → (∀ seat ∈ d'.pool.armed, d.taken seat) ∧
        (∀ p ∈ rest, ∀ seat, p.aims? = some seat → d.taken seat) ∧
        (pc'.banked = true → d.taken d'.banker)) →
      BankInv (Job.out d inp (.seg pc)).d ((Job.out d inp (.seg pc)).pcs ++ rest) := by
    intro d' pc' ho hnew hwait hgame
    rw [ho] at htaken ⊢
    have hself : ∀ p ∈ pc' :: rest, p.newDesk = true → p = pc' := by
      intro p hp hn
      rcases List.mem_cons.1 hp with rfl | hp
      · rfl
      · exact absurd (hn.symm.trans (hrest p hp)) (by decide)
    refine ⟨fun p hp hw => ?_, fun p hp hin => ?_⟩
    · obtain rfl := hself p hp (newDesk_of_awaits hw)
      exact hwait hw
    · obtain rfl := hself p hp (newDesk_of_inGame hin)
      obtain ⟨hbullets, hcatches, hbanker⟩ := hgame hin
      refine ⟨fun p hp => ?_, fun seat hs => htaken seat (hbullets seat hs),
        fun q hq seat hseat => ?_,
        fun q hq hb => ?_⟩
      · rcases List.mem_cons.1 hp with rfl | hp
        · exact not_standing_of_newDesk hnew
        · exact hstill p hp
      · rcases List.mem_cons.1 hq with rfl | hq
        · rw [aims?_of_newDesk hnew] at hseat
          cases hseat
        · exact htaken seat (hcatches q hq seat hseat)
      · obtain rfl := hself q hq (newDesk_of_banked hb)
        exact htaken _ (hbanker hb)
  have hplaying : pc.inGame = true → Banked d (pc :: rest) := h.playing pc List.mem_cons_self
  have hcatches : pc.inGame = true → ∀ p ∈ rest, ∀ seat, p.aims? = some seat → d.taken seat :=
    fun hin p hp => (hplaying hin).catches p (List.mem_cons_of_mem _ hp)
  have hout : Job.out d inp (.seg pc) = segment (executed d inp pc) inp pc := rfl
  generalize segment (executed d inp pc) inp pc = o at hturn hstays hout
  have hbullets : pc.inGame = true → ∀ seat ∈ o.d.pool.armed, d.taken seat :=
    fun hin seat hs => (hplaying hin).bullets seat (hstays.pool.armed hs)
  cases hturn with
  | waits hw hw' hg =>
      refine single hout (newDesk_of_awaits hw') (fun _ => ?_) fun hin => ?_
      · have hnone := h.waiting pc List.mem_cons_self hw
        have hmap := hexec.game
        rw [hnone] at hmap
        exact hg.trans (Option.map_eq_none_iff.1 hmap)
      · rw [inGame_of_awaits hw'] at hin
        cases hin
  | @enters _ d' hw =>
      have hnone := h.waiting pc List.mem_cons_self hw
      refine single hout rfl (by rintro ⟨⟩) fun _ => ⟨?_, ?_, by rintro ⟨⟩⟩
      · have hnil : d'.pool.armed = [] :=
          armed_of_early (hstays.early .config List.mem_cons_self rfl)
        rw [hnil]
        intro seat hs
        cases hs
      · -- nobody catches without a game
        intro p hp seat hseat
        have hgame := hcatch p hp (catching_of_aims hseat)
        rw [hnone] at hgame
        cases hgame
  | sets => exact single hout rfl (by rintro ⟨⟩) fun _ => ⟨hbullets rfl, hcatches rfl, by rintro ⟨⟩⟩
  | elects hu hbanker =>
      refine single hout rfl (by rintro ⟨⟩) fun _ => ⟨hbullets rfl, hcatches rfl, fun _ => ?_⟩
      rw [hbanker, objs_executed]
      exact hplaced.taken (husers ▸ hu)
  | runs hbanker =>
      refine single hout rfl (by rintro ⟨⟩) fun _ => ⟨hbullets rfl, hcatches rfl, fun _ => ?_⟩
      rw [hbanker, hexec.banker]
      exact (hplaying rfl).banker .gamerun List.mem_cons_self rfl
  | ends hpcs =>
      rw [hout]
      have hno : ∀ p ∈ o.pcs ++ rest, p.inGame = false ∧ p.awaits = false := by
        intro p hp
        rcases List.mem_append.1 hp with hp | hp
        · exact hpcs p hp
        · have hn := hrest p hp
          cases p <;> first | exact ⟨rfl, rfl⟩ | cases hn
      refine ⟨fun p hp hw => ?_, fun p hp hin => ?_⟩
      · rw [(hno p hp).2] at hw
        cases hw
      · rw [(hno p hp).1] at hin
        cases hin

end Job

/-! ### Whoever acts -/

/-- A user who acts and does not watch has a seat, unless one is pending for him. -/
theorem Placed.seated {d : Desk} {l : List Pc} (h : Placed d l) (hl : pending l = [])
    {uid : ℕ} {u : Ref}
    (hu : d.usermap.lookup uid = some u) (ha : (d.objs u).audience ≠ some true) :
    u ∈ vals d.users := by
  have hm := (h.others uid u hu).resolve_right ha
  rw [occupants, hl, List.map_nil, List.append_nil] at hm
  exact hm

/-- A command serves a request, and takes no pending seat. -/
theorem serving_of_command {d : Desk} {j : Job} {p : Ref × Cmd} (h : j.command d = some p) :
    j.serving = true ∧ pending j.pcs = [] := by
  cases j with
  | req r => cases r <;> first | exact ⟨rfl, rfl⟩ | cases h
  | cmd u c => exact ⟨rfl, rfl⟩
  | seg pc => cases pc <;> first | exact ⟨rfl, rfl⟩ | cases h

/-- Once there is a game, it has started. -/
theorem started_of_inGame {d : Desk} {l : List Pc} (hsum : SumInv d l)
    (hstaged : Staged d l) {pc : Pc}
    (hpc : pc ∈ l) (hin : pc.inGame = true) : d.started = true := by
  have hnew := newDesk_of_inGame hin
  have hres : pc.result? = none := by cases pc <;> first | rfl | cases hin
  obtain ⟨g, hg, -⟩ := hstaged.game pc hpc hin
  obtain ⟨hstart, hcount⟩ := (hsum.fair (hsum.goes pc hpc hnew hres)).begun (by rw [hg]; rfl)
  simp [Desk.started, hstart, hcount]

/-- Only `new_desk` makes a game. -/
theorem game_none_job {d : Desk} {inp : Inp} {j : Job} (hj : ∀ pc ∈ j.pcs, pc.newDesk = false)
    (h : d.game = none) : (j.out d inp).d.game = none := by
  cases hplays : j.plays d with
  | false =>
      have hmap := (quiet_job d inp hplays).game.game
      rw [h] at hmap
      exact Option.map_eq_none_iff.1 hmap
  | true =>
      have hcourse : SameCourse d (j.out d inp).d :=
        sameCourse_job hj (by rintro usern rfl; cases hplays)
      have hsync : (j.out d inp).d.game.map Game.sync = d.game.map Game.sync := hcourse.sync
      rw [h] at hsync
      exact Option.map_eq_none_iff.1 hsync

/-! ### Runs -/

section Runs

variable {id creater timelimit : ℕ} {pay : Pay} {s : Sys}

/-- Nothing is pending when a command is served. -/
theorem pending_of_command (h : desk.Reach Complete (created id creater pay timelimit) s)
    {e : Ev} {j : Job}
    {inp : Inp} {p : Ref × Cmd} (hC : Complete s e) (hj : jobOf s e = some (j, inp))
    (hp : j.command s.shared = some p) : pending (pcs s) = [] := by
  obtain ⟨hserve, hnil⟩ := serving_of_command hp
  obtain ⟨rest, hperm⟩ : ∃ rest, (pcs s).Perm (j.pcs ++ rest) := by
    cases e with
    | call r inp' =>
        refine ⟨pcs s, ?_⟩
        have hpcs : j.pcs = [] := by
          cases r with
          | client uid c =>
              rw [jobOf] at hj
              split at hj
              · cases hj
              · obtain ⟨u, -, hu⟩ := Option.map_eq_some_iff.1 hj
                cases hu
                rfl
          | _ => cases hj; rfl
        rw [hpcs]
        exact List.Perm.refl _
    | resume k inp' =>
        obtain ⟨co, hk, hco⟩ := Option.map_eq_some_iff.1 hj
        cases hco
        obtain ⟨hlt, rfl⟩ := List.getElem?_eq_some_iff.1 hk
        refine ⟨((s.cos.take k) ++ s.cos.drop (k + 1)).map Co.pc, ?_⟩
        have hsplit : s.cos = s.cos.take k ++ s.cos[k] :: s.cos.drop (k + 1) := by simp
        conv_lhs => rw [pcs, hsplit]
        simp only [List.map_append, List.map_cons, Job.pcs, List.singleton_append]
        exact List.perm_middle
  have hrest := (alone_of_complete h).rest hC hj hperm hserve
  have hpend : (pending (pcs s)).Perm (pending (j.pcs ++ rest)) := hperm.filterMap _
  rw [pending_append, hnil, pending_of_not_serving hrest] at hpend
  exact List.perm_nil.1 hpend

/-- **Whoever fires sits where his object says.** -/
theorem taken_of_fires (h : desk.Reach Complete (created id creater pay timelimit) s)
    {e : Ev} {j : Job}
    {inp : Inp} (hC : Orderly s e) (hj : jobOf s e = some (j, inp)) {u : Ref} {kind : Option ℤ}
    (hcmd : j.command s.shared = some (u, .userfire kind))
    (ha : (s.shared.objs u).audience ≠ some true) : u ∈ vals s.shared.users := by
  have hplaced := placed_of_sitsApart (h.mono fun s e => sitsApart_of_complete e)
  have hwhole : Whole s j := by simpa only [Under, hj] using hC.2
  exact hplaced.seated (pending_of_command h hC.1 hj hcmd) (hwhole.1 _ hcmd) ha

theorem bankInv_of_orderly (h : desk.Reach Orderly (created id creater pay timelimit) s) :
    BankInv s.shared (pcs s) := by
  have hcomplete : ∀ s, desk.Reach Orderly (created id creater pay timelimit) s →
      desk.Reach Complete (created id creater pay timelimit) s :=
        fun s hs => hs.mono fun _ _ hC => hC.1
  have hall : ∀ s, desk.Reach Orderly (created id creater pay timelimit) s →
      desk.Reach Complete (created id creater pay timelimit) s ∧ OneNewDesk s.shared (pcs s) ∧
      Placed s.shared (pcs s) ∧ SumInv s.shared (pcs s) ∧ Staged s.shared (pcs s) :=
    fun s hs => ⟨hcomplete s hs, one_newDesk hs,
      placed_of_sitsApart ((hcomplete s hs).mono fun s e => sitsApart_of_complete e),
      sumInv_of_complete (hcomplete s hs), staged_of_reach hs⟩
  refine desk_inv ?_ ?_ ?_ ?_ ?_ (h.and_inv hall)
  · intro d l l' hp hI
    have hmem : ∀ pc ∈ l', pc ∈ l := fun pc hm => hp.mem_iff.2 hm
    refine ⟨fun pc hm => hI.waiting pc (hmem pc hm), fun pc hm hin => ?_⟩
    have hb := hI.playing pc (hmem pc hm) hin
    exact ⟨fun p hp => hb.still p (hmem p hp), hb.bullets, fun p hp => hb.catches p (hmem p hp),
      fun p hp => hb.banker p (hmem p hp)⟩
  · intro d l b q hI
    refine ⟨hI.waiting, fun pc hm hin => ?_⟩
    have hb := hI.playing pc hm hin
    exact ⟨hb.still, hb.bullets, hb.catches, hb.banker⟩
  · intro d l u c hI
    refine ⟨fun pc hm hw => ?_, fun pc hm hin => ?_⟩
    · rcases List.mem_cons.1 hm with rfl | hm
      · cases hw
      · exact hI.waiting pc hm hw
    · rcases List.mem_cons.1 hm with rfl | hm
      · cases hin
      · have hb := hI.playing pc hm hin
        refine ⟨fun p hp => ?_, hb.bullets, fun p hp seat hseat => ?_, fun p hp hbank => ?_⟩
        · rcases List.mem_cons.1 hp with rfl | hp
          · rfl
          · exact hb.still p hp
        · rcases List.mem_cons.1 hp with rfl | hp
          · cases hseat
          · exact hb.catches p hp seat hseat
        · rcases List.mem_cons.1 hp with rfl | hp
          · cases hbank
          · exact hb.banker p hp hbank
  · refine ⟨fun _ _ _ => rfl, fun pc hm hin => ?_⟩
    obtain rfl : pc = .monitor := by simpa [created, pcs] using hm
    cases hin
  · rintro s e j inp rest ⟨hC, hreach, hone, hplaced, hsum, hstaged⟩ hj hp _ hI
    have hwhole : Whole s j := by simpa only [Under, hj] using hC.2
    by_cases hnew : ∀ pc ∈ j.pcs, pc.newDesk = false
    · refine hI.job hnew (game_none_job hnew) (fun pc hm hin => ?_) ?_
      · exact started_of_inGame hsum hstaged (hp.mem_iff.2 (List.mem_append_right _ hm)) hin
      · rintro seat ⟨u, kind, hcmd, ha, rfl⟩
        exact hplaced.taken (taken_of_fires hreach hC hj hcmd ha)
    · cases j with
      | req r => exact (hnew fun pc hpc => by cases hpc).elim
      | cmd u c => exact (hnew fun pc hpc => by cases hpc).elim
      | seg pc =>
          have hpc : pc.newDesk = true := by simpa [Job.pcs] using hnew
          have hmem : ∀ p ∈ rest, p ∈ pcs s := fun p hm => hp.mem_iff.2 (List.mem_cons_of_mem _ hm)
          refine hI.newDesk (hone.perm hp) hpc (fun p hm => ?_) (hplaced.perm hp) (fun he => ?_)
            fun p hm hc => hsum.playing p (hmem p hm) hc
          · exact hwhole.2 ⟨pc, List.mem_cons_self, hpc⟩ p (hmem p hm)
          · exact early_of_reach hreach pc (hp.mem_iff.2 List.mem_cons_self) he

/-- **The banker is a seated player** as long as `d.gaming` is set, when operations are complete
before the next begins.  `determin_banker` picks one who grabbed if there is any, and `userfire`
finds the shooter and a different banker. -/
theorem bankerSeated_of_orderly (h : desk.Reach Orderly (created id creater pay timelimit) s) :
    (s.shared.gaming = some true →
      ∃ v ∈ vals s.shared.users, (s.shared.objs v).seat = s.shared.banker) ∧
    (∀ roll d', determinBanker s.shared roll = some d' → ∃ u ∈ vals s.shared.users,
      d'.banker = (s.shared.objs u).seat ∧
      ((∃ v ∈ vals s.shared.users, (s.shared.objs v).grabbed = true) →
        (s.shared.objs u).grabbed = true)) ∧
    ∀ e j inp u kind, s.shared.gaming = some true → Orderly s e → jobOf s e = some (j, inp) →
      j.command s.shared = some (u, .userfire kind) → (s.shared.objs u).seat ≠ s.shared.banker →
      (s.shared.objs u).audience ≠ some true →
      s.shared.finds (s.shared.objs u).seat s.shared.banker := by
  have hreach : desk.Reach Complete (created id creater pay timelimit) s :=
    h.mono fun _ _ hC => hC.1
  have hplaced := placed_of_sitsApart (hreach.mono fun s e => sitsApart_of_complete e)
  have hbanker : s.shared.gaming = some true → s.shared.taken s.shared.banker := by
    intro hgaming
    have hmem := (staged_of_reach h).gaming.1 hgaming
    exact ((bankInv_of_orderly h).playing .gameend hmem rfl).banker .gameend hmem rfl
  refine ⟨fun hgaming => ?_, fun roll d' hd' => determinBanker_spec hd', ?_⟩
  · obtain ⟨v, hv, hseat, -⟩ := hplaced.of_taken (hbanker hgaming)
    exact ⟨v, hv, hseat⟩
  · intro e j inp u kind hgaming hC hj hcmd hne ha
    have hu := taken_of_fires hreach hC hj hcmd ha
    obtain ⟨w, -, hw, hatw⟩ := hplaced.of_taken (hplaced.taken hu)
    obtain ⟨v, -, hv, hatv⟩ := hplaced.of_taken (hbanker hgaming)
    refine ⟨w, v, ?_, hatw, hatv⟩
    rintro rfl
    exact hne (hw.symm.trans hv)

/-- User 2 fires at the fish; the creator is the banker. -/
theorem bankerSeated_gameOn :
    ∃ s u, desk.Reach Orderly (created 100001 1 ⟨true, 3⟩ 30) s ∧ s.shared.gaming = some true ∧
      admits s.shared 2 = some u ∧ s.shared.finds (s.shared.objs u).seat s.shared.banker := by
  let e : Ev := .call (.client 2 (.userfire (some 0))) { cfg := pond }
  obtain ⟨s, hs, hp⟩ := Machine.exists_reach gameOn
    (p := fun s => decide (s.shared.gaming = some true ∧ s.shared.csBusy = false ∧ Orderly s e) &&
      (admits s.shared 2).any fun u => decide ((s.shared.objs u).seat ≠ s.shared.banker ∧
        (s.shared.objs u).audience ≠ some true))
    (C := Orderly) (i := created 100001 1 ⟨true, 3⟩ 30) (M := desk) (by decide +kernel)
  obtain ⟨hstate, hu⟩ := Bool.and_eq_true_iff.1 hp
  obtain ⟨hgaming, hfree, hC⟩ := of_decide_eq_true hstate
  obtain ⟨u, hu, hp⟩ := (Option.any_eq_true _ _).1 hu
  obtain ⟨hseat, ha⟩ := of_decide_eq_true hp
  have hj : jobOf s e = some (.cmd u (.userfire (some 0)), { cfg := pond }) := by
    simp [jobOf, e, hfree, hu]
  exact ⟨s, u, hs, hgaming, hu,
    (bankerSeated_of_orderly hs).2.2 e _ _ u (some 0) hgaming hC hj rfl hseat ha⟩

/-- **A `standup` that was let through before the game leaves during it**: user 2 waits in the walk
of `back_roomcard` while `determin_banker` picks him, and then he gives his seat back. -/
theorem standup_unseats_banker :
    ¬ ∀ (id creater timelimit : ℕ) (pay : Pay) (s : Sys),
      desk.Reach Complete (created id creater pay timelimit) s → s.shared.gaming = some true →
        ∃ v ∈ vals s.shared.users, (s.shared.objs v).seat = s.shared.banker := by
  intro hall
  obtain ⟨s, hs, hp⟩ := Machine.exists_reach
    (allSit ++ allReady ++ [.call (.standup 2) {}, .resume 0 {}, .resume 0 {}, .resume 0 {},
      .resume 0 { timeout := true }, .resume 0 { timeout := true },
      .resume 1 {}, .resume 1 {}, .resume 1 {}, .resume 1 {}])
    (p := fun s => decide (s.shared.gaming = some true ∧
      ∀ v ∈ vals s.shared.users, (s.shared.objs v).seat ≠ s.shared.banker)) (C := Complete)
    (i := created 100001 1 ⟨true, 3⟩ 30) (M := desk) (by decide +kernel)
  obtain ⟨hgaming, hnone⟩ := of_decide_eq_true hp
  obtain ⟨v, hv, hseat⟩ := hall _ _ _ _ s hs hgaming
  exact hnone v hv hseat

end Runs

end Halieutics
