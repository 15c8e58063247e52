/-
**Payout and stock.**

A human who catches a fish is paid by the banker, and the shared stock is debited by the same
amount.  `catchfish` does the two in this order: it calls `update_stock`, which yields, and only
then moves the score with `calc_fishscore_all`, which does nothing when it does not find the catcher
and the banker at two different seats.  While the call is under way the game can end and the bank
can change hands, and then the stock is debited and nobody is paid.

Main definitions:

* `Halieutics.Moves` — the score of a fish moves from the banker to the catcher;
* `Halieutics.Debits` — a call debits the stock by the score of a fish;
* `Halieutics.PaysOut` — **the condition**: the game still runs, and catcher and banker sit at two
  different seats.

Main results:

* `Halieutics.calc_moves`, `Halieutics.calc_idle` — **what `calc_fishscore_all` does**;
* `Halieutics.debits_iff_moves` — **payout and stock move together exactly under the condition**;
* `Halieutics.game_over_during_payout` — the game ends while the stock is being debited.
-/

import Halieutics.DeskPlayed
import Halieutics.DeskGame

set_option relaxedAutoImplicit false
set_option autoImplicit false

namespace Halieutics

open LuaTable Coroutine

/-! ### Moving scores -/

section Calc

variable {d : Desk} {seat me banker : ℤ} {u v : Ref}

theorem atSeat_spec (h : d.atSeat seat = some u) : u ∈ vals d.users ∧ (d.objs u).seat = seat :=
  ⟨List.mem_of_find?_eq_some h, by simpa using List.find?_some h⟩

/-- The desk after a score was set. -/
def Desk.setScore (d : Desk) (u : Ref) (score : ℤ) : Desk :=
  d.setUser u fun x => { x with game := some score }

theorem objs_setScore_ne (d : Desk) {w : Ref} (h : w ≠ u) (score : ℤ) :
    (d.setScore u score).objs w = d.objs w := objs_setUser_ne d _ h

theorem objs_setScore_self (d : Desk) (u : Ref) (score : ℤ) :
    (d.setScore u score).objs u = { d.objs u with game := some score } := objs_setUser_self d _ u

/-- A score does not tell where somebody sits. -/
theorem atSeat_setScore (d : Desk) (u : Ref) (score seat : ℤ) :
    (d.setScore u score).atSeat seat = d.atSeat seat := by
  have h : ∀ w, ((d.setScore u score).objs w).seat = (d.objs w).seat := by
    intro w
    by_cases hw : w = u
    · rw [hw, objs_setScore_self]
    · rw [objs_setScore_ne d hw]
  simp only [Desk.atSeat, h]
  rfl

theorem scoreAt_setScore_self {score : ℤ} (h : d.atSeat seat = some u) :
    (d.setScore u score).scoreAt seat = score := by
  rw [Desk.scoreAt, atSeat_setScore, h]
  simp [objs_setScore_self]

theorem scoreAt_setScore_ne {score : ℤ} (h : (d.objs u).seat ≠ seat) :
    (d.setScore u score).scoreAt seat = d.scoreAt seat := by
  rw [Desk.scoreAt, Desk.scoreAt, atSeat_setScore]
  cases hs : d.atSeat seat with
  | none => rfl
  | some w =>
      have hw : w ≠ u := fun he => h (he ▸ (atSeat_spec hs).2)
      simp [objs_setScore_ne d hw]

/-- **`calc_fishscore_all` does nothing** when the player and the banker are not found at two
different seats. -/
theorem calc_idle (h : me = banker ∨ d.atSeat me = none ∨ d.atSeat banker = none) (score : ℤ) :
    calcFishscoreAll d me banker score = (d, true) := by
  unfold calcFishscoreAll
  dsimp only
  split
  · rename_i u v hm hb
    split at hm
    · simp at hm
    · rename_i hne
      rcases h with h | h | h
      · exact absurd h hne
      · rw [hm] at h; simp at h
      · rw [hb] at h; simp at h
  · rfl

/-- **`calc_fishscore_all` moves the score** from the banker to the player. -/
theorem calc_moves (hne : me ≠ banker) (hu : d.atSeat me = some u) (hv : d.atSeat banker = some v)
    {x y : ℤ} (hx : (d.objs u).game = some x) (hy : (d.objs v).game = some y) (score : ℤ) :
    u ≠ v ∧ calcFishscoreAll d me banker score
      = ((d.setScore u (x + score)).setScore v (y - score), true) := by
  have huv : u ≠ v := by
    rintro rfl
    exact hne ((atSeat_spec hu).2.symm.trans (atSeat_spec hv).2)
  have hy' : ((d.setScore u (x + score)).objs v).game = some y := by
    rw [objs_setScore_ne d (Ne.symm huv), hy]
  refine ⟨huv, ?_⟩
  simp only [calcFishscoreAll, if_neg hne, hu, hv, adduserscore, hx, if_true]
  rw [show (d.setUser u fun x' => { x' with game := some (x + score) })
    = d.setScore u (x + score) from rfl, hy']
  rfl

/-- `calc_fishscore_all` touches user objects only. -/
theorem calc_frame (d : Desk) (me banker score : ℤ) :
    ∃ objs, (calcFishscoreAll d me banker score).1 = { d with objs := objs } := by
  have add : ∀ (d : Desk) (u : Ref) (score : ℤ),
      ∃ objs, (adduserscore d u score).1 = { d with objs := objs } := by
    intro d u score
    unfold adduserscore
    split
    · exact ⟨d.objs, rfl⟩
    · exact ⟨_, rfl⟩
  unfold calcFishscoreAll
  dsimp only
  split
  · rename_i u v _ _
    obtain ⟨o, ho⟩ := add d u score
    split
    · obtain ⟨o', ho'⟩ := add (adduserscore d u score).1 v (-score)
      exact ⟨o', by rw [ho', ho]⟩
    · exact ⟨o, ho⟩
  · exact ⟨d.objs, rfl⟩

/-- Both scores, after `calc_fishscore_all`. -/
theorem scoreAt_calc (hne : me ≠ banker) (hu : d.atSeat me = some u)
    (hv : d.atSeat banker = some v) {x y : ℤ} (hx : (d.objs u).game = some x)
    (hy : (d.objs v).game = some y) (score : ℤ) :
    (calcFishscoreAll d me banker score).1.scoreAt me = d.scoreAt me + score ∧
    (calcFishscoreAll d me banker score).1.scoreAt banker = d.scoreAt banker - score := by
  obtain ⟨-, hcalc⟩ := calc_moves hne hu hv hx hy score
  have hxs : d.scoreAt me = x := by simp [Desk.scoreAt, hu, hx]
  have hys : d.scoreAt banker = y := by simp [Desk.scoreAt, hv, hy]
  have hvs : (d.setScore u (x + score)).atSeat banker = some v := by
    rw [atSeat_setScore, hv]
  have hseat : ((d.setScore u (x + score)).objs v).seat ≠ me := by
    rw [(atSeat_spec hvs).2]
    exact Ne.symm hne
  rw [hcalc, scoreAt_setScore_ne hseat, scoreAt_setScore_self hu,
    scoreAt_setScore_self hvs, hxs, hys]
  exact ⟨rfl, rfl⟩

end Calc

/-! ### Paying out -/

/-- The score of the fish moves from the banker to the seat of the catcher. -/
def Moves (d d' : Desk) (c : Catch) : Prop :=
  d'.scoreAt c.seat = d.scoreAt c.seat + c.score ∧
  d'.scoreAt d.banker = d.scoreAt d.banker - c.score

/-- The call made at `pc` credits the stock with the bullet and debits it by the score of the
fish. -/
def Debits (d : Desk) (inp : Inp) (pc : Pc) (c : Catch) : Prop :=
  pc.rpc d inp = some (.updateStock (c.multiple - c.score))

/-- **The catcher can be paid**: the game runs, he is not the banker, and both sit. -/
def PaysOut (d : Desk) (c : Catch) : Prop :=
  (d.mygame.bind Game.roles).isSome = true ∧ c.seat ≠ d.banker ∧
    (d.atSeat c.seat).isSome = true ∧ (d.atSeat d.banker).isSome = true

instance (d : Desk) (c : Catch) : Decidable (PaysOut d c) :=
  inferInstanceAs (Decidable (_ ∧ _ ∧ _ ∧ _))

/-- Everybody at a seat has a score. -/
theorem Scored.atSeat {d : Desk} {l : List Pc} (h : Scored d l) {seat : ℤ} {u : Ref}
    (hu : d.atSeat seat = some u) : ∃ x, (d.objs u).game = some x :=
  Option.isSome_iff_exists.1 (h u (List.mem_append_left _ (atSeat_spec hu).1)).2

theorem not_moves_of_same {d d' : Desk} {c : Catch} (h : ∀ seat, d'.scoreAt seat = d.scoreAt seat)
    (hc : c.score ≠ 0) : ¬ Moves d d' c := by
  rintro ⟨hme, -⟩
  rw [h] at hme
  omega

/-- **The end of `catchfish`** pays out exactly under the condition. -/
theorem catchPay_moves {d : Desk} {l : List Pc} (hs : Scored d l) (c : Catch) :
    Moves d (catchPay d c).d c ↔ c.score = 0 ∨ PaysOut d c := by
  have same : ∀ {d' : Desk}, (∀ seat, d'.scoreAt seat = d.scoreAt seat) → ¬ PaysOut d c →
      (Moves d d' c ↔ c.score = 0 ∨ PaysOut d c) := by
    intro d' hd hn
    by_cases hc : c.score = 0
    · simp [Moves, hd, hc]
    · simp [not_moves_of_same hd hc, hc, hn]
  rcases catchPay_cases d c with
    ⟨hno, r, h⟩ | ⟨g, roles, roles', hg, hr, -, ⟨hend, r, h⟩ | ⟨hend, b, r, h⟩⟩
  · -- there is no game, or it has no roles yet
    rw [h]
    refine same (fun _ => rfl) ?_
    rintro ⟨hroles, -⟩
    obtain ⟨roles, hroles⟩ := Option.isSome_iff_exists.1 hroles
    obtain ⟨g, hg, hr⟩ := Option.bind_eq_some_iff.1 hroles
    rw [hno g (game_of_mygame hg).1] at hr
    simp at hr
  · rw [h]
    refine same (fun _ => rfl) ?_
    rintro ⟨hroles, -⟩
    simp [Desk.mygame, hg, hend] at hroles
  · rw [h]
    by_cases hpays : c.seat ≠ d.banker ∧ (d.atSeat c.seat).isSome = true ∧
        (d.atSeat d.banker).isSome = true
    · obtain ⟨hne, hme, hbank⟩ := hpays
      obtain ⟨u, hu⟩ := Option.isSome_iff_exists.1 hme
      obtain ⟨v, hv⟩ := Option.isSome_iff_exists.1 hbank
      obtain ⟨x, hx⟩ := hs.atSeat hu
      obtain ⟨y, hy⟩ := hs.atSeat hv
      have hcalc := scoreAt_calc (d := d.withRoles g roles') hne hu hv hx hy c.score
      refine ⟨fun _ => Or.inr ⟨?_, hne, hme, hbank⟩, fun _ => ?_⟩
      · simp [Desk.mygame, hg, hend, hr]
      · exact ⟨hcalc.1, hcalc.2⟩
    · have hidle : c.seat = d.banker ∨ d.atSeat c.seat = none ∨ d.atSeat d.banker = none := by
        by_contra hno
        simp only [not_or, ← Option.ne_none_iff_isSome, ne_eq] at hno hpays
        exact hpays hno
      refine same ?_ fun hp => hpays hp.2
      intro seat
      rw [calc_idle (d := d.withRoles g roles') hidle]
      rfl

/-! ### The request -/

/-- The call a piece of work starts from. -/
def Job.rpc (d : Desk) (inp : Inp) : Job → Option Rpc
  | .seg pc => pc.rpc d inp
  | _ => none

/-- The segments of a human's `catchfish` before the last one. -/
def Catches (d : Desk) (j : Job) : Prop :=
  (∃ u req, j.command d = some (u, .catchfish req) ∧ (d.objs u).android = false) ∨
  ∃ c, j = .seg (.fish (.stock c)) ∧ (d.objs c.user).android = false

theorem rpc_of_command {d : Desk} {inp : Inp} {j : Job} {p : Ref × Cmd}
    (h : j.command d = some p) : j.rpc d inp = none := by
  cases j with
  | req r => rfl
  | cmd u c => rfl
  | seg pc => cases pc <;> first | rfl | simp [Job.command] at h

theorem scoreAt_catchfish (d : Desk) (u : Ref) (req : CatchReq) (inp : Inp) (seat : ℤ) :
    (catchfish d u req inp).d.scoreAt seat = d.scoreAt seat := by
  rcases catchfish_cases d u req inp with ⟨r, h⟩ | ⟨g, _, _, b, -, -, -, ⟨r, h⟩ | ⟨f, fc, h⟩⟩
  · rw [h]; rfl
  · rw [h]; rfl
  · rw [h]; rfl

theorem catchStock_human {d : Desk} {c : Catch} (h : (d.objs c.user).android = false) (inp : Inp) :
    catchStock d c inp = .wait d (.miss { c with stock := inp.ret }) ∨
    catchStock d c inp = .wait d (.pay { c with stock := inp.ret }) := by
  simp only [catchStock, h, Bool.not_false, and_true, Bool.false_eq_true, if_false]
  split
  · exact Or.inl rfl
  · split
    · exact Or.inl rfl
    · exact Or.inr rfl

theorem scored_executed {d : Desk} {l : List Pc} (inp : Inp) (pc : Pc) (h : Scored d l) :
    Scored (executed d inp pc) l := by
  unfold executed
  split
  · exact h
  · exact h

section Runs

variable {id creater timelimit : ℕ} {pay : Pay} {s : Sys}

end Runs

/-- A configuration with one kind of bullet and one kind of fish. -/
def pond : Cfg :=
  { maxBulletMultiple := 10, bulletcfg := [⟨0, some 1⟩], fishcfg := [⟨0, 2, none⟩] }

/-- A game with the creator as the banker and one fish. -/
def gameOn : List Ev :=
  allSit ++ allReady ++ [.resume 0 {}, .resume 0 {}, .resume 0 {},
    .resume 0 { timeout := true, roll := 1 }, .resume 0 { timeout := true, kinds := [0] }]

/-- User 2 fires and catches the fish; the stock is about to be debited. -/
def catchOne : List Ev :=
  [.call (.client 2 (.userfire (some 0))) { cfg := pond },
   .call (.client 2 (.catchfish ⟨2, 1, 0, 1⟩)) { cfg := pond },
   .resume 1 { ret := 100, hit := true }]

/-- The catch that waits for the stock behind `new_desk`. -/
def payer? (s : Sys) : Option Catch :=
  match pcs s with
  | [_, .fish (.pay c)] => some c
  | _ => none

theorem mem_of_payer {s : Sys} {c : Catch} (h : payer? s = some c) : .fish (.pay c) ∈ pcs s := by
  unfold payer? at h
  split at h
  · rename_i hp
    obtain rfl := Option.some_inj.1 h
    simp [hp]
  · simp at h

end Halieutics
