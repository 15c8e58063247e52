/-
**What a piece of work can do.**

The handlers of `Halieutics.RoomDesk` share their ends: standing up may end in leaving, paying back
ends in standing up or in freeing the desk, and every failure of `new_desk` ends in its error
handler.  This module says once, for every handler, what it can leave behind, so that an invariant
of the desk is checked against a short list of possibilities and not against the code again.

Main definitions:

* `Halieutics.Tail` — the ends of `desk.standup` and `desk.leave`;
* `Halieutics.Failed` — the ends of the error handler of `new_desk`;
* `Halieutics.paysBack` — **the requests that begin a walk of `back_roomcard`**;
* `Halieutics.Pc.walk?` — the walk a coroutine is in.

Main results:

* `Halieutics.standup_cases`, `Halieutics.forceDismiss_cases`, `Halieutics.dismissApply_cases`,
  `Halieutics.join_cases`, `Halieutics.sitdown_cases`, `Halieutics.unhandled_cases`, … — **what the
  handlers can do**.
-/

import Halieutics.FishWork
import Halieutics.DeskMachine

set_option relaxedAutoImplicit false
set_option autoImplicit false

namespace Halieutics

open LuaTable Coroutine

/-! ### Standing up and leaving -/

/-- The ends of `desk.standup` and `desk.leave`.  The proposition `U` says when a user may give a
seat back. -/
inductive Tail (U : Prop) (d : Desk) : Out → Prop
  | ret (r : Ret) : Tail U d (.ret d r)
  | agent (uid : ℕ) : Tail U d (.wait d (.dismissAgent uid))
  | kick {uid : ℕ} {u : Ref} (k : AfterLeave) :
      d.usermap.lookup uid = some u → (d.objs u).audience = some true →
      Tail U d (kickUser d u (.leave k))
  | lost {uid : ℕ} {u : Ref} (k : AfterLeave) :
      d.usermap.lookup uid = some u → (d.objs u).audience = none →
      Tail U d (kickUser { d with sync := d.sync.add (d.objs u).seat false } u (.leave k))
  | stand {seat : ℤ} {v : Ref} (k : AfterStandup) :
      U → d.users.lookup seat = some v → seat ≠ -1 →
      Tail U d (.wait (unseat d seat v) (.standRemove (d.objs v).id k))

variable {U : Prop}

theorem tail_afterLeave (d : Desk) (r : Ret) (k : AfterLeave) : Tail U d (afterLeave d r k) := by
  cases k with
  | ret => exact .ret r
  | dismissApply u =>
      dsimp only [afterLeave]
      split
      · exact .agent _
      · exact .ret _

theorem tail_leave (d : Desk) (uid : ℕ) (k : AfterLeave) : Tail U d (leave d uid k) := by
  unfold leave
  split
  · exact .ret _
  · cases hu : d.usermap.lookup uid with
    | none => exact .ret _
    | some u =>
        cases ha : (d.objs u).audience with
        | none => simpa only [ha] using Tail.lost k hu ha
        | some a =>
            cases a with
            | false => simpa only [ha] using tail_afterLeave d _ k
            | true => simpa only [ha] using Tail.kick k hu ha

theorem tail_afterStandup (d : Desk) (r : Ret) (k : AfterStandup) :
    Tail U d (afterStandup d r k) := by
  cases k with
  | ret => exact .ret r
  | dismissApply u => exact tail_leave d _ _

theorem tail_actstandup (d : Desk) (seat : ℤ) (k : AfterStandup) (hU : U) :
    Tail U d (actstandup d seat k) := by
  unfold actstandup
  split
  · exact tail_afterStandup d _ k
  · split
    · exact tail_afterStandup d _ k
    · exact .stand k hU (by assumption) (by assumption)

/-! ### Walks -/

/-- `desk.standup` has to pay the user back. -/
def standupPays (d : Desk) (uid : ℕ) : Bool :=
  d.live && !d.started &&
    match d.usermap.lookup uid with
    | none => false
    | some u => d.pay.AA && (d.creater != (d.objs u).id)

/-- `cli:dismiss_apply` acts at once: there is neither a dismissal nor a game. -/
def dismissesNow (d : Desk) : Bool :=
  match d.dismiss with
  | .no => !d.started
  | _ => false

/-- **The work that begins a walk**: `desk.standup` by a user who has to be paid back,
`desk.force_dismiss` of a desk that is not started, and `cli:dismiss_apply` before the start. -/
def paysBack (d : Desk) (j : Job) : Bool :=
  d.costList != [] &&
    match j with
    | .req (.standup uid) => standupPays d uid
    | .req .forceDismiss => d.live && !d.isstart
    | j =>
        match j.command d with
        | some (u, .dismissApply) =>
            dismissesNow d && ((d.objs u).master || standupPays d (d.objs u).id)
        | _ => false

/-- Where in its loop a walk is: before or after paying back the entry at its index, or at its
end. -/
inductive Stage where
  | before (c : Cost)
  | after (c : Cost)
  | save

/-- The walk a coroutine is in. -/
def Pc.walk? : Pc → Option (Walk × Stage)
  | .backRecord w c => some (w, .before c)
  | .backAdd w c => some (w, .before c)
  | .backQuery w c => some (w, .after c)
  | .backPush w c => some (w, .after c)
  | .backSave w => some (w, .save)
  | _ => none

/-- A walk stops at an entry to pay back, or at its end; nothing else changes. -/
theorem walk_cases (d : Desk) (w : Walk) (cs : List Cost) :
    ∃ w' pc, walk d w cs = .wait d pc ∧ w'.k = w.k ∧ w'.tab = w.tab ∧ w'.userid = w.userid ∧
      ((∃ c, pc = .backRecord w' c) ∨ pc = .backSave w') := by
  induction cs generalizing w with
  | nil => exact ⟨w, _, rfl, rfl, rfl, rfl, Or.inr rfl⟩
  | cons c cs ih =>
      unfold walk
      split
      · exact ⟨w, _, rfl, rfl, rfl, rfl, Or.inl ⟨c, rfl⟩⟩
      · exact ih _

theorem backRoomcard_cases (d : Desk) (userid : Option ℕ) (k : AfterBack) :
    backRoomcard d userid k = afterBack d k ∨
    (d.costList ≠ [] ∧ backRoomcard d userid k = startWalk d userid k) := by
  unfold backRoomcard
  split
  · exact Or.inl rfl
  · exact Or.inr ⟨by assumption, rfl⟩

/-- **What `desk.standup` can do.** -/
theorem standup_cases (d : Desk) (uid : ℕ) (k : AfterStandup) :
    Tail (d.started = false) d (standup d uid k) ∨
    (d.costList ≠ [] ∧ standupPays d uid = true ∧ ∃ u, d.usermap.lookup uid = some u ∧
      standup d uid k = startWalk d (some (d.objs u).id) (.standup u k)) := by
  unfold standup
  split
  · exact Or.inl (.ret _)
  · rename_i hlive
    split
    · exact Or.inl (tail_afterStandup d _ k)
    · rename_i hst
      have hno : d.started = false := by simpa using hst
      cases hu : d.usermap.lookup uid with
      | none => exact Or.inl (.ret _)
      | some u =>
          dsimp only
          split
          · rename_i hpay
            rcases backRoomcard_cases d (some (d.objs u).id) (.standup u k) with h | ⟨hc, h⟩
            · rw [h]
              exact Or.inl (tail_actstandup d _ k hno)
            · refine Or.inr ⟨hc, ?_, u, rfl, h⟩
              simp only [Bool.not_eq_true, Bool.not_eq_false'] at hlive
              simp [standupPays, hu, hlive, hno, hpay]
          · exact Or.inl (tail_actstandup d _ k hno)

/-- **What `desk.force_dismiss` can do.** -/
theorem forceDismiss_cases (d : Desk) :
    (∃ r, forceDismiss d = .ret d r) ∨
    (d.live = true ∧ d.isstart = false ∧
      ((∃ r, forceDismiss d = .ret { d with dimiss := true } r) ∨
       forceDismiss d = freeDesk { d with dimiss := true } (.code 1) ∨
       (d.costList ≠ [] ∧
         forceDismiss d = startWalk { d with dimiss := true } none (.free (.code 1))))) := by
  unfold forceDismiss
  split
  · exact Or.inl ⟨_, rfl⟩
  · rename_i hlive
    split
    · exact Or.inl ⟨_, rfl⟩
    · rename_i hst
      simp only [Bool.not_eq_true, Bool.not_eq_false'] at hlive hst
      refine Or.inr ⟨hlive, hst, ?_⟩
      dsimp only
      split
      · exact Or.inl ⟨_, rfl⟩
      · rcases backRoomcard_cases { d with dimiss := true } none (.free (.code 1)) with h | ⟨hc, h⟩
        · exact Or.inr (Or.inl h)
        · exact Or.inr (Or.inr ⟨hc, h⟩)

/-- **What `cli:dismiss_apply` can do.** -/
theorem dismissApply_cases (d : Desk) (u : Ref) :
    (∃ r, dismissApply d u = .ret d r) ∨
    (d.dismiss = .no ∧ d.started = true ∧ ∃ v,
      dismissApply d u = ⟨{ d with dismiss := .vote v }, .ret (.wait 30), [.voteStart]⟩) ∨
    (dismissesNow d = true ∧ (d.objs u).master = true ∧
      (dismissApply d u = freeDesk { d with dismiss := .yes } .nil ∨
       (d.costList ≠ [] ∧
         dismissApply d u = startWalk { d with dismiss := .yes } none (.free .nil)))) ∨
    (dismissesNow d = true ∧
      dismissApply d u = standup d (d.objs u).id (.dismissApply u)) := by
  unfold dismissApply
  cases hd : d.dismiss with
  | yes => exact Or.inl ⟨_, rfl⟩
  | vote v => exact Or.inl ⟨_, rfl⟩
  | no =>
      dsimp only
      split
      · exact Or.inr (Or.inl ⟨rfl, by assumption, _, rfl⟩)
      · rename_i hst
        have hnow : dismissesNow d = true := by simpa [dismissesNow, hd] using hst
        split
        · rename_i hm
          refine Or.inr (Or.inr (Or.inl ⟨hnow, hm, ?_⟩))
          exact backRoomcard_cases { d with dismiss := .yes } none (.free .nil)
        · exact Or.inr (Or.inr (Or.inr ⟨hnow, rfl⟩))

/-! ### Joining and sitting down -/

/-- **What `desk.join` can do.** -/
theorem join_cases (d : Desk) (uid : ℕ) (android : Bool) (inp : Inp) :
    (∃ r, join d uid android inp = .ret d r) ∨
    (∃ user : User, user.id = uid ∧ user.seat = -1 ∧ user.audience = some true ∧
      d.usermap.lookup uid = none ∧
      join d uid android inp = .wait (joinin d user) (.joinAdd d.nobj)) := by
  unfold join
  split
  · exact Or.inl ⟨_, rfl⟩
  · split
    · exact Or.inl ⟨_, rfl⟩
    · split
      · exact Or.inl ⟨_, rfl⟩
      · rename_i hnew
        split
        · exact Or.inl ⟨_, rfl⟩
        · refine Or.inr ⟨_, rfl, rfl, rfl, ?_, rfl⟩
          simpa using hnew

/-- A seat taken out of the free seats, and the seats that stay free. -/
def Takes (free : List ℤ) (seat : ℤ) (rest : List ℤ) : Prop :=
  seat ∈ free ∧ (free.Nodup → free.Perm (seat :: rest))

theorem takes_erase {free : List ℤ} {seat : ℤ} (h : seat ∈ free) :
    Takes free seat ((free.erase seat).erase seat) := by
  refine ⟨h, fun hn => ?_⟩
  rw [List.erase_of_not_mem (hn.not_mem_erase)]
  exact List.perm_cons_erase h

theorem takes_getLast {free : List ℤ} {seat : ℤ} (h : free.getLast? = some seat) :
    Takes free seat free.dropLast := by
  have hfree : free = free.dropLast ++ [seat] := by
    obtain ⟨l, rfl⟩ := List.getLast?_eq_some_iff.1 h
    simp
  refine ⟨by rw [hfree]; simp, fun _ => ?_⟩
  rw [hfree, List.dropLast_concat]
  exact List.perm_append_comm

theorem initUser_cases (d : Desk) (u : Ref) (p : Option (ℤ × List ℤ))
    (hp : ∀ q, p = some q → q.1 ∈ d.freeseats ∧ q.2 = d.freeseats.erase q.1) :
    (∃ r, initUser d u p = .ret d r) ∨
    (∃ seat rest, Takes d.freeseats seat rest ∧
      initUser d u p = .wait (assignSeat d u seat rest) (.sitAdd u seat)) := by
  cases p with
  | some q =>
      obtain ⟨hmem, hrest⟩ := hp q rfl
      refine Or.inr ⟨q.1, _, takes_erase hmem, ?_⟩
      rw [initUser, hrest]
  | none =>
      unfold initUser
      cases hl : d.freeseats.getLast? with
      | none => exact Or.inl ⟨_, rfl⟩
      | some seat => exact Or.inr ⟨seat, _, takes_getLast hl, rfl⟩

theorem getfreeseat_spec (seats : List ℤ) (start : ℤ) (q : ℤ × List ℤ)
    (h : getfreeseat seats start = some q) : q.1 ∈ seats ∧ q.2 = seats.erase q.1 := by
  obtain ⟨v, hv, rfl⟩ := Option.map_eq_some_iff.1 h
  exact ⟨List.mem_of_find?_eq_some hv, rfl⟩

theorem remtableitem_spec (seats : List ℤ) (item : ℤ) (q : ℤ × List ℤ)
    (h : remtableitem seats item = some q) : q.1 ∈ seats ∧ q.2 = seats.erase q.1 := by
  unfold remtableitem at h
  split at h
  · obtain rfl := Option.some_inj.1 h
    exact ⟨by assumption, rfl⟩
  · exact absurd h (by simp)

/-- **What `desk.sitdown` can do.** -/
theorem sitdown_cases (d : Desk) (uid : ℕ) (withseat : Option ℤ) :
    (∃ r, sitdown d uid withseat = .ret d r) ∨
    (∃ u seat rest, d.live = true ∧ d.hasSeat uid = false ∧ d.usermap.lookup uid = some u ∧
      Takes d.freeseats seat rest ∧
      sitdown d uid withseat = .wait (assignSeat d u seat rest) (.sitAdd u seat)) := by
  unfold sitdown
  split
  · exact Or.inl ⟨_, rfl⟩
  · rename_i hlive
    split
    · exact Or.inl ⟨_, rfl⟩
    · rename_i hseat
      simp only [Bool.not_eq_true, Bool.not_eq_false'] at hlive hseat
      cases hu : d.usermap.lookup uid with
      | none => exact Or.inl ⟨_, rfl⟩
      | some u =>
          have key : ∀ p, (∀ q, p = some q → q.1 ∈ d.freeseats ∧ q.2 = d.freeseats.erase q.1) →
              (∃ r, initUser d u p = .ret d r) ∨
              (∃ u' seat rest, d.live = true ∧ d.hasSeat uid = false ∧ some u = some u' ∧
                Takes d.freeseats seat rest ∧
                initUser d u p = .wait (assignSeat d u' seat rest) (.sitAdd u' seat)) := by
            intro p hp
            rcases initUser_cases d u p hp with h | ⟨seat, rest, ht, h⟩
            · exact Or.inl h
            · exact Or.inr ⟨u, seat, rest, hlive, hseat, rfl, ht, h⟩
          dsimp only
          split
          · exact Or.inl ⟨_, rfl⟩
          · split
            · exact key _ (getfreeseat_spec _ _)
            · cases withseat with
              | none => exact key _ (getfreeseat_spec _ _)
              | some seat =>
                  dsimp only
                  cases hr : remtableitem d.freeseats seat with
                  | none => exact Or.inl ⟨_, rfl⟩
                  | some p =>
                      refine key _ ?_
                      rintro q hq
                      obtain rfl := Option.some_inj.1 hq
                      exact remtableitem_spec _ _ _ hr

/-! ### The coroutine of the desk -/

/-- The ends of the error handler of `new_desk`. -/
inductive Failed (d : Desk) : Out → Prop
  | raise (r : Ret) : Failed d (.ret d r)
  | forced (r : Ret) : Failed d (.ret (force d) r)
  | gameover (scores : List ℤ) : gameoverScores (force d) = some scores →
      Failed d (.wait ((force d).mark .gameover) (.resultErr scores))
  | free : Failed d (freeDesk d .nil)
  | back : d.count = 0 → d.costList ≠ [] → Failed d (startWalk d none (.free .nil))

theorem failed_afterError (d : Desk) : Failed d (afterError d) := by
  unfold afterError
  split
  · rename_i hc
    rcases backRoomcard_cases d none (.free .nil) with h | ⟨hl, h⟩
    · rw [h]
      exact .free
    · rw [h]
      exact .back hc hl
  · exact .free

theorem failed_unhandled (d : Desk) : Failed d (unhandled d) := by
  unfold unhandled
  split
  · exact .raise _
  · split
    · exact failed_afterError d
    · dsimp only
      split
      · exact .forced _
      · exact .gameover _ (by assumption)

theorem sleepOn_cases (d : Desk) (st : St) (pc : Pc) :
    (d.sync.waiting = none ∧ sleepOn d st pc =
      .wait { d with sync := { d.sync with waiting := some st, driver := some .timeout } } pc) ∨
    (d.sync.waiting ≠ none ∧ sleepOn d st pc = unhandled d) := by
  unfold sleepOn Sync.wait
  cases h : d.sync.waiting with
  | none => exact Or.inl ⟨rfl, rfl⟩
  | some st' => exact Or.inr ⟨by simp, rfl⟩

/-! ### Votes and the game -/

theorem force_cases (d : Desk) :
    force d = d ∨ ∃ g, d.mygame = some g ∧
      force d = { d with game := some { g with sync := g.sync.abandon } } := by
  unfold force
  cases hg : d.mygame with
  | none => exact Or.inl rfl
  | some g => exact Or.inr ⟨g, rfl, rfl⟩

theorem voteOutcome_cases (d : Desk) (v : Vote) (usern : ℕ) :
    ∃ d' err, (d' = d ∨ d' = force d) ∧ voteOutcome d v usern = { d' with err := err } := by
  have same : ∃ d' err, (d' = d ∨ d' = force d) ∧ d = { d' with err := err } :=
    ⟨d, d.err, Or.inl rfl, rfl⟩
  have interrupt : ∀ e, ∃ d' err, (d' = d ∨ d' = force d) ∧
      gameInterrupt d e = { d' with err := err } := by
    intro e
    unfold gameInterrupt
    split
    · exact ⟨_, _, Or.inr rfl, rfl⟩
    · exact same
  unfold voteOutcome
  split
  · exact interrupt _
  · split
    · exact interrupt _
    · exact same
  · exact same

/-- **What the end of a vote can do**: it may force the game to end. -/
theorem voteEnd_cases (d : Desk) (usern : ℕ) :
    (∃ r, voteEnd d usern = .ret d r) ∨
    (∃ v d' err r, d.dismiss = .vote v ∧ (d' = d ∨ d' = force d) ∧
      voteEnd d usern = .ret { d' with err := err, dismiss := .no } r) := by
  unfold voteEnd
  cases hd : d.dismiss with
  | no => exact Or.inl ⟨_, rfl⟩
  | yes => exact Or.inl ⟨_, rfl⟩
  | vote v =>
      obtain ⟨d', err, hd', h⟩ := voteOutcome_cases d v usern
      exact Or.inr ⟨v, d', err, .nil, rfl, hd', by dsimp only; rw [h]⟩

/-- A game handler suspends only inside the game. -/
theorem pcs_fish (o : FishOut) : (Out.fish o).pcs = [] ∨ ∃ pc, (Out.fish o).pcs = [.fish pc] := by
  cases o with
  | ret d r => exact Or.inl rfl
  | wait d pc => exact Or.inr ⟨pc, rfl⟩

theorem d_fish (o : FishOut) : (Out.fish o).d = o.d := by
  cases o <;> rfl

theorem frame_fishSegment (d : Desk) (inp : Inp) (pc : FishPc) :
    FishFrame d (fishSegment d inp pc).d := by
  cases pc with
  | stock c => exact frame_catchStock d c inp
  | miss c => exact .refl d
  | pay c => exact frame_catchPay d c
  | sweep seat score => exact frame_sweepPay d seat score

end Halieutics
