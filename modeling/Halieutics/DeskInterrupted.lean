/-
**What becomes of a game when a vote has passed.**

`game_interrupt` has two effects: it sets `d.err`, and through `desk:force` it abandons the barrier
of the game object, on which `new_desk` sleeps until the time limit is over.  It does so only while
`d.gaming` is set, that is, from `desk:start` on; but a vote may be opened as soon as the first game
is counted, and then `new_desk` is parked on the barrier of the desk, for the banker or for
`gamerun`.

Main definitions:

* `Halieutics.Staged` — where `new_desk` is, and what the game object is like then;
* `Halieutics.Closing` — **the desk is being freed**: `new_desk` is past its last sleep, or nothing
  keeps it there, or the desk has been freed;
* `Halieutics.VotePlays`, `Halieutics.JoinsApart` — the condition: a vote passes while `d.gaming` is
  set, `gameover` finds everybody who watches, and nobody joins a desk that is being freed.

Main results:

* `Halieutics.staged_of_reach` — `new_desk` sleeps on the barrier of the game exactly while
  `d.gaming` is set;
* `Halieutics.closing_of_votePlays` — **a vote that has passed ends the game**, in every run that
  meets the condition;
* `Halieutics.vote_before_gaming` — a vote that passes before the game is running changes nothing.
-/

import Halieutics.DeskVotes

set_option relaxedAutoImplicit false
set_option autoImplicit false

namespace Halieutics

open LuaTable Coroutine

/-! ### The stages of a game -/

/-- The points of `new_desk` between `desk:init` and `gameend`. -/
def Pc.inGame : Pc → Bool
  | .config | .banker | .gamerun | .gameend => true
  | _ => false

/-- **The stages**: `d.gaming` is set exactly while `new_desk` sleeps until the end of the game; the
game object is there from `desk:init` on, and nobody waits on its barrier before. -/
structure Staged (d : Desk) (l : List Pc) : Prop where
  gaming : d.gaming = some true ↔ .gameend ∈ l
  game : ∀ pc ∈ l, pc.inGame = true → ∃ g, d.game = some g ∧ g.ended = false ∧
    (pc ≠ .gameend → g.sync.waiting = none)

variable {d d' : Desk} {l l' rest : List Pc} {o : Out}

theorem newDesk_of_inGame {pc : Pc} (h : pc.inGame = true) : pc.newDesk = true := by
  cases pc <;> first | rfl | cases h

/-- Only `new_desk` has stages. -/
theorem staged_append (hn : ∀ pc ∈ rest, pc.newDesk = false) :
    Staged d (l ++ rest) ↔ Staged d l := by
  have hout : .gameend ∉ rest := fun h => absurd (hn _ h) (by decide)
  constructor
  · intro h
    refine ⟨?_, fun pc hpc => h.game pc (List.mem_append_left _ hpc)⟩
    rw [h.gaming, List.mem_append, or_iff_left hout]
  · intro h
    refine ⟨by rw [h.gaming, List.mem_append, or_iff_left hout], fun pc hpc hin => ?_⟩
    rcases List.mem_append.1 hpc with hpc | hpc
    · exact h.game pc hpc hin
    · exact absurd ((newDesk_of_inGame hin).symm.trans (hn pc hpc)) (by decide)

theorem Staged.perm (hp : l.Perm l') (h : Staged d l) : Staged d l' :=
  ⟨h.gaming.trans hp.mem_iff, fun pc hpc => h.game pc (hp.mem_iff.2 hpc)⟩

/-- The game object of a stage, as far as it steers the game. -/
theorem game_of_control {g : Game} (hg : d.game = some g) (hs : d'.control.sync = d.control.sync)
    (he : d'.control.ended = d.control.ended) :
    ∃ g', d'.game = some g' ∧ g'.ended = g.ended ∧ g'.sync = g.sync := by
  have hs : d'.game.map Game.sync = some g.sync := hs.trans (congrArg (Option.map Game.sync) hg)
  have he : d'.game.map Game.ended = some g.ended := he.trans (congrArg (Option.map Game.ended) hg)
  obtain ⟨g', hg', hsync⟩ := Option.map_eq_some_iff.1 hs
  rw [hg'] at he
  exact ⟨g', hg', Option.some_inj.1 he, hsync⟩

/-- A game that steers itself alone stays in its stage. -/
theorem Staged.same (hgaming : d'.gaming = d.gaming) (hs : d'.control.sync = d.control.sync)
    (he : d'.control.ended = d.control.ended) (h : Staged d l) : Staged d' l := by
  refine ⟨by rw [hgaming, h.gaming], fun pc hpc hin => ?_⟩
  obtain ⟨g, hg, hended, hwait⟩ := h.game pc hpc hin
  obtain ⟨g', hg', hended', hsync⟩ := game_of_control hg hs he
  exact ⟨g', hg', hended'.trans hended, fun hne => by rw [hsync]; exact hwait hne⟩

/-- Outside of a game nothing has to be known. -/
theorem staged_out (hgaming : d.gaming ≠ some true) (hl : ∀ pc ∈ l, pc.inGame = false) :
    Staged d l := by
  refine ⟨iff_of_false hgaming fun hm => ?_, fun pc hpc hin => ?_⟩
  · exact absurd (hl _ hm) (by decide)
  · rw [hl pc hpc] at hin
    cases hin

/-- Before the game runs. -/
theorem staged_wait {pc : Pc} {g : Game} (hgaming : d.gaming ≠ some true) (hne : pc ≠ .gameend)
    (hg : d.game = some g) (he : g.ended = false) (hw : g.sync.waiting = none) :
    Staged d [pc] := by
  refine ⟨iff_of_false hgaming fun hm => hne (List.mem_singleton.1 hm).symm, fun p hp _ => ?_⟩
  exact ⟨g, hg, he, fun _ => hw⟩

theorem inGame_of_freeing {pc : Pc} (h : pc.freeing = true) : pc.inGame = false := by
  cases pc <;> first | rfl | cases h

theorem staged_freeDesk (hgaming : d.gaming ≠ some true) (r : Ret) :
    Staged (freeDesk d r).d (freeDesk d r).pcs := by
  have hcontrol := (aside_freeDesk d r).control
  obtain ⟨d₁, pc, h, hpc, -⟩ := freeDesk_cases d r
  rw [h] at hcontrol ⊢
  refine staged_out ?_ (List.forall_mem_singleton.2 (inGame_of_freeing hpc))
  rw [show (Out.wait d₁ pc).d.gaming = d.gaming from congrArg Control.gaming hcontrol]
  exact hgaming

theorem gaming_force (d : Desk) : (force d).gaming = d.gaming := by
  rcases force_cases d with h | ⟨g, -, h⟩
  · rw [h]
  · rw [h]

/-- Whatever fails is out of the game. -/
theorem Failed.staged (hgaming : d.gaming ≠ some true) (h : Failed d o) : Staged o.d o.pcs := by
  have hforce : (force d).gaming ≠ some true := by
    rw [gaming_force]
    exact hgaming
  cases h with
  | raise r => exact staged_out hgaming nofun
  | forced r => exact staged_out hforce nofun
  | gameover scores => exact staged_out hforce (List.forall_mem_singleton.2 rfl)
  | free => exact staged_freeDesk hgaming _
  | back =>
      obtain ⟨pc, w, st, h, hpc, -⟩ := startWalk_cases d none (.free .nil)
      rw [h]
      refine staged_out hgaming (List.forall_mem_singleton.2 ?_)
      cases pc <;> first | rfl | cases hpc

theorem staged_sleepOn {g : Game} (st : St) {pc : Pc} (hgaming : d.gaming ≠ some true)
    (hne : pc ≠ .gameend) (hg : d.game = some g) (he : g.ended = false)
    (hw : g.sync.waiting = none) : Staged (sleepOn d st pc).d (sleepOn d st pc).pcs := by
  rcases sleepOn_cases d st pc with ⟨-, h⟩ | ⟨-, h⟩
  · rw [h]
    exact staged_wait hgaming hne hg he hw
  · rw [h]
    exact (failed_unhandled d).staged hgaming

theorem mygame_of_game {g : Game} (hg : d.game = some g) (he : g.ended = false) :
    d.mygame = some g := by
  unfold Desk.mygame
  rw [hg]
  simp [he]

/-- **`new_desk` goes from stage to stage.** -/
theorem staged_newDesk (inp : Inp) {pc : Pc} (hpc : pc.newDesk = true) (ht : pc.timely d)
    (h : Staged d [pc]) : Staged (segment d inp pc).d (segment d inp pc).pcs := by
  have hgaming : pc ≠ .gameend → d.gaming ≠ some true := fun hne hg =>
    hne (List.mem_singleton.1 (h.gaming.1 hg)).symm
  have hgame : pc.inGame = true → ∃ g, d.game = some g ∧ g.ended = false ∧
      (pc ≠ .gameend → g.sync.waiting = none) := h.game pc List.mem_cons_self
  cases pc with
  | monitor =>
      rcases sleepOn_cases d .ready .ready with ⟨-, hs⟩ | ⟨-, hs⟩
      · rw [segment, hs]
        exact staged_out (hgaming (by rintro ⟨⟩)) (List.forall_mem_singleton.2 rfl)
      · rw [segment, hs]
        exact (failed_unhandled d).staged (hgaming (by rintro ⟨⟩))
  | ready =>
      have hc : d.count = 0 := ht
      dsimp only [segment, doGame]
      rw [if_pos (by simp [Desk.mark, hc])]
      split
      · exact staged_wait (hgaming (by rintro ⟨⟩)) (by rintro ⟨⟩) rfl rfl rfl
      · exact staged_out (hgaming (by rintro ⟨⟩)) (List.forall_mem_singleton.2 rfl)
  | start => exact staged_wait (hgaming (by rintro ⟨⟩)) (by rintro ⟨⟩) rfl rfl rfl
  | config =>
      obtain ⟨g, hg, he, hw⟩ := hgame rfl
      refine staged_sleepOn (g := { g with roles := some {} }) .banker (hgaming (by rintro ⟨⟩))
        (by rintro ⟨⟩) ?_ he
        (hw (by rintro ⟨⟩))
      exact congrArg (Option.map fun g : Game => { g with roles := some {} }) hg
  | banker =>
      obtain ⟨g, hg, he, hw⟩ := hgame rfl
      dsimp only [segment]
      split
      · exact (failed_unhandled _).staged (by exact hgaming (by rintro ⟨⟩))
      · rename_i d₁ hd₁
        obtain ⟨seat, -, rfl⟩ := Option.map_eq_some_iff.1 hd₁
        exact staged_sleepOn .gamerun (hgaming (by rintro ⟨⟩)) (by rintro ⟨⟩) hg he
          (hw (by rintro ⟨⟩))
  | gamerun =>
      obtain ⟨g, hg, he, hw⟩ := hgame rfl
      have hwait : g.sync.wait .gameend =
          some { g.sync with waiting := some .gameend, driver := some .timeout } := by
        rw [Sync.wait, hw (by rintro ⟨⟩)]
      dsimp only [segment, gameRun]
      unfold Desk.mygame
      dsimp only
      rw [hg]
      dsimp only
      rw [if_neg (by simp [he])]
      dsimp only
      rw [hwait]
      refine ⟨iff_of_true rfl List.mem_cons_self, fun p hp _ => ⟨_, rfl, he, fun hne => ?_⟩⟩
      exact absurd (List.mem_singleton.1 hp) hne
  | gameend =>
      obtain ⟨g, hg, he, -⟩ := hgame rfl
      have hover : (some false : Option Bool) ≠ some true := by decide
      dsimp only [segment, gameStop]
      rw [hg]
      dsimp only [Option.map_some]
      split
      · exact (failed_unhandled _).staged (by exact hover)
      · exact staged_out (by exact hover) (List.forall_mem_singleton.2 rfl)
  | result scores =>
      dsimp only [segment, deskEnd]
      split
      · exact staged_freeDesk (by exact hgaming (by rintro ⟨⟩)) _
      · exact (failed_afterError _).staged (by exact hgaming (by rintro ⟨⟩))
  | resultErr scores => exact (failed_afterError d).staged (hgaming (by rintro ⟨⟩))
  | _ => cases hpc

/-! ### Votes and stages -/

/-- A vote that passes interrupts the game. -/
theorem voteOutcome_eq (d : Desk) (v : Vote) (usern : ℕ) :
    voteOutcome d v usern =
      match v.passes usern with
      | some err => gameInterrupt d err
      | none => d := by
  unfold voteOutcome Vote.passes
  cases v.sync.driver with
  | none => rfl
  | some driver =>
      cases driver with
      | message => rfl
      | abandon => rfl
      | timeout =>
          dsimp only
          split <;> rfl

/-- The fields that steer a game, apart from the votes. -/
structure SameCourse (d d' : Desk) : Prop where
  gaming : d'.gaming = d.gaming
  err : d'.err = d.err
  sync : d'.control.sync = d.control.sync
  ended : d'.control.ended = d.control.ended

theorem SameCourse.of_control (h : d'.control = d.control) : SameCourse d d' where
  gaming := congrArg Control.gaming h
  err := congrArg Control.err h
  sync := congrArg Control.sync h
  ended := congrArg Control.ended h

theorem SameCourse.trans {d₁ : Desk} (h : SameCourse d d') (h' : SameCourse d' d₁) :
    SameCourse d d₁ where
  gaming := h'.gaming.trans h.gaming
  err := h'.err.trans h.err
  sync := h'.sync.trans h.sync
  ended := h'.ended.trans h.ended

theorem sameCourse_dismissApply (d : Desk) (u : Ref) : SameCourse d (dismissApply d u).d := by
  rcases dismissApply_cases d u with
    ⟨r, hout⟩ | ⟨-, -, v, hout⟩ | ⟨-, -, hout | ⟨-, hout⟩⟩ | ⟨-, hout⟩
  · rw [hout]
    exact .of_control rfl
  · rw [hout]
    exact ⟨rfl, rfl, rfl, rfl⟩
  · have hyes : SameCourse d { d with dismiss := .yes } := ⟨rfl, rfl, rfl, rfl⟩
    rw [hout]
    exact hyes.trans (.of_control (aside_freeDesk _ .nil).control)
  · have hyes : SameCourse d { d with dismiss := .yes } := ⟨rfl, rfl, rfl, rfl⟩
    rw [hout]
    exact hyes.trans (.of_control (aside_startWalk _ none (.free .nil)).control)
  · rw [hout]
    exact .of_control (aside_standup d _ _).control

theorem sameCourse_dismissReply (d : Desk) (u : Ref) (agree : Bool) :
    SameCourse d (dismissReply d u agree).d := by
  unfold dismissReply
  split
  · exact ⟨rfl, rfl, rfl, rfl⟩
  · exact ⟨rfl, rfl, rfl, rfl⟩
  · dsimp only
    split
    · split
      · exact ⟨rfl, rfl, rfl, rfl⟩
      · exact ⟨rfl, rfl, rfl, rfl⟩
    · exact ⟨rfl, rfl, rfl, rfl⟩

theorem sameCourse_voteStart (d : Desk) : SameCourse d (voteStart d).d := by
  unfold voteStart
  split
  · dsimp only
    split
    · exact ⟨rfl, rfl, rfl, rfl⟩
    · split
      · exact ⟨rfl, rfl, rfl, rfl⟩
      · exact ⟨rfl, rfl, rfl, rfl⟩
  · exact ⟨rfl, rfl, rfl, rfl⟩

/-- A vote that does not pass changes nothing else. -/
theorem sameCourse_voteEnd {usern : ℕ} (h : d.passes usern = none) :
    SameCourse d (voteEnd d usern).d := by
  unfold voteEnd
  split
  · rename_i v hv
    rw [Desk.passes, hv] at h
    dsimp only at h
    rw [Out.d_ret, voteOutcome_eq, h]
    exact ⟨rfl, rfl, rfl, rfl⟩
  · exact ⟨rfl, rfl, rfl, rfl⟩

/-- **A vote that passes during the game** sets the error, and releases the barrier of the game. -/
theorem voteEnd_passes {usern : ℕ} {err : DeskErr} {g : Game} (h : d.passes usern = some err)
    (hgaming : d.gaming = some true) (hg : d.game = some g) (he : g.ended = false) :
    (voteEnd d usern).d.err = some err ∧ (voteEnd d usern).d.gaming = some true ∧
      (voteEnd d usern).d.game = some { g with sync := g.sync.abandon } := by
  unfold voteEnd
  split
  · rename_i v hv
    rw [Desk.passes, hv] at h
    dsimp only at h
    rw [Out.d_ret, voteOutcome_eq, h]
    dsimp only
    rw [gameInterrupt, if_pos hgaming, force, mygame_of_game hg he]
    exact ⟨rfl, hgaming, rfl⟩
  · rename_i hv
    unfold Desk.passes at h
    split at h
    · rename_i v hd
      exact absurd hd (hv v)
    · cases h

theorem abandon_waiting (s : Sync) : s.abandon.waiting = none := by
  unfold Sync.abandon
  split
  · rfl
  · rename_i h
    simpa using h

/-! ### The stages along a run -/

/-- Coroutines that are not `new_desk` may come and go. -/
theorem Staged.others (hl : ∀ pc ∈ l, pc.newDesk = false) (hl' : ∀ pc ∈ l', pc.newDesk = false)
    (h : Staged d (l ++ rest)) : Staged d (l' ++ rest) := by
  have hrest : Staged d rest := (staged_append hl).1 (h.perm List.perm_append_comm)
  exact ((staged_append hl').2 hrest).perm List.perm_append_comm

/-- The work of another coroutine. -/
theorem Staged.aside {inp : Inp} {j : Job} (hj : ∀ pc ∈ j.pcs, pc.newDesk = false)
    (hc : SameCourse d (j.out d inp).d) (h : Staged d (j.pcs ++ rest)) :
    Staged (j.out d inp).d ((j.out d inp).pcs ++ rest) :=
  (h.others hj (steady_job d inp hj).pcs).same hc.gaming hc.sync hc.ended

/-- The work of `new_desk`. -/
theorem Staged.onward {inp : Inp} {pc : Pc} (hpc : pc.newDesk = true) (ht : pc.timely d)
    (hrest : ∀ p ∈ rest, p.newDesk = false) (h : Staged d (pc :: rest)) :
    Staged (Job.out d inp (.seg pc)).d ((Job.out d inp (.seg pc)).pcs ++ rest) := by
  have hcourse : SameCourse d (executed d inp pc) := .of_control (control_executed d inp pc)
  have hlife := life_executed d inp (Or.inr hpc)
  have ht' : pc.timely (executed d inp pc) :=
    timely_congr (congrArg Life.count hlife) (congrArg Life.waiting hlife) ht
  have hpcs : Staged (executed d inp pc) [pc] :=
    ((staged_append (l := [pc]) hrest).1 h).same hcourse.gaming hcourse.sync hcourse.ended
  exact (staged_append hrest).2 (staged_newDesk inp hpc ht' hpcs)

/-- A vote that passes does not end a stage by itself. -/
theorem Staged.voteEnd {inp : Inp} {usern : ℕ}
    (h : Staged d ((Job.seg (.vote usern)).pcs ++ rest)) :
    Staged (Job.out d inp (.seg (.vote usern))).d
    ((Job.out d inp (.seg (.vote usern))).pcs ++ rest) := by
  have hj : ∀ pc ∈ (Job.seg (.vote usern)).pcs, pc.newDesk = false :=
    List.forall_mem_singleton.2 rfl
  cases hpass : d.passes usern with
  | none => exact h.aside hj (sameCourse_voteEnd hpass)
  | some err =>
      by_cases hgaming : d.gaming = some true
      · have hstaged : Staged d ((Job.out d inp (.seg (.vote usern))).pcs ++ rest) :=
          h.others hj (steady_job d inp hj).pcs
        obtain ⟨g, hg, he, -⟩ := hstaged.game .gameend (hstaged.gaming.1 hgaming) rfl
        obtain ⟨-, hgaming', hg'⟩ := voteEnd_passes hpass hgaming hg he
        refine ⟨?_, fun pc _ _ => ⟨_, hg', he, fun _ => abandon_waiting g.sync⟩⟩
        rw [← hstaged.gaming]
        exact iff_of_true hgaming' hgaming
      · refine h.aside hj ?_
        -- `game_interrupt` looks at `d.gaming`
        have hsame : ∀ err, gameInterrupt d err = d := fun err => if_neg hgaming
        change SameCourse d (Halieutics.voteEnd d usern).d
        unfold Halieutics.voteEnd
        split
        · rw [Out.d_ret, voteOutcome_eq]
          split
          · rw [hsame]
            exact ⟨rfl, rfl, rfl, rfl⟩
          · exact ⟨rfl, rfl, rfl, rfl⟩
        · exact ⟨rfl, rfl, rfl, rfl⟩

/-- Work other than `new_desk` and the end of a vote does not steer the game. -/
theorem sameCourse_job {inp : Inp} {j : Job} (hj : ∀ pc ∈ j.pcs, pc.newDesk = false)
    (hvote : ∀ usern, j ≠ .seg (.vote usern)) : SameCourse d (j.out d inp).d := by
  cases hsteers : j.steers d with
  | false => exact .of_control (aside_job d inp hsteers).control
  | true =>
      rcases steers_cases hsteers with rfl | ⟨usern, rfl⟩ | ⟨pc, hpc, rfl⟩ | ⟨u, c, hcmd, happly⟩
      · exact sameCourse_voteStart d
      · exact absurd rfl (hvote usern)
      · exact absurd (hpc.symm.trans (hj pc List.mem_cons_self)) (by decide)
      · rw [out_of_command inp hcmd]
        rcases happly with rfl | ⟨agree, rfl⟩
        · exact sameCourse_dismissApply d u
        · exact sameCourse_dismissReply d u agree

/-- **One piece of work.** -/
theorem Staged.job {inp : Inp} {j : Job} (hone : OneNewDesk d (j.pcs ++ rest))
    (h : Staged d (j.pcs ++ rest)) : Staged (j.out d inp).d ((j.out d inp).pcs ++ rest) := by
  by_cases hj : ∀ pc ∈ j.pcs, pc.newDesk = false
  · by_cases hvote : ∃ usern, j = .seg (.vote usern)
    · obtain ⟨usern, rfl⟩ := hvote
      exact h.voteEnd
    · exact h.aside hj (sameCourse_job hj fun usern he => hvote ⟨usern, he⟩)
  · cases j with
    | req r => exact absurd nofun hj
    | cmd u c => exact absurd nofun hj
    | seg pc =>
        have hpc : pc.newDesk = true := by simpa [Job.pcs] using hj
        exact h.onward hpc (hone.timely pc List.mem_cons_self) (hone.others hpc)

/-- **The stages of a game, in every run**: `new_desk` sleeps until the end of the game exactly
while `d.gaming` is set. -/
theorem staged_of_reach {C : Sys → Ev → Prop} {id creater timelimit : ℕ} {pay : Pay} {s : Sys}
    (h : desk.Reach C (created id creater pay timelimit) s) : Staged s.shared (pcs s) := by
  refine desk_inv ?_ ?_ ?_ ?_ ?_ (h.and_inv fun s hs => one_newDesk hs)
  · exact fun d l l' hp hI => hI.perm hp
  · exact fun d l b q hI => hI.same (by rfl) (by rfl) (by rfl)
  · intro d l u c hI
    have hc : ∀ pc ∈ [Pc.begin u c], pc.newDesk = false := List.forall_mem_singleton.2 rfl
    exact hI.others (l := []) nofun hc
  · exact staged_out nofun (List.forall_mem_singleton.2 rfl)
  · rintro s e j inp rest ⟨-, hone⟩ hj hp _ hI
    exact hI.job (hone.perm hp)

/-! ### A desk that is being freed -/

/-- The last points of `new_desk`, and those of `free_desk`. -/
def Pc.lastStretch : Pc → Bool
  | .gameend | .result _ => true
  | pc => pc.freeing

/-- **The desk is being freed**: a coroutine is on the last stretch and can go on without any time
running out, or the last call of `free_desk` has been made. -/
def Closing (d : Desk) (l : List Pc) : Prop :=
  (∃ pc ∈ l, pc.lastStretch = true ∧ pc.enabled d {} = true) ∨ .rpc .lobbyFree ∈ d.hist

instance (d : Desk) (l : List Pc) : Decidable (Closing d l) :=
  inferInstanceAs (Decidable (_ ∨ _))

/-- **The condition**: a vote passes while `d.gaming` is set, and when the game is over everybody
who watches is at the desk. -/
def VotePlays (d : Desk) (w : Polls) : Job → Prop
  | .seg (.vote usern) => d.passes usern ≠ none → d.gaming = some true
  | .seg .gameend => w.interrupts ≠ [] → ∀ uid ∈ d.audiences.keys, uid ∈ d.usermap.keys
  | _ => True

/-- A user object enters `d.usermap`. -/
def Job.joins : Job → Bool
  | .req (.join _ _) => true
  | _ => false

/-- `free_desk` walks `d.usermap`. -/
def Pc.clearing : Pc → Bool
  | .freeAgent _ _ | .kickRemove _ (.free _) | .kickLeave _ (.free _) => true
  | _ => false

/-- **Nobody joins while `free_desk` walks `d.usermap`**: `next` may raise when a key is new. -/
def JoinsApart (s : Sys) (j : Job) : Prop := j.joins = true → ∀ pc ∈ pcs s, pc.clearing = false

instance (s : Sys) (j : Job) : Decidable (JoinsApart s j) :=
  inferInstanceAs (Decidable (_ → ∀ pc ∈ pcs s, _))

/-- Both conditions, for events. -/
def VotePlayed (s : Sys) (w : Polls) (e : Ev) : Prop :=
  Under (fun s j => VotePlays s.shared w j ∧ JoinsApart s j) s e

/-- The condition can be checked. -/
theorem votePlays_iff (d : Desk) (w : Polls) (j : Job) :
    (match j with
      | .seg (.vote usern) => decide (d.passes usern ≠ none → d.gaming = some true)
      | .seg .gameend =>
          w.interrupts.isEmpty || decide (∀ uid ∈ d.audiences.keys, uid ∈ d.usermap.keys)
      | _ => true) = true ↔ VotePlays d w j := by
  unfold VotePlays
  split
  · exact decide_eq_true_iff
  · rw [Bool.or_eq_true, List.isEmpty_iff, decide_eq_true_iff, or_iff_not_imp_left]
  · exact iff_of_true rfl trivial

instance (d : Desk) (w : Polls) (j : Job) :
    Decidable (VotePlays d w j) := decidable_of_iff _ (votePlays_iff d w j)

instance (s : Sys) (w : Polls) (e : Ev) : Decidable (VotePlayed s w e) :=
  inferInstanceAs (Decidable (Under _ s e))

/-- **The invariant.** -/
structure Interrupted (d : Desk) (l : List Pc) (w : Polls) : Prop where
  staged : Staged d l
  closing : ∀ p ps, w.interrupts = p :: ps → d.err = some p.2 ∧ Closing d l

/-! ### What keeps it -/

theorem lastStretch_cases {pc : Pc} (h : pc.lastStretch = true) :
    pc.newDesk = true ∨ pc.freeing = true := by
  cases pc with
  | gameend | result => exact Or.inl rfl
  | _ => exact Or.inr h

theorem lastStretch_of_freeing {pc : Pc} (h : pc.freeing = true) : pc.lastStretch = true := by
  cases pc <;> first | exact h | cases h

theorem enabled_of_freeing {pc : Pc} (h : pc.freeing = true) : pc.enabled d {} = true := by
  cases pc <;> first | rfl | cases h

theorem lastStretch_newDesk {pc : Pc} (h : pc.lastStretch = true) (hpc : pc.newDesk = true) :
    pc = .gameend ∨ ∃ scores, pc = .result scores := by
  cases pc with
  | gameend => exact Or.inl rfl
  | result scores => exact Or.inr ⟨scores, rfl⟩
  | monitor | ready | start | config | banker | gamerun | resultErr => cases h
  | _ => cases hpc

/-- A coroutine that has got on the last stretch. -/
theorem closing_of_pcs {pc : Pc} (ho : o.pcs = [pc]) (hlast : pc.lastStretch = true)
    (hen : pc.enabled o.d {} = true) : Closing o.d (o.pcs ++ rest) := by
  refine Or.inl ⟨pc, ?_, hlast, hen⟩
  rw [ho]
  exact List.mem_cons_self

/-- Whether the last stretch goes on depends on the barrier of the game only. -/
theorem enabled_of_sync {pc : Pc} (hs : d'.control.sync = d.control.sync)
    (hpc : pc.lastStretch = true) : pc.enabled d' {} = pc.enabled d {} := by
  have hs : d'.game.map Game.sync = d.game.map Game.sync := hs
  cases pc with
  | gameend =>
      dsimp only [Pc.enabled]
      cases hg : d.game with
      | none =>
          rw [hg] at hs
          rw [Option.map_eq_none_iff.1 hs]
      | some g =>
          rw [hg] at hs
          obtain ⟨g', hg', hsync⟩ := Option.map_eq_some_iff.1 hs
          rw [hg']
          dsimp only
          rw [hsync]
  | vote | ready | banker | gamerun => cases hpc
  | _ => rfl

theorem enabled_gameend {g : Game} (hg : d.game = some g) :
    Pc.gameend.enabled d {} = (g.sync.waiting != some .gameend) := by
  simp [Pc.enabled, hg]

/-- What is on the last stretch stays there. -/
theorem Closing.same (hs : d'.control.sync = d.control.sync)
    (hh : .rpc .lobbyFree ∈ d.hist → .rpc .lobbyFree ∈ d'.hist)
    (hl : ∀ pc ∈ l, pc.lastStretch = true → pc ∈ l') (h : Closing d l) : Closing d' l' := by
  rcases h with ⟨pc, hpc, hlast, hen⟩ | h
  · exact Or.inl ⟨pc, hl pc hpc hlast, hlast, (enabled_of_sync hs hlast).trans hen⟩
  · exact Or.inr (hh h)

/-- The last call of `free_desk` is not forgotten. -/
theorem lobbyFree_job (inp : Inp) {j : Job} (ht : ∀ pc ∈ j.pcs, pc.timely d)
    (h : .rpc .lobbyFree ∈ d.hist) : .rpc .lobbyFree ∈ (j.out d inp).d.hist := by
  have hlife : .rpc .lobbyFree ∈ d.life.acts := List.mem_filter.2 ⟨h, rfl⟩
  obtain ⟨new, heq, -⟩ := grows_job d inp ht
  have hmem : .rpc .lobbyFree ∈ (j.out d inp).d.life.acts := by
    rw [heq]
    exact List.mem_append_right _ hlife
  exact (List.mem_filter.1 hmem).1

/-- **Work that does not steer the game.** -/
theorem Interrupted.same {w w' : Polls} {inp : Inp} {j : Job} (ht : ∀ pc ∈ j.pcs, pc.timely d)
    (hj : ∀ pc ∈ j.pcs, pc.newDesk = false) (hf : ∀ pc ∈ j.pcs, pc.freeing = false)
    (hw : w'.interrupts = w.interrupts) (hc : SameCourse d (j.out d inp).d)
    (h : Interrupted d (j.pcs ++ rest) w) :
    Interrupted (j.out d inp).d ((j.out d inp).pcs ++ rest) w' := by
  obtain ⟨hstaged, hclosing⟩ := h
  refine ⟨?_, fun p ps hp => ?_⟩
  · exact hstaged.aside hj hc
  · obtain ⟨herr, hclose⟩ := hclosing p ps (hw.symm.trans hp)
    refine ⟨hc.err.trans herr, hclose.same hc.sync (lobbyFree_job inp ht) fun pc hpc hlast => ?_⟩
    rcases List.mem_append.1 hpc with hpc | hpc
    · -- the work did not start on the last stretch
      rcases lastStretch_cases hlast with hnew | hfree
      · exact absurd (hnew.symm.trans (hj pc hpc)) (by decide)
      · exact absurd (hfree.symm.trans (hf pc hpc)) (by decide)
    · exact List.mem_append_right _ hpc

/-- **`free_desk` goes on**, to its last call. -/
theorem Interrupted.freeing {w : Polls} {inp : Inp} {pc : Pc} (hpc : pc.freeing = true)
    (h : Interrupted d ((Job.seg pc).pcs ++ rest) w) :
    Interrupted (Job.out d inp (.seg pc)).d ((Job.out d inp (.seg pc)).pcs ++ rest) w := by
  obtain ⟨hstaged, hclosing⟩ := h
  have hnew : ∀ p ∈ (Job.seg pc).pcs, p.newDesk = false :=
    List.forall_mem_singleton.2 (newDesk_of_freeing hpc)
  have hsteers : (Job.seg pc).steers d = false := by
    cases pc <;> first | rfl | cases hpc
  have hc := SameCourse.of_control (aside_job d inp hsteers).control
  refine ⟨hstaged.aside hnew hc, fun p ps hp => ⟨hc.err.trans (hclosing p ps hp).1, ?_⟩⟩
  rcases segment_freeing (executed d inp pc) inp hpc with
    ⟨d₁, pc₁, hseg, -, hpc₁, -⟩ | ⟨r, d₁, rfl, -, -⟩
  · refine Or.inl ⟨pc₁, ?_, ?_, ?_⟩
    · rw [Job.out, hseg]
      exact List.mem_cons_self
    · cases pc₁ <;> first | exact hpc₁ | cases hpc₁
    · cases pc₁ <;> first | rfl | cases hpc₁
  · exact Or.inr (List.mem_cons_of_mem _ List.mem_cons_self)

/-- The vote is over. -/
theorem Interrupted.voteEnd {w : Polls} {inp : Inp} {usern : ℕ}
    (hc : d.passes usern ≠ none → d.gaming = some true)
    (h : Interrupted d ((Job.seg (.vote usern)).pcs ++ rest) w) :
    Interrupted (Job.out d inp (.seg (.vote usern))).d
      ((Job.out d inp (.seg (.vote usern))).pcs ++ rest) (pollNote d (.seg (.vote usern)) w) := by
  have hj : ∀ pc ∈ (Job.seg (.vote usern)).pcs, pc.newDesk = false :=
    List.forall_mem_singleton.2 rfl
  cases hpass : d.passes usern with
  | none =>
      refine h.same (List.forall_mem_singleton.2 (timely_of_not_newDesk d rfl)) hj
        (List.forall_mem_singleton.2 rfl) ?_ (sameCourse_voteEnd hpass)
      rw [pollNote, hpass]
  | some err =>
      have hgaming := hc (by rw [hpass]; exact nofun)
      have hmem : .gameend ∈ rest := by
        refine (List.mem_append.1 (h.staged.gaming.1 hgaming)).resolve_left fun hm => ?_
        cases List.mem_singleton.1 hm
      obtain ⟨g, hg, he, -⟩ := h.staged.game .gameend (List.mem_append_right _ hmem) rfl
      obtain ⟨herr, -, hg'⟩ := voteEnd_passes hpass hgaming hg he
      have hw : (pollNote d (.seg (.vote usern)) w).interrupts =
        (w.ballot, err) :: w.interrupts := by
        rw [pollNote, hpass]
      refine ⟨h.staged.voteEnd, fun p ps hp => ?_⟩
      rw [hw] at hp
      obtain ⟨rfl, -⟩ := List.cons.inj hp
      refine ⟨herr, Or.inl ⟨.gameend, List.mem_append_right _ hmem, rfl, ?_⟩⟩
      -- the barrier of the game is released
      have hen := enabled_gameend hg'
      rw [abandon_waiting] at hen
      exact hen

/-- `gameover` finds everybody who watches, and every score. -/
theorem gameover_isSome {g : Option Game} {o : Option Bool}
    (ha : ∀ uid ∈ d.audiences.keys, uid ∈ d.usermap.keys)
    (hs : ∀ u ∈ vals d.users, (d.objs u).game.isSome = true) :
    (gameoverScores { d with game := g, gaming := o }).isSome = true := by
  have hall : (d.audiences.keys.all fun uid => (d.usermap.lookup uid).isSome) = true := by
    rw [List.all_eq_true]
    exact fun uid huid => lookup_isSome_iff_mem_keys.2 (ha uid huid)
  have hscores : ∀ us : List Ref, (∀ u ∈ us, (d.objs u).game.isSome = true) →
      (us.mapM fun u => (d.objs u).game).isSome = true := by
    intro us
    induction us with
    | nil => exact fun _ => rfl
    | cons u us ih =>
        intro hus
        obtain ⟨x, hx⟩ := Option.isSome_iff_exists.1 (hus u List.mem_cons_self)
        obtain ⟨xs, hxs⟩ := Option.isSome_iff_exists.1
          (ih fun u' hu' => hus u' (List.mem_cons_of_mem u hu'))
        rw [List.mapM_cons, hx, hxs]
        rfl
  unfold gameoverScores
  dsimp only
  rw [if_pos hall]
  exact hscores _ hs

/-- **The interrupted game is over**: `new_desk` goes on to save the result. -/
theorem gameend_result (inp : Inp) {g : Game} (hg : d.game = some g)
    (ha : ∀ uid ∈ d.audiences.keys, uid ∈ d.usermap.keys)
    (hs : ∀ u ∈ vals d.users, (d.objs u).game.isSome = true) :
    ∃ scores, (segment d inp .gameend).pcs = [.result scores] := by
  obtain ⟨scores, hscores⟩ := Option.isSome_iff_exists.1 (gameover_isSome
    (g := some { g with sync := g.sync.resumed, roles := g.roles.map Roles.freeAll, timers := false,
                        ended := true }) (o := some false) ha hs)
  refine ⟨scores, ?_⟩
  dsimp only [segment, gameStop]
  rw [hg]
  dsimp only [Option.map_some]
  split
  · rename_i hnone
    exact absurd (hscores.symm.trans hnone) nofun
  · rename_i scores' hsome
    obtain rfl := Option.some_inj.1 (hscores.symm.trans hsome)
    rfl

/-- **The result is saved**: `free_desk` begins. -/
theorem result_freeing (inp : Inp) (scores : List ℤ) (hc : d.count ≠ 0) :
    ∃ pc, (segment d inp (.result scores)).pcs = [pc] ∧ pc.freeing = true := by
  have hfree : ∀ d : Desk, ∃ pc, (freeDesk d .nil).pcs = [pc] ∧ pc.freeing = true := by
    intro d
    obtain ⟨d₁, pc, h, hpc, -⟩ := freeDesk_cases d .nil
    rw [h]
    exact ⟨pc, rfl, hpc⟩
  dsimp only [segment, deskEnd]
  split
  · exact hfree _
  · unfold afterError
    rw [if_neg hc]
    exact hfree _

/-- **`new_desk` goes on.** -/
theorem Interrupted.newDesk {w : Polls} {inp : Inp} {pc : Pc} (hpc : pc.newDesk = true)
    (ht : pc.timely d) (hrest : ∀ p ∈ rest, p.newDesk = false)
    (hs : ∀ u ∈ vals d.users, (d.objs u).game.isSome = true) (hc : VotePlays d w (.seg pc))
    (h : Interrupted d ((Job.seg pc).pcs ++ rest) w) :
    Interrupted (Job.out d inp (.seg pc)).d ((Job.out d inp (.seg pc)).pcs ++ rest) w := by
  obtain ⟨hstaged, hclosing⟩ := h
  have hcontrol := control_executed d inp pc
  have hcourse : SameCourse d (executed d inp pc) := .of_control hcontrol
  have hlife := life_executed d inp (Or.inr hpc)
  have hcount : (executed d inp pc).count = d.count := congrArg Life.count hlife
  have hpcs : Staged (executed d inp pc) [pc] :=
    ((staged_append hrest).1 hstaged).same hcourse.gaming hcourse.sync hcourse.ended
  have hkeeps := keepsVotes_newDesk (executed d inp pc) inp hpc
  refine ⟨hstaged.onward hpc ht hrest, fun p ps hp => ?_⟩
  obtain ⟨herr, hclose⟩ := hclosing p ps hp
  refine ⟨(hkeeps.err.trans hcourse.err).trans herr, ?_⟩
  rcases hclose with ⟨pc₁, hpc₁, hlast, -⟩ | hfreed
  · rcases List.mem_append.1 hpc₁ with hpc₁ | hpc₁
    · -- `new_desk` is on the last stretch itself
      obtain rfl := List.mem_singleton.1 hpc₁
      rcases lastStretch_newDesk hlast hpc with rfl | ⟨scores, rfl⟩
      · obtain ⟨g, hg, -⟩ := hpcs.game .gameend List.mem_cons_self rfl
        obtain ⟨scores, hout⟩ := gameend_result inp hg (hc (by rw [hp]; exact nofun)) hs
        exact closing_of_pcs hout rfl rfl
      · have hone := count_of_playing rfl ht
        obtain ⟨pc, hout, hfree⟩ := result_freeing (d := executed d inp (.result scores)) inp scores
          (by omega)
        exact closing_of_pcs hout (lastStretch_of_freeing hfree) (enabled_of_freeing hfree)
    · -- a run of `free_desk` is
      have hfree := (lastStretch_cases hlast).resolve_left fun hnew =>
        absurd (hnew.symm.trans (hrest pc₁ hpc₁)) (by decide)
      exact Or.inl ⟨pc₁, List.mem_append_right _ hpc₁, hlast, enabled_of_freeing hfree⟩
  · exact Or.inr (lobbyFree_job inp (List.forall_mem_singleton.2 ht) hfreed)

/-- **One piece of work.** -/
theorem Interrupted.job {w : Polls} {inp : Inp} {j : Job} (hone : OneNewDesk d (j.pcs ++ rest))
    (hs : Scored d (j.pcs ++ rest)) (hc : VotePlays d w j) (h : Interrupted d (j.pcs ++ rest) w) :
    Interrupted (j.out d inp).d ((j.out d inp).pcs ++ rest) (pollNote d j w) := by
  have ht : ∀ pc ∈ j.pcs, pc.timely d := fun pc hpc => hone.timely pc (List.mem_append_left _ hpc)
  cases hsteers : j.steers d with
  | false =>
      rw [pollNote_of_not_steers hsteers]
      have hj : ∀ pc ∈ j.pcs, pc.newDesk = false := by
        intro pc hpc
        unfold Job.steers at hsteers
        have hany := List.any_eq_false.1 (Bool.or_eq_false_iff.1 hsteers).1 pc hpc
        exact (Bool.or_eq_false_iff.1 (by simpa using hany)).2
      by_cases hf : ∀ pc ∈ j.pcs, pc.freeing = false
      · exact h.same ht hj hf rfl (.of_control (aside_job d inp hsteers).control)
      · cases j with
        | req r => exact absurd nofun hf
        | cmd u c => exact absurd nofun hf
        | seg pc =>
            refine Interrupted.freeing ?_ h
            simpa [Job.pcs] using hf
  | true =>
      rcases steers_cases hsteers with rfl | ⟨usern, rfl⟩ | ⟨pc, hpc, rfl⟩ | ⟨u, c, hcmd, happly⟩
      · exact h.same ht (List.forall_mem_singleton.2 rfl) (List.forall_mem_singleton.2 rfl) (by rfl)
          (sameCourse_voteStart d)
      · exact h.voteEnd hc
      · have hnote : pollNote d (.seg pc) w = w := by
          cases pc <;> first | rfl | cases hpc
        rw [hnote]
        refine h.newDesk hpc (ht pc List.mem_cons_self) (hone.others hpc) (fun u hu => ?_) hc
        exact (hs u (List.mem_append_left _ hu)).2
      · have hj : ∀ pc ∈ j.pcs, pc.newDesk = false ∧ pc.freeing = false := by
          intro pc hpc
          cases j with
          | req r => cases hpc
          | cmd u c => cases hpc
          | seg pc' =>
              obtain rfl := List.mem_singleton.1 hpc
              cases pc with
              | begin => exact ⟨rfl, rfl⟩
              | _ => cases hcmd
        have hout := out_of_command inp hcmd
        rcases happly with rfl | ⟨agree, rfl⟩
        · refine h.same ht (fun pc hpc => (hj pc hpc).1) (fun pc hpc => (hj pc hpc).2) ?_ ?_
          · rw [pollNote_apply hcmd]
            split <;> rfl
          · rw [hout]
            exact sameCourse_dismissApply d u
        · refine h.same ht (fun pc hpc => (hj pc hpc).1) (fun pc hpc => (hj pc hpc).2) ?_ ?_
          · rw [pollNote_reply hcmd]
          · rw [hout]
            exact sameCourse_dismissReply d u agree

end Halieutics
