/-
**Seats, charges and scores: the part of a desk that few functions touch.**

Who sits where, which charges are outstanding and who has scored what is changed by a handful of
functions; the votes, the barriers and the flags of the users have nothing to do with it.
`Halieutics.Desk.core` forgets everything else about a desk, and `Halieutics.Effect` lists what a
piece of work can do to what is left.  The scores and the game belong to few coroutines, so
`Halieutics.Desk.base` forgets them, too.  The segments in which a charge is taken, recorded or paid
back are not on the list; they are studied where they matter.

Main definitions:

* `Halieutics.Desk.core` — the seats, the charges, the scores and the game of a desk, and
  `Halieutics.Desk.base` — its seats and charges;
* `Halieutics.Pc.plain` — the points at which nothing is pending for seats or charges;
* `Halieutics.Job.plays` — the work that may change the scores and the game;
* `Halieutics.Effect` — what a piece of work can do to the core of a desk.

Main results:

* `Halieutics.effect_job` — **every piece of work that does not start from a pending seat or charge
  has one of these effects**.
-/

import Halieutics.DeskWork

set_option relaxedAutoImplicit false
set_option autoImplicit false

namespace Halieutics

open LuaTable Coroutine

/-! ### The core of a desk -/

/-- Who a user is and where he sits. -/
def User.base (x : User) : User :=
  { id := x.id, android := x.android, seat := x.seat, audience := x.audience }

/-- The same, with his score. -/
def User.core (x : User) : User := { x.base with game := x.game }

/-- What a game object holds, but for its barrier and its timers. -/
def Game.core (g : Game) : Game := { roles := g.roles, ended := g.ended }

/-- The entries of the history that concern seats and charges. -/
def Act.base : Act → Bool
  | .rpc (.addProp _) | .rpc (.useProp _ _ _) | .rpc (.addCost _) | .rpc (.saveCosts _) => true
  | .mark (.cost _) | .mark (.seated _) => true
  | _ => false

/-- The entries of the history, but for the milestones of the desk's life. -/
def Act.core : Act → Bool
  | .mark .doGame | .mark .freeDesk | .mark .freed => false
  | _ => true

/-- **The core of a desk**: its seats, its charges and its scores. -/
def Desk.core (d : Desk) : Desk where
  id := d.id
  creater := d.creater
  pay := d.pay
  maxplayer := d.maxplayer
  maxaudience := 0
  timelimit := 0
  live := true
  count := 0
  isstart := false
  gaming := none
  err := none
  starttime := none
  banker := d.banker
  objs := fun u => (d.objs u).core
  nobj := d.nobj
  users := d.users
  usermap := d.usermap
  audiences := d.audiences
  freeseats := d.freeseats
  androidid := none
  tabs := d.tabs
  ntab := d.ntab
  costs := d.costs
  ncost := d.ncost
  dismiss := .no
  dimiss := false
  sync := {}
  csBusy := d.csBusy
  csQueue := d.csQueue
  game := d.game.map Game.core
  hist := d.hist.filter Act.core

/-- **The base of a desk**: its core without the scores and the game. -/
def Desk.base (d : Desk) : Desk :=
  { d.core with
    banker := -1
    objs := fun u => (d.objs u).base
    game := none
    hist := d.hist.filter Act.base }

theorem base_core (d : Desk) : d.core.base = d.base := by
  have h : (d.hist.filter Act.core).filter Act.base = d.hist.filter Act.base := by
    rw [List.filter_filter]
    congr 1
    funext a
    cases a with
    | rpc r => cases r <;> rfl
    | mark m => cases m <;> rfl
  exact congrArg (fun a => { d.base with hist := a }) h

theorem base_of_core {d d' : Desk} (h : d'.core = d.core) : d'.base = d.base := by
  rw [← base_core, h, base_core]

/-- Changing a user object without changing who he is, where he sits and what he has scored. -/
theorem core_setUser (d : Desk) (u : Ref) (f : User → User) (hf : ∀ x, (f x).core = x.core) :
    (d.setUser u f).core = d.core := by
  have h : (fun v => ((d.setUser u f).objs v).core) = fun v => (d.objs v).core := by
    funext v
    by_cases hv : v = u
    · subst hv
      simp [Desk.setUser, hf]
    · simp [Desk.setUser, Function.update_of_ne hv]
  exact congrArg (fun o => { d.core with objs := o }) h

theorem base_called (d : Desk) {r : Rpc} (h : Act.base (.rpc r) = false) :
    (d.called r).base = d.base := by
  simp [Desk.base, Desk.core, Desk.called, h]

theorem base_mark (d : Desk) {m : Mark} (h : Act.base (.mark m) = false) :
    (d.mark m).base = d.base := by
  simp [Desk.base, Desk.core, Desk.mark, h]

theorem core_mark (d : Desk) {m : Mark} (h : Act.core (.mark m) = false) :
    (d.mark m).core = d.core := by
  simp [Desk.core, Desk.mark, h]

/-! ### Points of suspension -/

/-- Nothing is pending for seats or charges at this point. -/
def Pc.plain : Pc → Bool
  | .sitAdd _ _ | .sitUse _ | .sitRecord _ | .sitCost _ _ => false
  | .backRecord _ _ | .backAdd _ _ | .backQuery _ _ | .backPush _ _ | .backSave _ => false
  | _ => true

/-- The points inside the handlers of the game. -/
def Pc.catching : Pc → Bool
  | .fish _ => true
  | _ => false

/-- The points of `new_desk`. -/
def Pc.newDesk : Pc → Bool
  | .monitor | .ready | .start | .config | .banker | .gamerun | .gameend | .result _
  | .resultErr _ => true
  | _ => false

theorem base_executed (d : Desk) (inp : Inp) {pc : Pc} (h : pc.plain = true) :
    (executed d inp pc).base = d.base := by
  unfold executed
  split
  · rfl
  · rename_i r hr
    refine base_called d ?_
    cases pc with
    | fish pc => cases pc <;> simp_all [Pc.rpc, Act.base] <;> subst hr <;> rfl
    | _ => simp_all [Pc.rpc, Pc.plain] <;> subst hr <;> rfl

/-! ### Effects -/

/-- The desk has the core `c`, or, when a game may be played, at least its base. -/
def Near (G : Prop) (c d : Desk) : Prop := d.core = c ∨ (G ∧ d.base = c.base)

/-- **What a piece of work can do to the core `c` of a desk.**  The proposition `W` says when it may
begin a walk of `back_roomcard`, `S` for which user it may assign a seat, `G` when it may play,
that is, change the scores and the game, and `U` when it may take a seat away. -/
inductive Effect (W : Prop) (S : ℕ → Prop) (G U : Prop) (c : Desk) : Out → Prop
  | same {o : Out} : Near G c o.d →
      (∀ pc ∈ o.pcs, pc.plain = true ∧ (pc.catching = true → G)) → o.Single →
      Effect W S G U c o
  | drop {d : Desk} {u : Ref} {k : AfterKick} : Near G c d →
      (∀ k', k = .leave k' → (∃ uid, d.usermap.lookup uid = some u) ∧
        (d.objs u).audience ≠ some false) →
      Effect W S G U c (kickUser d u k)
  | stand {d : Desk} {seat : ℤ} {v : Ref} {k : AfterStandup} : Near G c d → U →
      d.users.lookup seat = some v → seat ≠ -1 →
      Effect W S G U c (.wait (unseat d seat v) (.standRemove (d.objs v).id k))
  | walk {d : Desk} {userid : Option ℕ} {k : AfterBack} : Near G c d → W →
      Effect W S G U c (startWalk d userid k)
  | join {d : Desk} {user : User} : Near G c d → user.seat = -1 → user.audience = some true →
      d.usermap.lookup user.id = none → Effect W S G U c (.wait (joinin d user) (.joinAdd d.nobj))
  | assign {d : Desk} {uid : ℕ} {u : Ref} {seat : ℤ} {rest : List ℤ} : Near G c d → S uid →
      d.hasSeat uid = false → d.usermap.lookup uid = some u → Takes d.freeseats seat rest →
      Effect W S G U c (.wait (assignSeat d u seat rest) (.sitAdd u seat))

section Near

variable {W : Prop} {S : ℕ → Prop} {G U : Prop} {c : Desk}

theorem Near.base {d : Desk} (h : Near G c d) : d.base = c.base := by
  rcases h with rfl | ⟨-, h⟩
  · exact (base_core d).symm
  · exact h

theorem near_play {d d' : Desk} (hG : G) (h : d'.base = d.base) : Near G d.core d' :=
  Or.inr ⟨hG, h.trans (base_core d).symm⟩

namespace Effect

theorem ret {d : Desk} (h : d.core = c) (r : Ret) : Effect W S G U c (.ret d r) :=
  .same (Or.inl h) (by simp) (by simp)

theorem wait {d : Desk} {pc : Pc} (h : d.core = c) (hpc : pc.plain = true)
    (hq : pc.catching = false) : Effect W S G U c (.wait d pc) :=
  .same (Or.inl h) (by simp [hpc, hq]) (by simp)

/-- A game is played. -/
theorem playRet {d d' : Desk} (hG : G) (h : d'.base = d.base) (r : Ret) :
    Effect W S G U d.core (.ret d' r) :=
  .same (near_play hG h) (by simp) (by simp)

theorem playWait {d d' : Desk} {pc : Pc} (hG : G) (h : d'.base = d.base) (hpc : pc.plain = true) :
    Effect W S G U d.core (.wait d' pc) :=
  .same (near_play hG h) (by simp [hpc, hG]) (by simp)

theorem imp {W' : Prop} {o : Out} (hW : W → W') (h : Effect W S G U c o) : Effect W' S G U c o := by
  cases h with
  | same h₁ h₂ h₃ => exact .same h₁ h₂ h₃
  | drop h₁ h₂ => exact .drop h₁ h₂
  | stand h₁ h₂ h₃ h₄ => exact .stand h₁ h₂ h₃ h₄
  | walk h₁ h₂ => exact .walk h₁ (hW h₂)
  | join h₁ h₂ h₃ h₄ => exact .join h₁ h₂ h₃ h₄
  | assign h₁ h₂ h₃ h₄ h₅ => exact .assign h₁ h₂ h₃ h₄ h₅

/-- Work that may play has an effect on every core with the same base. -/
theorem play {c' : Desk} {o : Out} (hG : G) (hc : c'.base = c.base) (h : Effect W S G U c' o) :
    Effect W S G U c o := by
  have near : ∀ {d : Desk}, Near G c' d → Near G c d := fun hd => Or.inr ⟨hG, hd.base.trans hc⟩
  cases h with
  | same h₁ h₂ h₃ => exact .same (near h₁) h₂ h₃
  | drop h₁ h₂ => exact .drop (near h₁) h₂
  | stand h₁ h₂ h₃ h₄ => exact .stand (near h₁) h₂ h₃ h₄
  | walk h₁ h₂ => exact .walk (near h₁) h₂
  | join h₁ h₂ h₃ h₄ => exact .join (near h₁) h₂ h₃ h₄
  | assign h₁ h₂ h₃ h₄ h₅ => exact .assign (near h₁) h₂ h₃ h₄ h₅

end Effect

end Near

variable {W : Prop} {S : ℕ → Prop} {G U : Prop} {c : Desk}

theorem Tail.effect {d : Desk} {o : Out} (h : Tail U d o) : Effect W S G U d.core o := by
  cases h with
  | ret r => exact .ret (by rfl) r
  | agent uid => exact .wait (by rfl) rfl rfl
  | kick k hu ha =>
      refine .drop (Or.inl rfl) ?_
      intro _ _
      exact ⟨⟨_, hu⟩, by simp [ha]⟩
  | lost k hu ha =>
      refine .drop (Or.inl rfl) ?_
      intro _ _
      exact ⟨⟨_, hu⟩, by simp [ha]⟩
  | stand k hU hv hs => exact .stand (Or.inl rfl) hU hv hs

theorem effect_freeLoop (d : Desk) (r : Ret) : Effect W S G U d.core (freeLoop d r) := by
  unfold freeLoop
  split
  · exact .wait (by rfl) rfl rfl
  · split
    · exact .wait (by rfl) rfl rfl
    · exact .drop (Or.inl rfl) (by simp)

theorem effect_freeDesk (d : Desk) (r : Ret) : Effect W S G U d.core (freeDesk d r) :=
  core_mark d (m := .freeDesk) rfl ▸ effect_freeLoop (d.mark .freeDesk) r

theorem effect_afterBack (d : Desk) (k : AfterBack) (hU : ∀ u k', k = .standup u k' → U) :
    Effect W S G U d.core (afterBack d k) := by
  cases k with
  | standup u k => exact (tail_actstandup d _ k (hU u k rfl)).effect
  | free r => exact effect_freeDesk d r

theorem effect_standup (d : Desk) (uid : ℕ) (k : AfterStandup) :
    Effect (d.costList ≠ [] ∧ standupPays d uid = true) S G (d.started = false) d.core
      (standup d uid k) := by
  rcases standup_cases d uid k with h | ⟨hl, hp, u, -, h⟩
  · exact h.effect
  · rw [h]
    exact .walk (Or.inl rfl) ⟨hl, hp⟩

theorem effect_forceDismiss (d : Desk) :
    Effect (d.costList ≠ [] ∧ d.live = true ∧ d.isstart = false) S G U d.core (forceDismiss d) := by
  rcases forceDismiss_cases d with ⟨r, h⟩ | ⟨hlive, hst, ⟨r, h⟩ | h | ⟨hl, h⟩⟩
  · rw [h]; exact .ret (by rfl) r
  · rw [h]; exact .ret (by rfl) r
  · rw [h]; exact effect_freeDesk { d with dimiss := true } _
  · rw [h]; exact .walk (Or.inl rfl) ⟨hl, hlive, hst⟩

theorem effect_dismissApply (d : Desk) (u : Ref) :
    Effect (d.costList ≠ [] ∧ dismissesNow d = true ∧
      ((d.objs u).master = true ∨ standupPays d (d.objs u).id = true)) S G
      (d.started = false) d.core
      (dismissApply d u) := by
  rcases dismissApply_cases d u with ⟨r, h⟩ | ⟨-, -, v, h⟩ | ⟨hn, hm, h | ⟨hl, h⟩⟩ | ⟨hn, h⟩
  · rw [h]; exact .ret (by rfl) r
  · rw [h]; exact .same (Or.inl rfl) (by simp [Out.pcs, Pc.plain, Pc.catching])
      (Or.inr ⟨_, rfl, rfl⟩)
  · rw [h]; exact effect_freeDesk { d with dismiss := .yes } _
  · rw [h]; exact .walk (Or.inl rfl) ⟨hl, hn, Or.inl hm⟩
  · rw [h]
    exact (effect_standup d _ _).imp fun hw => ⟨hw.1, hn, Or.inr hw.2⟩

theorem effect_join (d : Desk) (uid : ℕ) (android : Bool) (inp : Inp) :
    Effect W S G U d.core (join d uid android inp) := by
  rcases join_cases d uid android inp with ⟨r, h⟩ | ⟨user, rfl, hs, ha, hn, h⟩
  · rw [h]; exact .ret (by rfl) r
  · rw [h]; exact .join (Or.inl rfl) hs ha hn

theorem effect_sitdown (d : Desk) {uid : ℕ} (withseat : Option ℤ) (hS : S uid) :
    Effect W S G U d.core (sitdown d uid withseat) := by
  rcases sitdown_cases d uid withseat with ⟨r, h⟩ | ⟨u, seat, rest, -, hs, hu, ht, h⟩
  · rw [h]; exact .ret (by rfl) r
  · rw [h]; exact .assign (Or.inl rfl) hS hs hu ht

/-! ### The coroutine of the desk, the votes and the game -/

theorem game_of_mygame {d : Desk} {g : Game} (h : d.mygame = some g) :
    d.game = some g ∧ g.ended = false := by
  unfold Desk.mygame at h
  split at h
  · rename_i g' hg
    split at h
    · exact absurd h (by simp)
    · rename_i hend
      obtain rfl := Option.some_inj.1 h
      exact ⟨hg, by simpa using hend⟩
  · exact absurd h (by simp)

theorem core_force (d : Desk) : (force d).core = d.core := by
  rcases force_cases d with h | ⟨g, hg, h⟩
  · rw [h]
  · rw [h]
    simp [Desk.core, Game.core, (game_of_mygame hg).1]

theorem base_force (d : Desk) : (force d).base = d.base := base_of_core (core_force d)

theorem Failed.effect {d : Desk} {o : Out} (h : Failed d o) (hG : G) :
    Effect (d.count = 0) S G U d.core o := by
  cases h with
  | raise r => exact .ret (by rfl) r
  | forced r => exact .ret (core_force d) r
  | gameover scores _ => exact .playWait hG ((base_mark _ rfl).trans (base_force d)) rfl
  | free => exact effect_freeDesk d _
  | back hc _ => exact .walk (Or.inl rfl) hc

theorem effect_sleepOn (d : Desk) (st : St) {pc : Pc} (hG : G) (hpc : pc.plain = true) :
    Effect (d.sync.waiting ≠ none ∧ d.count = 0) S G U d.core (sleepOn d st pc) := by
  rcases sleepOn_cases d st pc with ⟨-, h⟩ | ⟨hw, h⟩
  · rw [h]; exact .playWait hG rfl hpc
  · rw [h]; exact ((failed_unhandled d).effect hG).imp fun hc => ⟨hw, hc⟩

theorem effect_doGame (d : Desk) (hG : G) : Effect False S G U d.core (doGame d) := by
  have hm : ({ d with count := d.count + 1 }.mark .doGame).core = d.core := core_mark _ rfl
  have hb := base_of_core hm
  unfold doGame gameInit
  dsimp only
  split
  · split
    · exact .playWait hG (by exact hb) rfl
    · exact .wait hm rfl rfl
  · rw [← hm]
    exact (effect_sleepOn _ .banker hG rfl).imp fun h => by simp [Desk.mark] at h

theorem base_determinBanker {d d' : Desk} {roll : ℕ} (h : determinBanker d roll = some d') :
    d'.base = d.base := by
  simp only [determinBanker, Option.map_eq_some_iff] at h
  obtain ⟨seat, -, rfl⟩ := h
  refine congrArg (fun o => { d.base with objs := o }) ?_
  funext u
  dsimp only
  split <;> rfl

theorem effect_gameRun (d : Desk) (inp : Inp) (hG : G) :
    Effect (d.count = 0) S G U d.core (gameRun d inp) := by
  unfold gameRun
  dsimp only
  split
  · exact (failed_unhandled { d with gaming := some true, starttime := some inp.now }).effect hG
  · split
    · exact (failed_unhandled { d with gaming := some true, starttime := some inp.now }).effect hG
    · exact .playWait hG (by rfl) rfl

theorem effect_gameStop (d : Desk) (hG : G) : Effect (d.count = 0) S G U d.core (gameStop d) := by
  unfold gameStop
  split
  · exact (failed_unhandled d).effect hG
  · rename_i g hg
    dsimp only
    split
    · exact ((failed_unhandled { d with
        game := some { g with roles := g.roles.map Roles.freeAll, timers := false, ended := true }
        gaming := some false }).effect hG).play hG (by rw [base_core, base_core]; rfl)
    · exact .playWait hG (base_mark _ rfl) rfl

theorem effect_deskEnd (d : Desk) (hG : G) : Effect (d.count = 0) S G U d.core (deskEnd d) := by
  unfold deskEnd
  dsimp only
  split
  · exact effect_freeDesk { d with isstart := false } _
  · exact (failed_afterError { d with isstart := false }).effect hG

theorem effect_voteStart (d : Desk) : Effect W S G U d.core (voteStart d) := by
  unfold voteStart
  split
  · dsimp only
    split
    · exact .ret (by rfl) _
    · split
      · exact .ret (by rfl) _
      · exact .wait (by rfl) rfl rfl
  · exact .ret (by rfl) _

theorem effect_voteEnd (d : Desk) (usern : ℕ) : Effect W S G U d.core (voteEnd d usern) := by
  rcases voteEnd_cases d usern with ⟨r, h⟩ | ⟨v, d', err, r, -, rfl | rfl, h⟩
  · rw [h]; exact .ret (by rfl) r
  · rw [h]; exact .ret (by rfl) r
  · rw [h]; exact .ret (by exact core_force d) r

theorem effect_cliReady (d : Desk) (u : Ref) : Effect W S G U d.core (cliReady d u) := by
  have hset : (d.setUser u fun x => { x with ready := true }).core = d.core :=
    core_setUser d u _ fun _ => rfl
  unfold cliReady
  dsimp only
  repeat' split
  all_goals first | exact .ret (by rfl) _ | exact .ret (by exact hset) _

theorem effect_dismissReply (d : Desk) (u : Ref) (agree : Bool) :
    Effect W S G U d.core (dismissReply d u agree) := by
  unfold dismissReply
  dsimp only
  repeat' split
  all_goals exact .ret (by rfl) _

theorem effect_grabBanker (d : Desk) (u : Ref) (grabbed : Bool) :
    Effect W S G U d.core (grabBanker d u grabbed) := by
  unfold grabBanker arriveAt
  split
  · refine .ret ?_ _
    split
    · exact core_setUser d u (fun x => { x with grabbed := true }) fun _ => rfl
    · rfl
  · exact .ret (by rfl) _

theorem base_frame {d d' : Desk} (h : FishFrame d d') : d'.base = d.base := by
  obtain ⟨objs, game, banker, acts, rfl, hobjs, hacts⟩ := h
  have ho : (fun u => (objs u).base) = fun u => (d.objs u).base := by
    funext u
    obtain ⟨s, hs, -⟩ := hobjs u
    rw [hs]
    rfl
  have ha : (acts ++ d.hist).filter Act.base = d.hist.filter Act.base := by
    rw [List.filter_append, List.filter_eq_nil_iff.2, List.nil_append]
    intro a hmem
    have := hacts a hmem
    cases a with
    | rpc r => simp [Act.fish] at this
    | mark m => cases m <;> simp_all [Act.fish, Act.base]
  exact congrArg₂ (fun o a => { d.base with objs := o, hist := a }) ho ha

theorem effect_fish {d : Desk} {o : FishOut} (hG : G) (h : FishFrame d o.d) :
    Effect W S G U d.core (.fish o) := by
  cases o with
  | ret d' r => exact .playRet hG (base_frame h) r
  | wait d' pc => exact .playWait hG (base_frame h) rfl

/-- The commands of the game. -/
def Cmd.fishing : Cmd → Bool
  | .userfire _ | .catchfish _ | .catchsweepfish _ => true
  | _ => false

theorem effect_cli (d : Desk) (u : Ref) (inp : Inp) (cmd : Cmd) (hG : cmd.fishing = true → G) :
    Effect (cmd = .dismissApply ∧ d.costList ≠ [] ∧ dismissesNow d = true ∧
      ((d.objs u).master = true ∨ standupPays d (d.objs u).id = true)) S G
      (d.started = false) d.core
      (cli d u inp cmd) := by
  cases cmd with
  | ready => exact effect_cliReady d u
  | grabBanker grabbed => exact effect_grabBanker d u grabbed
  | gamerun => exact .ret (by rfl) _
  | dismissApply => exact (effect_dismissApply d u).imp fun h => ⟨rfl, h⟩
  | dismissReply agree => exact effect_dismissReply d u agree
  | userfire kind => exact effect_fish (hG rfl) (frame_userfire d u kind inp)
  | catchfish req => exact effect_fish (hG rfl) (frame_catchfish d u req inp)
  | catchsweepfish req => exact effect_fish (hG rfl) (frame_catchsweepfish d u req inp)

/-! ### Every piece of work -/

/-- The error handler of `new_desk` would begin a walk at this point. -/
def failsEarly (d : Desk) : Pc → Prop
  | .monitor => d.sync.waiting ≠ none
  | .config | .banker | .gamerun | .gameend | .result _ | .resultErr _ => d.count = 0
  | _ => False

theorem paysBack_command {d : Desk} {j : Job} {u : Ref} (hj : j.command d = some (u, .dismissApply))
    (h : d.costList ≠ [] ∧ dismissesNow d = true ∧
      ((d.objs u).master = true ∨ standupPays d (d.objs u).id = true)) : paysBack d j = true := by
  obtain ⟨hl, hn, hm⟩ := h
  have hor : ((d.objs u).master || standupPays d (d.objs u).id) = true := by simpa using hm
  cases j with
  | req r =>
      cases r with
      | android v c =>
          simp only [Job.command] at hj
          split at hj
          · rename_i hdir
            obtain ⟨rfl, rfl⟩ := Prod.mk.inj (Option.some_inj.1 hj)
            simp [Cmd.direct] at hdir
          · exact absurd hj (by simp)
      | _ => simp [Job.command] at hj
  | cmd v c => simp_all [Job.command, paysBack]
  | seg pc => simp_all [Job.command, paysBack]

/-- The commands of the game, whichever way they come, its segments, its timers and `new_desk`. -/
def Job.plays (d : Desk) (j : Job) : Bool :=
  match j with
  | .seg (.begin _ c) => c.fishing
  | .seg pc => pc.newDesk || pc.catching
  | .req .buildFish | .req .clearTrace => true
  | j =>
      match j.command d with
      | some (_, c) => c.fishing
      | none => false

theorem effect_afk (d : Desk) (uid : ℕ) : Effect W S G U d.core (afk d uid) := by
  unfold afk changeandroidid
  repeat' split
  · exact .ret (by rfl) _
  · exact .ret (by rfl) _
  all_goals refine .ret ?_ _
  all_goals exact core_setUser d _ (fun x => { x with afk := true }) fun _ => rfl

theorem effect_sceneinfo (d : Desk) (uid : ℕ) : Effect W S G U d.core (sceneinfo d uid) := by
  unfold sceneinfo
  repeat' split
  · exact .ret (by rfl) _
  · exact .ret (by rfl) _
  · exact .ret (by rfl) _
  · refine .ret ?_ _
    exact core_setUser d _ (fun x => { x with source := true, afk := false }) fun _ => rfl

theorem effect_onTimer (d : Desk) (f : Roles → Roles) (hG : G) :
    Effect W S G U d.core (onTimer d f) := by
  unfold onTimer
  repeat' split
  all_goals exact .playRet hG (by rfl) _

theorem effect_sitEnd (d : Desk) (u : Ref) : Effect W S G U d.core (sitEnd d u) := by
  unfold sitEnd
  dsimp only
  split
  · exact .ret (core_setUser d u (fun x => { x with ready := true }) fun _ => rfl) _
  · exact .ret (by rfl) _

theorem effect_direct (d : Desk) (inp : Inp) (r : Req) :
    Effect (paysBack d (.req r) = true)
      (fun uid => ∃ seat, Job.req r = .req (.sitdown uid seat)) (Job.plays d (.req r) = true)
      (d.started = false) d.core (direct d inp r) := by
  cases r with
  | join uid android => exact effect_join d uid android inp
  | sitdown uid withseat => exact effect_sitdown d withseat ⟨withseat, rfl⟩
  | standup uid =>
      refine (effect_standup d uid .ret).imp ?_
      rintro ⟨hl, hp⟩
      simp [paysBack, hl, hp]
  | leave uid => exact (tail_leave d uid .ret).effect
  | afk uid => exact effect_afk d uid
  | sceneinfo uid => exact effect_sceneinfo d uid
  | forceDismiss =>
      refine (effect_forceDismiss d).imp ?_
      rintro ⟨hl, hlive, hst⟩
      simp [paysBack, hl, hlive, hst]
  | client uid cmd => exact .ret (by rfl) _
  | android u cmd =>
      dsimp only [direct]
      split
      · rename_i hdir
        refine (effect_cli d u inp cmd fun hf => ?_).imp ?_
        · simp [Job.plays, Job.command, hdir, hf]
        · rintro ⟨rfl, -⟩
          simp [Cmd.direct] at hdir
      · exact .ret (by rfl) _
  | buildFish => exact effect_onTimer d _ rfl
  | clearTrace => exact effect_onTimer d _ rfl

theorem effect_segment (d : Desk) (inp : Inp) {pc : Pc} (hpc : pc.plain = true) :
    Effect (paysBack d (.seg pc) = true ∨ failsEarly d pc) S (Job.plays d (.seg pc) = true)
      (d.started = false) d.core (segment d inp pc) := by
  cases pc with
  | sitAdd | sitUse | sitRecord | sitCost => simp [Pc.plain] at hpc
  | backRecord | backAdd | backQuery | backPush | backSave => simp [Pc.plain] at hpc
  | monitor => exact (effect_sleepOn d .ready rfl rfl).imp fun h => Or.inr h.1
  | joinAdd u =>
      exact .wait (core_setUser d u (fun x => { x with push := true }) fun _ => rfl) rfl rfl
  | joinDb u => exact .ret (by rfl) _
  | standRemove uid k => exact (tail_afterStandup d _ k).effect
  | kickRemove uid k => exact .wait (by rfl) rfl rfl
  | kickLeave uid k =>
      cases k with
      | leave k => exact (tail_afterLeave d _ k).effect
      | free r => exact effect_freeLoop d r
  | dismissAgent uid => exact .ret (by rfl) _
  | freeAgent u r => exact .drop (Or.inl rfl) (by simp)
  | freeDismiss r => exact .wait (by rfl) rfl rfl
  | freeGamedb r => exact .wait (by rfl) rfl rfl
  | freeLobby r => exact .ret (core_mark { d with live := false } (m := .freed) rfl) _
  | ready => exact (effect_doGame { d with sync := d.sync.resumed } rfl).imp False.elim
  | start => exact .playWait rfl (by rfl) rfl
  | config =>
      refine ((effect_sleepOn { d with game := d.game.map fun g => { g with roles := some {} } }
        .banker rfl rfl).imp fun h => Or.inr h.2).play rfl ?_
      rw [base_core, base_core]
      rfl
  | banker =>
      dsimp only [segment]
      split
      · exact ((failed_unhandled { d with sync := d.sync.resumed }).effect rfl).imp Or.inr
      · rename_i d' hd'
        have hbase : d'.base = d.base :=
          base_determinBanker (d := { d with sync := d.sync.resumed }) hd'
        have hcount : d'.count = d.count := by
          simp only [determinBanker, Option.map_eq_some_iff] at hd'
          obtain ⟨seat, -, rfl⟩ := hd'
          rfl
        refine ((effect_sleepOn d' .gamerun rfl rfl).imp fun h =>
          Or.inr (hcount.symm.trans h.2)).play rfl ?_
        rw [base_core, base_core, hbase]
  | gamerun => exact (effect_gameRun { d with sync := d.sync.resumed } inp rfl).imp Or.inr
  | gameend =>
      refine ((effect_gameStop
        { d with game := d.game.map fun g => { g with sync := g.sync.resumed } } rfl).imp
          Or.inr).play rfl ?_
      rw [base_core, base_core]
      rfl
  | result scores => exact (effect_deskEnd d rfl).imp Or.inr
  | resultErr scores => exact ((failed_afterError d).effect rfl).imp Or.inr
  | voteStart => exact effect_voteStart d
  | vote usern => exact effect_voteEnd d usern
  | begin u cmd =>
      refine (effect_cli d u inp cmd id).imp ?_
      rintro ⟨rfl, hw⟩
      exact Or.inl (paysBack_command rfl hw)
  | fish pc => exact effect_fish rfl (frame_fishSegment d inp pc)

/-- The desk once the call of a piece of work has been executed. -/
def Job.called (d : Desk) (inp : Inp) : Job → Desk
  | .seg pc => executed d inp pc
  | _ => d

theorem base_jobCalled (d : Desk) (inp : Inp) {j : Job} (hj : ∀ pc ∈ j.pcs, pc.plain = true) :
    (j.called d inp).base = d.base := by
  cases j with
  | req r => rfl
  | cmd u c => rfl
  | seg pc => exact base_executed d inp (hj pc (by simp [Job.pcs]))

/-- **Every piece of work that does not start from a pending seat or charge has one of the
effects**, once its call has been executed.  A walk begins only where `Halieutics.paysBack` says so,
or when `new_desk` fails before a game has begun. -/
theorem effect_job (d : Desk) (inp : Inp) {j : Job} (hj : ∀ pc ∈ j.pcs, pc.plain = true) :
    Effect (paysBack d j = true ∨ ∃ pc, j = .seg pc ∧ failsEarly d pc)
      (fun uid => ∃ seat, j = .req (.sitdown uid seat)) (j.plays d = true) (d.started = false)
      (j.called d inp).core (j.out d inp) := by
  cases j with
  | req r => exact (effect_direct d inp r).imp Or.inl
  | cmd u cmd =>
      refine (effect_cli d u inp cmd id).imp ?_
      rintro ⟨rfl, hw⟩
      exact Or.inl (paysBack_command rfl hw)
  | seg pc =>
      have hpc := hj pc (by simp [Job.pcs])
      have h := effect_segment (S := fun uid => ∃ seat, Job.seg pc = .req (.sitdown uid seat))
        (executed d inp pc) inp hpc
      have hplays : Job.plays (executed d inp pc) (.seg pc) = Job.plays d (.seg pc) := by
        cases pc <;> rfl
      have hstarted : (executed d inp pc).started = d.started := by
        unfold executed
        split <;> rfl
      rw [hplays, hstarted] at h
      refine h.imp (Or.imp ?_ fun hf => ⟨pc, rfl, ?_⟩)
      · -- only a queued command can pay back, and it makes no call of its own
        intro hp
        cases pc with
        | begin u cmd => exact hp
        | _ => simp [paysBack, Job.command] at hp
      · unfold executed at hf
        split at hf
        · exact hf
        · cases pc <;> exact hf

end Halieutics
