/-
**The life of a desk.**

A desk waits for its master, plays one game, and is freed; or it is dismissed before the game.  Two
kinds of coroutine drive it: `new_desk`, of which there is one, and the requests that dismiss a desk
that is not started.  `Halieutics.Desk.life` keeps of a desk what these two look at, and this module
says what every piece of work can do to it.

Main definitions:

* `Halieutics.Desk.life` — the number of games, `d.isstart`, whether the desk is being dismissed,
  the wait that is on, and the milestones;
* `Halieutics.Pc.freeing`, `Halieutics.Pc.calm` — the points inside `free_desk`, and those of the
  coroutines that do not drive the desk;
* `Halieutics.LifeEffect` — what a request can do to the life of a desk.

Main results:

* `Halieutics.life_job` — **what a request can do to the life of a desk**;
* `Halieutics.segment_walk`, `Halieutics.segment_freeing` — what a walk and `free_desk` can do;
* `Halieutics.segment_monitor`, `Halieutics.segment_ready`, `Halieutics.onward_segment` — **what
  `new_desk` can do**.
-/

import Halieutics.DeskCore

set_option relaxedAutoImplicit false
set_option autoImplicit false

namespace Halieutics

open LuaTable Coroutine

/-! ### Life -/

/-- The milestones of a desk's life, and the refunds. -/
def Act.life : Act → Bool
  | .mark .doGame | .mark .freeDesk => true
  | .rpc .freeDesk | .rpc .lobbyFree | .rpc (.addProp _) => true
  | _ => false

/-- What drives a desk. -/
structure Life where
  count : ℕ
  isstart : Bool
  dismissing : Bool
  waiting : Option St
  acts : List Act

/-- The desk is being dismissed by its master, or by the lobby. -/
def Desk.dismissing (d : Desk) : Bool :=
  d.dimiss || match d.dismiss with | .yes => true | _ => false

/-- **The life of a desk.** -/
def Desk.life (d : Desk) : Life :=
  ⟨d.count, d.isstart, d.dismissing, d.sync.waiting, d.hist.filter Act.life⟩

/-- The points inside `free_desk`. -/
def Pc.freeing : Pc → Bool
  | .kickRemove _ (.free _) | .kickLeave _ (.free _) | .freeAgent _ _ | .freeDismiss _
  | .freeGamedb _ | .freeLobby _ => true
  | _ => false

/-- The points of the coroutines that do not drive the desk. -/
def Pc.calm (pc : Pc) : Bool := !pc.newDesk && !pc.freeing && pc.walk?.isNone

theorem life_called (d : Desk) {r : Rpc} (h : Act.life (.rpc r) = false) :
    (d.called r).life = d.life := by
  simp [Desk.life, Desk.called, Desk.dismissing, h]

theorem life_mark (d : Desk) {m : Mark} (h : Act.life (.mark m) = false) :
    (d.mark m).life = d.life := by
  simp [Desk.life, Desk.mark, Desk.dismissing, h]

theorem life_executed (d : Desk) (inp : Inp) {pc : Pc} (h : pc.calm = true ∨ pc.newDesk = true) :
    (executed d inp pc).life = d.life := by
  unfold executed
  split
  · rfl
  · rename_i r hr
    refine life_called d ?_
    cases pc with
    | fish pc => cases pc <;> simp_all [Pc.rpc] <;> subst hr <;> rfl
    | _ => simp_all [Pc.rpc, Pc.calm, Pc.newDesk, Pc.freeing, Pc.walk?] <;> subst hr <;> rfl

/-! ### Freeing -/

/-- `free_desk` stays inside `free_desk`. -/
theorem freeLoop_cases (d : Desk) (r : Ret) :
    ∃ d' pc, freeLoop d r = .wait d' pc ∧ d'.life = d.life ∧ pc.freeing = true := by
  unfold freeLoop
  split
  · exact ⟨d, _, rfl, rfl, rfl⟩
  · split
    · exact ⟨d, _, rfl, rfl, rfl⟩
    · exact ⟨_, _, rfl, rfl, rfl⟩

/-- `free_desk` begins. -/
theorem freeDesk_cases (d : Desk) (r : Ret) :
    ∃ d' pc, freeDesk d r = .wait d' pc ∧ pc.freeing = true ∧
      d'.life = { d.life with acts := .mark .freeDesk :: d.life.acts } := by
  obtain ⟨d', pc, h, hl, hpc⟩ := freeLoop_cases (d.mark .freeDesk) r
  exact ⟨d', pc, h, hpc, by rw [hl]; rfl⟩

/-- The desk is about to be freed: `free_desk` has begun, or the walk before it, or the code raised
before either. -/
inductive Ending (f : Life) : Out → Prop
  | raise {d : Desk} {r : Ret} : d.life = f → Ending f (.ret d r)
  | free {d : Desk} {r : Ret} : d.life = f → Ending f (freeDesk d r)
  | back {d : Desk} {r : Ret} : d.life = f → Ending f (startWalk d none (.free r))

theorem startWalk_cases (d : Desk) (userid : Option ℕ) (k : AfterBack) :
    ∃ pc w st, startWalk d userid k = .wait d pc ∧ pc.walk? = some (w, st) ∧ w.k = k := by
  obtain ⟨w', pc, hw, hk, -, -, ⟨c, rfl⟩ | rfl⟩ :=
    walk_cases d { tab := d.costs, userid := userid, i := 0, costs := [], k := k }
      ((d.tabs d.costs).drop 0)
  · exact ⟨_, w', _, hw, rfl, hk⟩
  · exact ⟨_, w', _, hw, rfl, hk⟩

/-! ### What requests can do -/

/-- **What a request can do to the life `f` of a desk.**  The propositions `R` and `D` say when it
may release the barrier on which `new_desk` waits, and when it may dismiss the desk. -/
inductive LifeEffect (R D : Prop) (f : Life) : Out → Prop
  | calm {o : Out} : o.d.life = f → (∀ pc ∈ o.pcs, pc.calm = true) → LifeEffect R D f o
  | woken {o : Out} : o.d.life = { f with waiting := none } → (f.waiting = some .ready → R) →
      (∀ pc ∈ o.pcs, pc.calm = true) → LifeEffect R D f o
  | walk {d : Desk} {userid : Option ℕ} {u : Ref} {k : AfterStandup} : d.life = f →
      LifeEffect R D f (startWalk d userid (.standup u k))
  | dismissed {o : Out} : D → Ending { f with dismissing := true } o → LifeEffect R D f o

namespace LifeEffect

variable {R D : Prop} {f : Life}

theorem ret {d : Desk} (h : d.life = f) (r : Ret) : LifeEffect R D f (.ret d r) :=
  .calm h (by simp [Out.ret, Out.pcs])

theorem wait {d : Desk} {pc : Pc} (h : d.life = f) (hpc : pc.calm = true) :
    LifeEffect R D f (.wait d pc) :=
  .calm h (by simpa [Out.wait, Out.pcs] using hpc)

theorem imp {R' D' : Prop} {o : Out} (hR : R → R') (hD : D → D') (h : LifeEffect R D f o) :
    LifeEffect R' D' f o := by
  cases h with
  | calm h₁ h₂ => exact .calm h₁ h₂
  | woken h₁ h₂ h₃ => exact .woken h₁ (fun h => hR (h₂ h)) h₃
  | walk h₁ => exact .walk h₁
  | dismissed h₁ h₂ => exact .dismissed (hD h₁) h₂

end LifeEffect

variable {R D : Prop}

/-- Standing up and leaving do not drive the desk. -/
theorem Tail.calm {U : Prop} {d : Desk} {o : Out} (h : Tail U d o) :
    o.d.life = d.life ∧ ∀ pc ∈ o.pcs, pc.calm = true := by
  cases h with
  | ret r => exact ⟨rfl, by simp⟩
  | agent uid => exact ⟨rfl, by simp [Pc.calm, Pc.newDesk, Pc.freeing, Pc.walk?]⟩
  | kick k hu ha => exact ⟨rfl, by simp [kickUser, Pc.calm, Pc.newDesk, Pc.freeing, Pc.walk?]⟩
  | lost k hu ha =>
      exact ⟨by simp [Desk.life, kickUser, drop, Desk.setUser, Desk.dismissing],
        by simp [kickUser, Pc.calm, Pc.newDesk, Pc.freeing, Pc.walk?]⟩
  | stand k _ hv hs => exact ⟨rfl, by simp [Pc.calm, Pc.newDesk, Pc.freeing, Pc.walk?]⟩

theorem Tail.life {U : Prop} {d : Desk} {o : Out} (h : Tail U d o) : LifeEffect R D d.life o :=
  .calm h.calm.1 h.calm.2

theorem life_standup (d : Desk) (uid : ℕ) (k : AfterStandup) :
    LifeEffect R D d.life (standup d uid k) := by
  rcases standup_cases d uid k with h | ⟨-, -, u, -, h⟩
  · exact h.life
  · rw [h]
    exact .walk rfl

/-- `desk.force_dismiss` gets past its guard, or the master dismisses the desk. -/
def dismisses (d : Desk) (j : Job) : Bool :=
  match j with
  | .req .forceDismiss => d.live && !d.isstart
  | j =>
      match j.command d with
      | some (u, .dismissApply) => dismissesNow d && (d.objs u).master
      | _ => false

/-- The master gives the command `ready` while `new_desk` waits for it. -/
def releases (d : Desk) (j : Job) : Bool :=
  match j.command d with
  | some (u, .ready) => (d.objs u).master && d.sync.waiting == some .ready
  | _ => false

theorem life_forceDismiss (d : Desk) :
    LifeEffect R (d.live = true ∧ d.isstart = false) d.life (forceDismiss d) := by
  have hlife : { d with dimiss := true }.life = { d.life with dismissing := true } := by
    simp [Desk.life, Desk.dismissing]
  rcases forceDismiss_cases d with ⟨r, h⟩ | ⟨hlive, hst, ⟨r, h⟩ | h | ⟨-, h⟩⟩
  · rw [h]; exact .ret rfl r
  · rw [h]; exact .dismissed ⟨hlive, hst⟩ (.raise hlife)
  · rw [h]; exact .dismissed ⟨hlive, hst⟩ (.free hlife)
  · rw [h]; exact .dismissed ⟨hlive, hst⟩ (.back hlife)

theorem life_dismissApply (d : Desk) (u : Ref) :
    LifeEffect R (dismissesNow d = true ∧ (d.objs u).master = true) d.life (dismissApply d u) := by
  have hlife : { d with dismiss := .yes }.life = { d.life with dismissing := true } := by
    simp [Desk.life, Desk.dismissing]
  rcases dismissApply_cases d u with ⟨r, h⟩ | ⟨hd, -, v, h⟩ | ⟨hn, hm, h | ⟨-, h⟩⟩ | ⟨-, h⟩
  · rw [h]; exact .ret rfl r
  · rw [h]
    refine .calm ?_ (by simp [Out.pcs, Pc.calm, Pc.newDesk, Pc.freeing, Pc.walk?])
    simp [Desk.life, Desk.dismissing, hd]
  · rw [h]; exact .dismissed ⟨hn, hm⟩ (.free hlife)
  · rw [h]; exact .dismissed ⟨hn, hm⟩ (.back hlife)
  · rw [h]; exact life_standup d _ _

theorem life_cliReady (d : Desk) (u : Ref) :
    LifeEffect ((d.objs u).master = true ∧ d.sync.waiting = some .ready) D d.life
      (cliReady d u) := by
  unfold cliReady
  dsimp only
  split
  · exact .ret (by rfl) _
  · split
    · rename_i hm
      split
      · exact .ret (by rfl) _
      · split
        · exact .ret (by rfl) _
        · rcases d.sync.wakeup_cases .ready with ⟨hw, h⟩ | h
          · refine .woken ?_ (fun _ => ⟨hm, hw⟩) (by simp [Out.ret, Out.pcs])
            simp [Desk.life, Desk.dismissing, Out.ret, Desk.setUser, h]
          · refine .ret ?_ _
            simp [Desk.life, Desk.dismissing, Desk.setUser, h]
    · exact .ret (by rfl) _

theorem life_arriveAt (d : Desk) {st : St} (hst : st ≠ .ready) (seat : ℤ) :
    LifeEffect R D d.life (arriveAt d st seat) := by
  rcases d.sync.arrive_waiting st seat with ⟨hw, h⟩ | h
  · refine .woken ?_ ?_ (by simp [arriveAt, Out.ret, Out.pcs])
    · simp [Desk.life, Desk.dismissing, arriveAt, Out.ret, h]
    · intro hr
      exact absurd (Option.some_inj.1 (hw.symm.trans hr)) hst
  · refine .ret ?_ _
    simp [Desk.life, Desk.dismissing, h]

theorem life_grabBanker (d : Desk) (u : Ref) (grabbed : Bool) :
    LifeEffect R D d.life (grabBanker d u grabbed) := by
  unfold grabBanker
  split
  · split
    · exact life_arriveAt (d.setUser u fun x => { x with grabbed := true }) (by simp) _
    · exact life_arriveAt d (by simp) _
  · exact .ret (by rfl) _

theorem life_dismissReply (d : Desk) (u : Ref) (agree : Bool) :
    LifeEffect R D d.life (dismissReply d u agree) := by
  unfold dismissReply
  cases hd : d.dismiss with
  | no => exact .ret (by rfl) _
  | yes => exact .ret (by rfl) _
  | vote v =>
      dsimp only
      repeat' split
      all_goals exact .ret (by simp [Desk.life, Desk.dismissing, hd]) _

theorem life_voteStart (d : Desk) : LifeEffect R D d.life (voteStart d) := by
  unfold voteStart
  cases hd : d.dismiss with
  | no => exact .ret (by rfl) _
  | yes => exact .ret (by rfl) _
  | vote v =>
      dsimp only
      split
      · exact .ret (by rfl) _
      · split
        · exact .ret (by rfl) _
        · exact .wait (by simp [Desk.life, Desk.dismissing, hd]) rfl

theorem life_force (d : Desk) : (force d).life = d.life := by
  unfold force
  split <;> rfl

theorem life_voteEnd (d : Desk) (usern : ℕ) : LifeEffect R D d.life (voteEnd d usern) := by
  rcases voteEnd_cases d usern with ⟨r, h⟩ | ⟨v, d', err, r, hv, hd' | hd', h⟩
  · rw [h]; exact .ret rfl r
  · subst hd'
    rw [h]
    exact .ret (by simp [Desk.life, Desk.dismissing, hv]) r
  · rw [h]
    refine .ret ?_ r
    rcases force_cases d with hf | ⟨g, -, hf⟩
    · rw [hd', hf]; simp [Desk.life, Desk.dismissing, hv]
    · rw [hd', hf]; simp [Desk.life, Desk.dismissing, hv]

theorem life_frame {d d' : Desk} (h : FishFrame d d') : d'.life = d.life := by
  obtain ⟨objs, game, banker, acts, rfl, -, hacts⟩ := h
  have ha : (acts ++ d.hist).filter Act.life = d.hist.filter Act.life := by
    rw [List.filter_append, List.filter_eq_nil_iff.2, List.nil_append]
    intro a hmem
    have := hacts a hmem
    cases a with
    | rpc r => simp [Act.fish] at this
    | mark m => cases m <;> simp_all [Act.fish, Act.life]
  exact congrArg (fun a => { d.life with acts := a }) ha

theorem life_fish {d : Desk} {o : FishOut} (h : FishFrame d o.d) :
    LifeEffect R D d.life (.fish o) := by
  cases o with
  | ret d' r => exact .ret (life_frame h) r
  | wait d' pc => exact .wait (life_frame h) rfl

theorem life_cli (d : Desk) (u : Ref) (inp : Inp) (cmd : Cmd) :
    LifeEffect (cmd = .ready ∧ (d.objs u).master = true ∧ d.sync.waiting = some .ready)
      (cmd = .dismissApply ∧ dismissesNow d = true ∧ (d.objs u).master = true) d.life
      (cli d u inp cmd) := by
  cases cmd with
  | ready => exact (life_cliReady d u).imp (fun h => ⟨rfl, h⟩) id
  | grabBanker grabbed => exact life_grabBanker d u grabbed
  | gamerun => exact life_arriveAt d (by simp) _
  | dismissApply => exact (life_dismissApply d u).imp id fun h => ⟨rfl, h⟩
  | dismissReply agree => exact life_dismissReply d u agree
  | userfire kind => exact life_fish (frame_userfire d u kind inp)
  | catchfish req => exact life_fish (frame_catchfish d u req inp)
  | catchsweepfish req => exact life_fish (frame_catchsweepfish d u req inp)

theorem releases_command {d : Desk} {j : Job} {u : Ref} (hj : j.command d = some (u, .ready))
    (hm : (d.objs u).master = true) (hw : d.sync.waiting = some .ready) : releases d j = true := by
  simp [releases, hj, hm, hw]

theorem dismisses_command {d : Desk} {j : Job} {u : Ref}
    (hj : j.command d = some (u, .dismissApply)) (hn : dismissesNow d = true)
    (hm : (d.objs u).master = true) : dismisses d j = true := by
  unfold dismisses
  split
  · simp [Job.command] at hj
  · simp [hj, hn, hm]

/-- A client command, whichever way it comes. -/
theorem life_command (d : Desk) (u : Ref) (inp : Inp) (cmd : Cmd) {j : Job}
    (hj : j.command d = some (u, cmd)) :
    LifeEffect (releases d j = true) (dismisses d j = true) d.life (cli d u inp cmd) := by
  refine (life_cli d u inp cmd).imp ?_ ?_
  · rintro ⟨rfl, hm, hw⟩
    exact releases_command hj hm hw
  · rintro ⟨rfl, hn, hm⟩
    exact dismisses_command hj hn hm

theorem life_direct (d : Desk) (inp : Inp) (r : Req) :
    LifeEffect (releases d (.req r) = true) (dismisses d (.req r) = true) d.life
      (direct d inp r) := by
  cases r with
  | join uid android =>
      rcases join_cases d uid android inp with ⟨r, h⟩ | ⟨user, -, -, -, -, h⟩
      · rw [direct, h]; exact .ret rfl r
      · rw [direct, h]; exact .wait (by rfl) rfl
  | sitdown uid withseat =>
      rcases sitdown_cases d uid withseat with ⟨r, h⟩ | ⟨u, seat, rest, -, -, -, -, h⟩
      · rw [direct, h]; exact .ret rfl r
      · rw [direct, h]
        exact .wait (by simp [Desk.life, assignSeat, Desk.setUser, Desk.dismissing]) rfl
  | standup uid => exact life_standup d uid .ret
  | leave uid => exact (tail_leave (U := True) d uid .ret).life
  | afk uid =>
      dsimp only [direct]
      unfold afk changeandroidid
      repeat' split
      all_goals exact .ret (by rfl) _
  | sceneinfo uid =>
      dsimp only [direct]
      unfold sceneinfo
      repeat' split
      all_goals exact .ret (by rfl) _
  | forceDismiss =>
      refine (life_forceDismiss d).imp id ?_
      rintro ⟨hlive, hst⟩
      simp [dismisses, hlive, hst]
  | client uid cmd => exact .ret (by rfl) _
  | android u cmd =>
      dsimp only [direct]
      split
      · rename_i hdir
        exact life_command d u inp cmd (by simp only [Job.command]; rw [if_pos hdir])
      · exact .ret (by rfl) _
  | buildFish =>
      dsimp only [direct]
      unfold onTimer
      repeat' split
      all_goals exact .ret (by rfl) _
  | clearTrace =>
      dsimp only [direct]
      unfold onTimer
      repeat' split
      all_goals exact .ret (by rfl) _

theorem life_segment (d : Desk) (inp : Inp) {pc : Pc} (hpc : pc.calm = true) :
    LifeEffect (releases d (.seg pc) = true) (dismisses d (.seg pc) = true) d.life
      (segment d inp pc) := by
  cases pc with
  | monitor | ready | start | config | banker | gamerun | gameend | result | resultErr =>
      simp [Pc.calm, Pc.newDesk] at hpc
  | backRecord | backAdd | backQuery | backPush | backSave => simp [Pc.calm, Pc.walk?] at hpc
  | freeAgent | freeDismiss | freeGamedb | freeLobby => simp [Pc.calm, Pc.freeing] at hpc
  | joinAdd u => exact .wait (by rfl) rfl
  | joinDb u => exact .ret (by rfl) _
  | sitAdd u seat =>
      dsimp only [segment, sitSeated]
      split
      · exact .wait (by rfl) rfl
      · dsimp only [sitEnd]
        split <;> exact .ret (by rfl) _
  | sitUse u =>
      dsimp only [segment]
      split
      · exact .wait (by rfl) rfl
      · exact .ret (by rfl) _
  | sitRecord u =>
      dsimp only [segment]
      split
      · exact .wait (by rfl) rfl
      · exact .ret (by rfl) _
  | sitCost u c =>
      dsimp only [segment, sitEnd]
      split <;> exact .ret (by rfl) _
  | standRemove uid k => exact (tail_afterStandup (U := True) d _ k).life
  | kickRemove uid k =>
      cases k with
      | leave k => exact .wait (by rfl) rfl
      | free r => simp [Pc.calm, Pc.freeing] at hpc
  | kickLeave uid k =>
      cases k with
      | leave k => exact (tail_afterLeave (U := True) d _ k).life
      | free r => simp [Pc.calm, Pc.freeing] at hpc
  | dismissAgent uid => exact .ret (by rfl) _
  | voteStart => exact life_voteStart d
  | vote usern => exact life_voteEnd d usern
  | begin u cmd => exact life_command d u inp cmd rfl
  | fish pc => exact life_fish (frame_fishSegment d inp pc)

/-- **What a request can do to the life of a desk.** -/
theorem life_job (d : Desk) (inp : Inp) {j : Job} (hj : ∀ pc ∈ j.pcs, pc.calm = true) :
    LifeEffect (releases d j = true) (dismisses d j = true) d.life (j.out d inp) := by
  cases j with
  | req r => exact life_direct d inp r
  | cmd u cmd => exact life_command d u inp cmd rfl
  | seg pc =>
      have hpc := hj pc (by simp [Job.pcs])
      have h := life_segment (executed d inp pc) inp hpc
      rw [life_executed d inp (Or.inl hpc)] at h
      -- only a queued command can release or dismiss, and it makes no call of its own
      cases pc with
      | begin u cmd => exact h
      | _ =>
          refine h.imp ?_ ?_
          · simp [releases, Job.command]
          · simp [dismisses, Job.command]

/-! ### Walks and `free_desk` -/

/-- A walk goes on under the same continuation, or it is at its end, or a push cuts it off. -/
theorem segment_walk (d : Desk) (inp : Inp) {pc : Pc} {w : Walk} {st : Stage}
    (h : pc.walk? = some (w, st)) :
    (∃ pc' w' st', segment d inp pc = .wait d pc' ∧ pc'.walk? = some (w', st') ∧ w'.k = w.k) ∨
    (pc = .backSave w ∧ segment d inp pc = afterBack (replaceCosts d w.costs) w.k) ∨
    (∃ r, segment d inp pc = .ret d r) := by
  have hon : ∀ w : Walk, ∃ pc' w' st', walkOn d w = .wait d pc' ∧ pc'.walk? = some (w', st') ∧
      w'.k = w.k := by
    intro w
    obtain ⟨w', pc', hw, hk, -, -, ⟨c, rfl⟩ | rfl⟩ := walk_cases d w ((d.tabs w.tab).drop w.i)
    · exact ⟨_, w', _, hw, rfl, hk⟩
    · exact ⟨_, w', _, hw, rfl, hk⟩
  cases pc <;> simp only [Pc.walk?, reduceCtorEq, Option.some_inj, Prod.mk.injEq] at h
  case backRecord w c => exact Or.inl ⟨_, w, _, rfl, rfl, by rw [h.1]⟩
  case backAdd w c => exact Or.inl ⟨_, w, _, rfl, rfl, by rw [h.1]⟩
  case backQuery w' c =>
      obtain ⟨rfl, -⟩ := h
      dsimp only [segment]
      split
      · exact Or.inl ⟨_, w', _, rfl, rfl, rfl⟩
      · exact Or.inl (hon { w' with i := w'.i + 1 })
  case backPush w' c =>
      obtain ⟨rfl, -⟩ := h
      dsimp only [segment]
      split
      · exact Or.inr (Or.inr ⟨_, rfl⟩)
      · exact Or.inl (hon { w' with i := w'.i + 1 })
  case backSave w' =>
      obtain ⟨rfl, -⟩ := h
      exact Or.inr (Or.inl ⟨rfl, rfl⟩)

/-- `free_desk` goes on, or it is at its end. -/
theorem segment_freeing (d : Desk) (inp : Inp) {pc : Pc} (h : pc.freeing = true) :
    (∃ d' pc', segment d inp pc = .wait d' pc' ∧ d'.life = d.life ∧ pc'.freeing = true ∧
      ∀ r, pc ≠ .freeLobby r) ∨
    (∃ r d', pc = .freeLobby r ∧ segment d inp pc = .ret d' r ∧ d'.life = d.life) := by
  cases pc with
  | kickRemove uid k =>
      cases k with
      | leave k => simp [Pc.freeing] at h
      | free r => exact Or.inl ⟨d, _, rfl, rfl, rfl, by simp⟩
  | kickLeave uid k =>
      cases k with
      | leave k => simp [Pc.freeing] at h
      | free r =>
          obtain ⟨d', pc, hs, hl, hpc⟩ := freeLoop_cases d r
          exact Or.inl ⟨d', pc, hs, hl, hpc, by simp⟩
  | freeAgent u r => exact Or.inl ⟨_, _, rfl, rfl, rfl, by simp⟩
  | freeDismiss r => exact Or.inl ⟨d, _, rfl, rfl, rfl, by simp⟩
  | freeGamedb r => exact Or.inl ⟨d, _, rfl, rfl, rfl, by simp⟩
  | freeLobby r =>
      exact Or.inr ⟨r, _, rfl, rfl, life_mark { d with live := false } (m := .freed) rfl⟩
  | _ => simp [Pc.freeing] at h

/-! ### `new_desk` -/

/-- The points of `new_desk` once a game has begun. -/
def Pc.playing : Pc → Bool
  | .start | .config | .banker | .gamerun | .gameend | .result _ | .resultErr _ => true
  | _ => false

/-- The same games, dismissals and milestones. -/
structure Life.Same (f f' : Life) : Prop where
  count : f'.count = f.count
  dismissing : f'.dismissing = f.dismissing
  acts : f'.acts = f.acts

/-- **What `new_desk` can do once a game has begun**: it goes on, raises, or ends the desk. -/
inductive Onward (f : Life) : Out → Prop
  | next {d : Desk} {pc : Pc} : f.Same d.life → pc.playing = true → Onward f (.wait d pc)
  | stop {d : Desk} {r : Ret} : f.Same d.life → Onward f (.ret d r)
  | free {d : Desk} : f.Same d.life → Onward f (freeDesk d .nil)
  | back {d : Desk} : f.Same d.life → f.count = 0 → Onward f (startWalk d none (.free .nil))

theorem Failed.onward {d : Desk} {o : Out} {f : Life} (h : Failed d o) (hf : f.Same d.life) :
    Onward f o := by
  have hforce : f.Same (force d).life := by rw [life_force]; exact hf
  cases h with
  | raise r => exact .stop hf
  | forced r => exact .stop hforce
  | gameover scores _ =>
      refine .next ?_ rfl
      rw [life_mark _ rfl]
      exact hforce
  | free => exact .free hf
  | back hc _ => exact .back hf (hf.count.symm.trans hc)

theorem onward_sleepOn {d : Desk} {f : Life} (hf : f.Same d.life) (st : St) {pc : Pc}
    (hpc : pc.playing = true) : Onward f (sleepOn d st pc) := by
  rcases sleepOn_cases d st pc with ⟨-, h⟩ | ⟨-, h⟩
  · rw [h]
    refine .next ?_ hpc
    exact ⟨hf.count, hf.dismissing, hf.acts⟩
  · rw [h]
    exact (failed_unhandled d).onward hf

theorem onward_segment (d : Desk) (inp : Inp) {pc : Pc} (hpc : pc.playing = true) :
    Onward d.life (segment d inp pc) := by
  cases pc with
  | start => exact .next ⟨rfl, rfl, rfl⟩ rfl
  | config =>
      exact onward_sleepOn (d := { d with game := d.game.map fun g => { g with roles := some {} } })
        ⟨rfl, rfl, rfl⟩ .banker rfl
  | banker =>
      dsimp only [segment]
      split
      · exact (failed_unhandled { d with sync := d.sync.resumed }).onward (by exact ⟨rfl, rfl, rfl⟩)
      · rename_i d' hd'
        refine onward_sleepOn ?_ .gamerun rfl
        simp only [determinBanker, Option.map_eq_some_iff] at hd'
        obtain ⟨seat, -, rfl⟩ := hd'
        exact ⟨rfl, rfl, rfl⟩
  | gamerun =>
      dsimp only [segment, gameRun]
      split
      · exact (failed_unhandled _).onward (by exact ⟨rfl, rfl, rfl⟩)
      · split
        · exact (failed_unhandled _).onward (by exact ⟨rfl, rfl, rfl⟩)
        · exact .next ⟨rfl, rfl, rfl⟩ rfl
  | gameend =>
      dsimp only [segment, gameStop]
      split
      · exact (failed_unhandled _).onward (by exact ⟨rfl, rfl, rfl⟩)
      · split
        · exact (failed_unhandled _).onward (by exact ⟨rfl, rfl, rfl⟩)
        · exact .next ⟨rfl, rfl, rfl⟩ rfl
  | result scores =>
      dsimp only [segment, deskEnd]
      split
      · exact .free ⟨rfl, rfl, rfl⟩
      · exact (failed_afterError _).onward (by exact ⟨rfl, rfl, rfl⟩)
  | resultErr scores => exact (failed_afterError d).onward (by exact ⟨rfl, rfl, rfl⟩)
  | _ => simp [Pc.playing] at hpc

/-- `new_desk` reaches the barrier. -/
theorem segment_monitor (d : Desk) (inp : Inp) (h : d.sync.waiting = none) :
    ∃ d', segment d inp .monitor = .wait d' .ready ∧
      d'.life = { d.life with waiting := some .ready } := by
  rcases sleepOn_cases d .ready .ready with ⟨-, hs⟩ | ⟨hw, -⟩
  · exact ⟨_, hs, rfl⟩
  · exact absurd h hw

/-- `new_desk` passes the barrier: the first game begins. -/
theorem segment_ready (d : Desk) (inp : Inp) (h : d.count = 0) :
    ∃ d' pc, segment d inp .ready = .wait d' pc ∧ pc.playing = true ∧ d'.life.count = 1 ∧
      d'.life.dismissing = d.life.dismissing ∧
      d'.life.acts = .mark .doGame :: d.life.acts := by
  dsimp only [segment, doGame]
  rw [if_pos (by simp [Desk.mark, h])]
  split
  · exact ⟨_, _, rfl, rfl, by simp [Desk.life, Desk.mark, h], rfl, rfl⟩
  · exact ⟨_, _, rfl, rfl, by simp [Desk.life, Desk.mark, h], rfl, rfl⟩

end Halieutics
