/-
**The people at a desk.**

Who is at a desk, who sits where, who is away and who is ready, and which user reports the hits of
the androids: this is what users see of a desk, and a dozen moves change it.  `Halieutics.People` is
the desk with everything else forgotten, and the moves are its operations.  The desk refines it:
every piece of work is one move, and most are none.

Main definitions:

* `Halieutics.People`, `Halieutics.Desk.people` — **the people at a desk**;
* `Halieutics.Move`, `Halieutics.Move.apply` — **the moves**, and what they do;
* `Halieutics.Move.May` — which piece of work may make which move.

Main results:

* `Halieutics.people_job` — **every piece of work is one of the moves** that it may make;
* `Halieutics.people_inv` — the invariant rule in these terms.
-/

import Halieutics.DeskSeats

set_option relaxedAutoImplicit false
set_option autoImplicit false

namespace Halieutics

open LuaTable Coroutine

/-! ### The people -/

/-- Who a user is, where he sits, and whether he is away or ready. -/
def User.person (x : User) : User :=
  { id := x.id, android := x.android, seat := x.seat, audience := x.audience, master := x.master
    afk := x.afk, ready := x.ready }

/-- **The people at a desk.** -/
structure People where
  creater : ℕ
  maxplayer : ℕ
  maxaudience : ℕ
  objs : Ref → User
  nobj : ℕ
  users : Table ℤ Ref
  usermap : Table ℕ Ref
  audiences : Table ℕ Unit
  freeseats : List ℤ
  androidid : Option ℕ

/-- The people at the desk `d`. -/
def Desk.people (d : Desk) : People where
  creater := d.creater
  maxplayer := d.maxplayer
  maxaudience := d.maxaudience
  objs := fun u => (d.objs u).person
  nobj := d.nobj
  users := d.users
  usermap := d.usermap
  audiences := d.audiences
  freeseats := d.freeseats
  androidid := d.androidid

namespace People

/-- A user changes. -/
def setUser (p : People) (u : Ref) (f : User → User) : People :=
  { p with objs := Function.update p.objs u (f (p.objs u)) }

/-- Somebody whom the androids may report to: a user who is online and no android. -/
def online (p : People) (u : Ref) : Bool := !(p.objs u).afk && !(p.objs u).android

/-- The delegate is gone, or there is none: the first user who is online becomes the delegate. -/
def delegate (p : People) (uid : ℕ) : People :=
  if p.androidid = none ∨ p.androidid = some uid then
    { p with androidid := ((vals p.usermap).find? p.online).map fun u => (p.objs u).id }
  else p

end People

/-- **The moves.**  A user joins, is assigned a seat, takes it, gives it back, is dropped, is ready,
goes away, or comes back. -/
inductive Move where
  | stay
  | join (user : User)
  | assign (u : Ref) (seat : ℤ) (rest : List ℤ)
  | sit (u : Ref) (seat : ℤ) (b : Bool)
  | unseat (seat : ℤ) (v : Ref)
  | drop (u : Ref)
  | ready (u : Ref)
  | afk (uid : ℕ) (u : Ref)
  | scene (uid : ℕ) (u : Ref)

namespace Move

/-- **What a move does.** -/
def apply (p : People) : Move → People
  | stay => p
  | join user =>
      { p with
        objs := Function.update p.objs p.nobj user
        nobj := p.nobj + 1
        usermap := p.usermap.insert user.id p.nobj
        audiences := p.audiences.insert user.id ()
        androidid := if !user.android && p.androidid.isNone then some user.id else p.androidid }
  | assign u seat rest =>
      { p with freeseats := rest }.setUser u fun x => { x with
        seat := seat, audience := some false }
  | sit u seat b =>
      { p with
        users := p.users.insert seat u
        audiences := p.audiences.erase (p.objs u).id }.setUser u
          fun x => { x with ready := b || x.ready }
  | unseat seat v =>
      { p with
        audiences := p.audiences.insert (p.objs v).id ()
        users := p.users.erase seat
        freeseats := p.freeseats ++ [seat] }.setUser v
          fun x => { x with audience := some true, seat := -1 }
  | drop u =>
      { p with
        usermap := p.usermap.erase (p.objs u).id
        audiences := p.audiences.erase (p.objs u).id }.setUser u fun x =>
          { x with audience := none }
  | ready u => p.setUser u fun x => { x with ready := true }
  | afk uid u => (p.setUser u fun x => { x with afk := true }).delegate uid
  | scene uid u =>
      { p.setUser u fun x => { x with afk := false } with androidid := some (p.androidid.getD uid) }

/-- The user object that a move changes, and what becomes of it. -/
def change (p : People) : Move → Ref × User
  | stay => (p.nobj, p.objs p.nobj)
  | join user => (p.nobj, user)
  | assign u seat _ => (u, { p.objs u with seat := seat, audience := some false })
  | sit u _ b => (u, { p.objs u with ready := b || (p.objs u).ready })
  | unseat _ v => (v, { p.objs v with audience := some true, seat := -1 })
  | drop u => (u, { p.objs u with audience := none })
  | ready u => (u, { p.objs u with ready := true })
  | afk _ u => (u, { p.objs u with afk := true })
  | scene _ u => (u, { p.objs u with afk := false })

/-- The pending seat that a move takes. -/
def before : Move → List (Ref × ℤ)
  | sit u seat _ => [(u, seat)]
  | _ => []

/-- The pending seat that a move leaves behind. -/
def after : Move → List (Ref × ℤ)
  | assign u seat _ => [(u, seat)]
  | _ => []

end Move

/-- The points that may lead to a user being dropped though he did not ask to leave. -/
def Pc.parting : Pc → Bool
  | .standRemove _ (.dismissApply _) => true
  | .backRecord w _ | .backAdd w _ | .backQuery w _ | .backPush w _ | .backSave w =>
      match w.k with
      | .standup _ .ret => false
      | _ => true
  | pc => pc.newDesk || pc.freeing

/-- The work that may drop a user who did not ask to leave: dismissals, `new_desk`, and whatever
frees the desk. -/
def Job.parts (d : Desk) (j : Job) : Bool :=
  (match j with
    | .req .forceDismiss => true
    -- `new_desk` fails at once only when somebody else waits on the desk
    | .seg .monitor => d.sync.waiting.isSome
    | .seg pc => pc.parting
    | _ => false) ||
  match j.command d with
  | some (_, .dismissApply) => true
  | _ => false

/-- **Which piece of work may make which move.** -/
def Move.May (d : Desk) (j : Job) : Move → Prop
  | stay => pending j.pcs = []
  | join user => (∃ android, j = .req (.join user.id android)) ∧ user.person = user ∧
      user.seat = -1 ∧ user.audience = some true ∧ user.afk = false ∧ user.ready = false ∧
      user.master = (d.creater == user.id) ∧ d.usermap.lookup user.id = none ∧
      (vals d.users).length + (vals d.audiences).length < d.maxplayer + d.maxaudience
  | assign u seat rest => ∃ uid withseat, j = .req (.sitdown uid withseat) ∧ d.hasSeat uid = false ∧
      d.usermap.lookup uid = some u ∧ Takes d.freeseats seat rest
  | sit u seat b => j = .seg (.sitAdd u seat) ∧ (b = true → d.isstart = true)
  | unseat seat v => pending j.pcs = [] ∧ d.users.lookup seat = some v
  | drop u => pending j.pcs = [] ∧ (j.parts d = true ∨ ∃ uid, j = .req (.leave uid) ∧
      d.usermap.lookup uid = some u ∧ (d.objs u).audience ≠ some false)
  | ready u => pending j.pcs = [] ∧ (d.isstart = true ∨
      j.command d = some (u, .ready) ∧ (d.objs u).audience ≠ some true)
  | afk uid u => j = .req (.afk uid) ∧ d.usermap.lookup uid = some u
  | scene uid u => j = .req (.sceneinfo uid) ∧ d.usermap.lookup uid = some u

/-! ### What a move leaves alone -/

section Frame

variable {p : People}

/-- Looking for a delegate changes nothing else. -/
theorem delegate_eq (p : People) (uid : ℕ) :
    p.delegate uid = { p with androidid := (p.delegate uid).androidid } := by
  unfold People.delegate
  split <;> rfl

/-- **A move changes one user object.** -/
theorem Move.objs_apply (m : Move) (p : People) :
    (m.apply p).objs = Function.update p.objs (m.change p).1 (m.change p).2 := by
  cases m with
  | stay => exact (Function.update_eq_self _ _).symm
  | afk uid u =>
      rw [Move.apply, delegate_eq]
      rfl
  | _ => rfl

theorem Move.objs_change (m : Move) (p : People) :
    (m.apply p).objs (m.change p).1 = (m.change p).2 := by
  rw [m.objs_apply, Function.update_self]

theorem Move.objs_ne (m : Move) (p : People) {u : Ref} (h : u ≠ (m.change p).1) :
    (m.apply p).objs u = p.objs u := by
  rw [m.objs_apply, Function.update_of_ne h]

end Frame

/-! ### The moves of the desk -/

section Moves

variable {d d' : Desk}

/-- Changing a user object. -/
theorem people_setUser (d : Desk) (u : Ref) {f g : User → User}
    (h : ∀ x, (f x).person = g x.person) : (d.setUser u f).people = d.people.setUser u g := by
  have hobjs : (fun v => ((d.setUser u f).objs v).person)
      = Function.update (fun v => (d.objs v).person) u (g (d.objs u).person) := by
    funext v
    by_cases hv : v = u
    · subst hv
      rw [Function.update_self, ← h]
      simp [Desk.setUser]
    · rw [Function.update_of_ne hv]
      simp [Desk.setUser, Function.update_of_ne hv]
  exact congrArg (fun o => { d.people with objs := o }) hobjs

theorem setUser_same (p : People) (u : Ref) {f : User → User} (h : f (p.objs u) = p.objs u) :
    p.setUser u f = p := by
  unfold People.setUser
  rw [h, Function.update_eq_self]

/-- Changing a user object in what nobody sees. -/
theorem people_hidden (d : Desk) (u : Ref) {f : User → User} (h : ∀ x, (f x).person = x.person) :
    (d.setUser u f).people = d.people :=
  (people_setUser d u (g := id) h).trans (setUser_same _ _ rfl)

theorem people_executed (d : Desk) (inp : Inp) (pc : Pc) :
    (executed d inp pc).people = d.people := by
  unfold executed
  split <;> rfl

theorem people_drop (d : Desk) (u : Ref) : (drop d u).people = Move.apply d.people (.drop u) :=
  people_setUser { d with
    usermap := d.usermap.erase (d.objs u).id
    audiences := d.audiences.erase (d.objs u).id } u
    (f := fun x => { x with audience := none }) (g := fun x => { x with audience := none })
      fun _ => rfl

theorem people_unseat (d : Desk) (seat : ℤ) (v : Ref) :
    (unseat d seat v).people = Move.apply d.people (.unseat seat v) :=
  people_setUser { d with
    audiences := d.audiences.insert (d.objs v).id ()
    users := d.users.erase seat
    freeseats := d.freeseats ++ [seat] } v
    (f := fun x => { x with audience := some true, seat := -1 })
    (g := fun x => { x with audience := some true, seat := -1 }) fun _ => rfl

theorem people_assign (d : Desk) (u : Ref) (seat : ℤ) (rest : List ℤ) :
    (assignSeat d u seat rest).people = Move.apply d.people (.assign u seat rest) :=
  people_setUser { d with freeseats := rest, sync := d.sync.add seat true } u
    (f := fun x => { x with game := some 0, seat := seat, audience := some false })
    (g := fun x => { x with seat := seat, audience := some false }) fun _ => rfl

theorem people_joinin (d : Desk) (user : User) :
    (joinin d user).people = Move.apply d.people (.join user.person) := by
  have hobjs : (fun v => ((joinin d user).objs v).person)
      = Function.update (fun v => (d.objs v).person) d.nobj user.person := by
    funext v
    by_cases hv : v = d.nobj
    · subst hv
      simp [joinin]
    · simp [joinin, Function.update_of_ne hv]
  exact congrArg (fun o => { Move.apply d.people (.join user.person) with objs := o }) hobjs

theorem people_ready (d : Desk) (u : Ref) :
    (d.setUser u fun x => { x with ready := true }).people = Move.apply d.people (.ready u) :=
  people_setUser d u (f := fun x => { x with ready := true })
    (g := fun x => { x with ready := true })
    fun _ => rfl

theorem people_afk (d : Desk) (uid : ℕ) (u : Ref) :
    (changeandroidid (d.setUser u fun x => { x with afk := true }) uid).people
      = Move.apply d.people (.afk uid u) := by
  have hset : (d.setUser u fun x => { x with afk := true }).people
      = d.people.setUser u fun x => { x with afk := true } :=
    people_setUser d u (f := fun x => { x with afk := true }) (g := fun x => { x with afk := true })
      fun _ => rfl
  have hchange : ∀ d : Desk, (changeandroidid d uid).people = d.people.delegate uid := by
    intro d
    unfold changeandroidid People.delegate
    change (if d.androidid = none ∨ d.androidid = some uid then _ else d).people =
      if d.androidid = none ∨ d.androidid = some uid then _ else _
    split <;> rfl
  rw [hchange, hset]
  rfl

theorem people_scene (d : Desk) (uid : ℕ) (u : Ref) :
    ({ d.setUser u fun x => { x with source := true, afk := false } with
      androidid := some (d.androidid.getD uid) } : Desk).people =
        Move.apply d.people (.scene uid u) := by
  have hset : (d.setUser u fun x => { x with source := true, afk := false }).people
      = d.people.setUser u fun x => { x with afk := false } :=
    people_setUser d u (f := fun x => { x with source := true, afk := false })
      (g := fun x => { x with afk := false }) fun _ => rfl
  exact congrArg (fun p : People => { p with androidid := some (d.androidid.getD uid) }) hset

theorem people_force (d : Desk) : (force d).people = d.people := by
  rcases force_cases d with h | ⟨g, -, h⟩
  · rw [h]
  · rw [h]
    rfl

theorem people_frame (h : FishFrame d d') : d'.people = d.people := by
  obtain ⟨objs, game, banker, acts, rfl, hobjs, -⟩ := h
  have ho : (fun u => (objs u).person) = fun u => (d.objs u).person := by
    funext u
    obtain ⟨s, hs, -⟩ := hobjs u
    rw [hs]
    rfl
  exact congrArg (fun o => { d.people with objs := o }) ho

end Moves

/-! ### Every piece of work -/

/-- **A piece of work is one of the moves that it may make.** -/
def Moved (d : Desk) (j : Job) (o : Out) : Prop :=
  ∃ m : Move, m.May d j ∧ o.d.people = m.apply d.people ∧ pending o.pcs = m.after

section Moved

variable {d e : Desk} {j : Job} {o : Out}

theorem moved_stay (hj : pending j.pcs = []) (h : o.d.people = d.people) (hp : pending o.pcs = []) :
    Moved d j o := ⟨.stay, hj, h, hp⟩

theorem moved_ret (hj : pending j.pcs = []) (h : e.people = d.people) (r : Ret) :
    Moved d j (.ret e r) := moved_stay hj h rfl

theorem moved_wait (hj : pending j.pcs = []) (h : e.people = d.people) {pc : Pc}
    (hpc : pc.sitting? = none) : Moved d j (.wait e pc) :=
  moved_stay hj h (List.filterMap_cons_none hpc)

/-- A user is dropped. -/
theorem moved_kick (hj : pending j.pcs = []) (h : e.people = d.people) (u : Ref) (k : AfterKick)
    (hK : j.parts d = true ∨ ∃ uid, j = .req (.leave uid) ∧
      d.usermap.lookup uid = some u ∧ (d.objs u).audience ≠ some false) :
    Moved d j (kickUser e u k) :=
  ⟨.drop u, ⟨hj, hK⟩, by rw [← h]; exact people_drop e u, rfl⟩

/-- A seat is given back. -/
theorem moved_unseat (hj : pending j.pcs = []) (h : e.people = d.people) {seat : ℤ} {v : Ref}
    (k : AfterStandup) (hv : e.users.lookup seat = some v) :
    Moved d j (.wait (unseat e seat v) (.standRemove (e.objs v).id k)) := by
  have husers : e.users = d.users := congrArg People.users h
  exact ⟨.unseat seat v, ⟨hj, husers ▸ hv⟩, by rw [← h]; exact people_unseat e seat v, rfl⟩

/-- The ends of standing up and leaving, where somebody may be dropped. -/
theorem Tail.moved {U : Prop} (ht : Tail U e o) (hj : pending j.pcs = []) (h : e.people = d.people)
    (hparts : j.parts d = true) : Moved d j o := by
  cases ht with
  | ret r => exact moved_ret hj h r
  | agent uid => exact moved_wait hj h rfl
  | kick k _ _ => exact moved_kick hj h _ _ (Or.inl hparts)
  | @lost _ u k _ _ =>
      exact moved_kick (e := { e with sync := e.sync.add (e.objs u).seat false }) hj h _ _
        (Or.inl hparts)
  | stand k _ hv _ => exact moved_unseat hj h k hv

/-- A user who stands up for himself. -/
theorem moved_actstandup (hj : pending j.pcs = []) (h : e.people = d.people) (seat : ℤ) :
    Moved d j (actstandup e seat .ret) := by
  unfold actstandup
  split
  · exact moved_ret hj h _
  · split
    · exact moved_ret hj h _
    · exact moved_unseat hj h .ret (by assumption)

theorem moved_freeLoop (hj : pending j.pcs = []) (h : e.people = d.people)
    (hparts : j.parts d = true) (r : Ret) : Moved d j (freeLoop e r) := by
  unfold freeLoop
  split
  · exact moved_wait hj h rfl
  · split
    · exact moved_wait hj h rfl
    · exact moved_kick hj h _ _ (Or.inl hparts)

theorem moved_freeDesk (hj : pending j.pcs = []) (h : e.people = d.people)
    (hparts : j.parts d = true) (r : Ret) : Moved d j (freeDesk e r) :=
  moved_freeLoop (e := e.mark .freeDesk) hj h hparts r

theorem moved_walkOn (hj : pending j.pcs = []) (h : e.people = d.people) (w : Walk) :
    Moved d j (walkOn e w) := by
  obtain ⟨w', pc, hw, -, -, -, ⟨c, rfl⟩ | rfl⟩ := walk_cases e w ((e.tabs w.tab).drop w.i)
  · rw [walkOn, hw]
    exact moved_wait hj h rfl
  · rw [walkOn, hw]
    exact moved_wait hj h rfl

theorem moved_afterBack (hj : pending j.pcs = []) (h : e.people = d.people) {k : AfterBack}
    (hparts : (∀ u, k ≠ .standup u .ret) → j.parts d = true) : Moved d j (afterBack e k) := by
  cases k with
  | standup u k =>
      cases k with
      | ret => exact moved_actstandup hj h _
      | dismissApply v =>
          exact (tail_actstandup (U := True) e _ (.dismissApply v) trivial).moved hj h
            (hparts fun _ => by simp)
  | free r => exact moved_freeDesk hj h (hparts fun _ => by simp) r

/-- A user stands up, or is paid back before. -/
theorem moved_standup (hj : pending j.pcs = []) (h : e.people = d.people) (uid : ℕ)
    {k : AfterStandup} (hparts : k ≠ .ret → j.parts d = true) : Moved d j (standup e uid k) := by
  have stands : ∀ u, (∀ v, AfterBack.standup u k ≠ .standup v .ret) → j.parts d = true := by
    intro u hne
    refine hparts fun hk => hne u ?_
    rw [hk]
  unfold standup
  split
  · exact moved_ret hj h _
  · split
    · cases k with
      | ret => exact moved_ret hj h _
      | dismissApply v =>
          exact (tail_leave (U := True) e _ (.dismissApply v)).moved hj h (hparts (by simp))
    · split
      · exact moved_ret hj h _
      · rename_i u _
        split
        · rcases backRoomcard_cases e (some (e.objs u).id) (.standup u k) with hb | ⟨-, hb⟩
          · rw [hb]
            exact moved_afterBack hj h (stands u)
          · rw [hb]
            exact moved_walkOn hj h _
        · exact moved_afterBack (k := .standup u k) hj h (stands u)

/-- The handler of errors. -/
theorem Failed.moved (hf : Failed e o) (hj : pending j.pcs = []) (h : e.people = d.people)
    (hparts : j.parts d = true) : Moved d j o := by
  cases hf with
  | raise r => exact moved_ret hj h r
  | forced r => exact moved_ret hj ((people_force e).trans h) r
  | gameover scores _ =>
      exact moved_wait (e := (force e).mark .gameover) hj ((people_force e).trans h) rfl
  | free => exact moved_freeDesk hj h hparts _
  | back _ _ => exact moved_walkOn hj h _

theorem moved_sleepOn (hj : pending j.pcs = []) (h : e.people = d.people)
    (hparts : j.parts d = true) (st : St) (pc : Pc) (hpc : pc.sitting? = none) :
    Moved d j (sleepOn e st pc) := by
  rcases sleepOn_cases e st pc with ⟨-, hs⟩ | ⟨-, hs⟩
  · rw [hs]
    exact moved_wait (e := { e with sync := { e.sync with
      waiting := some st, driver := some .timeout } }) hj h hpc
  · rw [hs]
    exact (failed_unhandled e).moved hj h hparts

theorem moved_fish {o : FishOut} (hj : pending j.pcs = []) (h : FishFrame e o.d)
    (he : e.people = d.people) : Moved d j (.fish o) := by
  refine moved_stay hj ?_ ?_
  · rw [d_fish, people_frame h, he]
  · rcases pcs_fish o with hp | ⟨pc, hp⟩
    · rw [hp]
      rfl
    · rw [hp]
      rfl

theorem moved_onTimer (f : Roles → Roles) (hj : pending j.pcs = []) :
    Moved d j (onTimer d f) := by
  unfold onTimer
  split
  · exact moved_ret hj (by rfl) _
  · split
    · exact moved_ret hj (by rfl) _
    · exact moved_ret hj (by rfl) _

/-! ### Commands -/

theorem moved_cliReady {u : Ref} (hj : pending j.pcs = []) (hc : j.command d = some (u, .ready)) :
    Moved d j (cliReady d u) := by
  unfold cliReady
  dsimp only
  split
  · exact moved_ret hj (by rfl) _
  · rename_i ha
    have ready : ∀ {e : Desk}, e.people = (d.setUser u fun x => { x with ready := true }).people →
        ∀ r, Moved d j (.ret e r) := fun he r =>
      ⟨.ready u, ⟨hj, Or.inr ⟨hc, ha⟩⟩, he.trans (people_ready d u), rfl⟩
    split
    · split
      · exact moved_ret hj (by rfl) _
      · split
        · exact moved_ret hj (by rfl) _
        · exact ready (by rfl) _
    · exact ready (by rfl) _

theorem moved_dismissApply (u : Ref) (hj : pending j.pcs = []) (hparts : j.parts d = true) :
    Moved d j (dismissApply d u) := by
  rcases dismissApply_cases d u with ⟨r, h⟩ | ⟨-, -, v, h⟩ | ⟨-, -, h | ⟨-, h⟩⟩ | ⟨-, h⟩
  · rw [h]
    exact moved_ret hj (by rfl) r
  · rw [h]
    exact moved_stay hj rfl rfl
  · rw [h]
    exact moved_freeDesk (e := { d with dismiss := .yes }) hj rfl hparts _
  · rw [h]
    exact moved_walkOn (e := { d with dismiss := .yes }) hj rfl _
  · rw [h]
    exact moved_standup hj rfl _ fun _ => hparts

theorem moved_dismissReply (u : Ref) (agree : Bool) (hj : pending j.pcs = []) :
    Moved d j (dismissReply d u agree) := by
  unfold dismissReply
  dsimp only
  repeat' split
  all_goals exact moved_ret hj (by rfl) _

theorem moved_grabBanker (u : Ref) (grabbed : Bool) (hj : pending j.pcs = []) :
    Moved d j (grabBanker d u grabbed) := by
  unfold grabBanker arriveAt
  split
  · refine moved_ret hj ?_ _
    split
    · exact people_hidden d u (f := fun x => { x with grabbed := true }) fun _ => rfl
    · rfl
  · exact moved_ret hj (by rfl) _

theorem moved_cli (u : Ref) (inp : Inp) (cmd : Cmd) (hj : pending j.pcs = [])
    (hc : j.command d = some (u, cmd)) : Moved d j (cli d u inp cmd) := by
  cases cmd with
  | ready => exact moved_cliReady hj hc
  | grabBanker grabbed => exact moved_grabBanker u grabbed hj
  | gamerun => exact moved_ret hj (by rfl) _
  | dismissApply =>
      refine moved_dismissApply u hj ?_
      unfold Job.parts
      rw [hc]
      exact Bool.or_true _
  | dismissReply agree => exact moved_dismissReply u agree hj
  | userfire kind => exact moved_fish hj (frame_userfire d u kind inp) rfl
  | catchfish req => exact moved_fish hj (frame_catchfish d u req inp) rfl
  | catchsweepfish req => exact moved_fish hj (frame_catchsweepfish d u req inp) rfl

/-! ### Requests and segments -/

theorem moved_join (d : Desk) (uid : ℕ) (android : Bool) (inp : Inp) :
    Moved d (.req (.join uid android)) (join d uid android inp) := by
  unfold join
  split
  · exact moved_ret (by rfl) (by rfl) _
  · split
    · exact moved_ret (by rfl) (by rfl) _
    · rename_i hfull
      split
      · exact moved_ret (by rfl) (by rfl) _
      · rename_i hnew
        split
        · exact moved_ret (by rfl) (by rfl) _
        · dsimp only
          refine ⟨.join { id := uid, android := android, audience := some true
                          master := d.creater == uid },
                          ⟨⟨android, rfl⟩, rfl, rfl, rfl, rfl, rfl, rfl, ?_, ?_⟩,
            people_joinin d _, rfl⟩
          · simpa using hnew
          · omega

theorem moved_sitdown (d : Desk) (uid : ℕ) (withseat : Option ℤ) :
    Moved d (.req (.sitdown uid withseat)) (sitdown d uid withseat) := by
  rcases sitdown_cases d uid withseat with ⟨r, h⟩ | ⟨u, seat, rest, -, hno, hu, ht, h⟩
  · rw [h]
    exact moved_ret rfl rfl r
  · rw [h]
    exact ⟨.assign u seat rest, ⟨uid, withseat, rfl, hno, hu, ht⟩, people_assign d u seat rest, rfl⟩

theorem moved_leave (d : Desk) (uid : ℕ) : Moved d (.req (.leave uid)) (leave d uid .ret) := by
  unfold leave
  split
  · exact moved_ret (by rfl) (by rfl) _
  · split
    · exact moved_ret (by rfl) (by rfl) _
    · rename_i u hu
      split
      · exact moved_ret (by rfl) (by rfl) _
      · rename_i ha
        exact moved_kick rfl rfl u _ (Or.inr ⟨uid, rfl, hu, by simp [ha]⟩)
      · rename_i ha
        exact moved_kick (e := { d with sync := d.sync.add (d.objs u).seat false }) rfl rfl u _
          (Or.inr ⟨uid, rfl, hu, by simp [ha]⟩)

theorem moved_afk (d : Desk) (uid : ℕ) : Moved d (.req (.afk uid)) (afk d uid) := by
  unfold afk
  split
  · exact moved_ret (by rfl) (by rfl) _
  · split
    · exact moved_ret (by rfl) (by rfl) _
    · rename_i u hu
      exact ⟨.afk uid u, ⟨rfl, hu⟩, people_afk d uid u, rfl⟩

theorem moved_sceneinfo (d : Desk) (uid : ℕ) :
    Moved d (.req (.sceneinfo uid)) (sceneinfo d uid) := by
  unfold sceneinfo
  split
  · exact moved_ret (by rfl) (by rfl) _
  · split
    · exact moved_ret (by rfl) (by rfl) _
    · split
      · exact moved_ret (by rfl) (by rfl) _
      · rename_i u hu
        exact ⟨.scene uid u, ⟨rfl, hu⟩, people_scene d uid u, rfl⟩

theorem moved_forceDismiss (d : Desk) : Moved d (.req .forceDismiss) (forceDismiss d) := by
  rcases forceDismiss_cases d with ⟨r, h⟩ | ⟨-, -, ⟨r, h⟩ | h | ⟨-, h⟩⟩
  · rw [h]
    exact moved_ret rfl rfl r
  · rw [h]
    exact moved_ret (e := { d with dimiss := true }) rfl rfl r
  · rw [h]
    exact moved_freeDesk (e := { d with dimiss := true }) rfl rfl rfl _
  · rw [h]
    exact moved_walkOn (e := { d with dimiss := true }) rfl rfl _

theorem moved_direct (d : Desk) (inp : Inp) (r : Req) : Moved d (.req r) (direct d inp r) := by
  cases r with
  | join uid android => exact moved_join d uid android inp
  | sitdown uid withseat => exact moved_sitdown d uid withseat
  | standup uid => exact moved_standup rfl rfl uid fun h => absurd rfl h
  | leave uid => exact moved_leave d uid
  | afk uid => exact moved_afk d uid
  | sceneinfo uid => exact moved_sceneinfo d uid
  | forceDismiss => exact moved_forceDismiss d
  | client uid cmd => exact moved_ret (by rfl) (by rfl) _
  | android u cmd =>
      dsimp only [direct]
      split
      · rename_i hdir
        exact moved_cli u inp cmd rfl (by simp only [Job.command, if_pos hdir])
      · exact moved_ret (by rfl) (by rfl) _
  | buildFish => exact moved_onTimer _ rfl
  | clearTrace => exact moved_onTimer _ rfl

/-- The end of `desk.sitdown`. -/
theorem moved_sitEnd (hj : pending j.pcs = []) (he : e.people = d.people)
    (hst : e.isstart = d.isstart) (u : Ref) : Moved d j (sitEnd e u) := by
  unfold sitEnd
  dsimp only
  split
  · rename_i h
    refine ⟨.ready u, ⟨hj, Or.inl (hst ▸ h)⟩, ?_, rfl⟩
    rw [← he]
    exact people_ready e u
  · exact moved_ret hj he _

/-- A pending seat is taken. -/
theorem moved_sitSeated (he : e.people = d.people) (hst : e.isstart = d.isstart) (u : Ref)
    (seat : ℤ) : Moved d (.seg (.sitAdd u seat)) (sitSeated e u seat) := by
  have hseat : ∀ b : Bool,
    ((seatUser e u seat).people.setUser u fun x => { x with ready := b || x.ready })
      = Move.apply d.people (.sit u seat b) := by
    intro b
    rw [← he]
    rfl
  have hstay : (seatUser e u seat).people = Move.apply d.people (.sit u seat false) :=
    (setUser_same _ _ rfl).symm.trans (hseat false)
  unfold sitSeated
  dsimp only
  split
  · exact ⟨.sit u seat false, ⟨rfl, by simp⟩, hstay, rfl⟩
  · unfold sitEnd
    dsimp only
    split
    · rename_i h
      have h : d.isstart = true := hst ▸ h
      exact ⟨.sit u seat true, ⟨rfl, fun _ => h⟩, (people_ready _ u).trans (hseat true), rfl⟩
    · exact ⟨.sit u seat false, ⟨rfl, by simp⟩, hstay, rfl⟩

theorem people_determinBanker {roll : ℕ} (h : determinBanker d roll = some e) :
    e.people = d.people := by
  simp only [determinBanker, Option.map_eq_some_iff] at h
  obtain ⟨seat, -, rfl⟩ := h
  refine congrArg (fun o => { d.people with objs := o }) ?_
  funext u
  dsimp only
  split <;> rfl

theorem moved_doGame (hj : pending j.pcs = []) (h : e.people = d.people)
    (hparts : j.parts d = true) : Moved d j (doGame e) := by
  unfold doGame gameInit
  dsimp only
  split
  · split
    · exact moved_stay hj h rfl
    · exact moved_stay hj h rfl
  · exact moved_sleepOn (e := { e with count := e.count + 1 }.mark .doGame) hj h hparts
      .banker .banker rfl

theorem moved_gameRun {inp : Inp} (hj : pending j.pcs = []) (h : e.people = d.people)
    (hparts : j.parts d = true) : Moved d j (gameRun e inp) := by
  have failed := (failed_unhandled
    { e with gaming := some true, starttime := some inp.now }).moved hj h hparts
  unfold gameRun
  dsimp only
  split
  · exact failed
  · split
    · exact failed
    · exact moved_stay hj h rfl

theorem moved_gameStop (hj : pending j.pcs = []) (h : e.people = d.people)
    (hparts : j.parts d = true) : Moved d j (gameStop e) := by
  unfold gameStop
  split
  · exact (failed_unhandled e).moved hj h hparts
  · dsimp only
    split
    · exact (failed_unhandled { e with game := _, gaming := some false }).moved hj h hparts
    · exact moved_stay hj h rfl

theorem moved_deskEnd (hj : pending j.pcs = []) (h : e.people = d.people)
    (hparts : j.parts d = true) : Moved d j (deskEnd e) := by
  unfold deskEnd
  dsimp only
  split
  · exact moved_freeDesk (e := { e with isstart := false }) hj h hparts _
  · exact (failed_afterError { e with isstart := false }).moved hj h hparts

theorem moved_voteStart (hj : pending j.pcs = []) (h : e.people = d.people) :
    Moved d j (voteStart e) := by
  unfold voteStart
  split
  · dsimp only
    split
    · exact moved_ret hj h _
    · split
      · exact moved_ret hj h _
      · exact moved_stay hj h rfl
  · exact moved_ret hj h _

theorem moved_voteEnd (hj : pending j.pcs = []) (h : e.people = d.people) (usern : ℕ) :
    Moved d j (voteEnd e usern) := by
  rcases voteEnd_cases e usern with ⟨r, hr⟩ | ⟨v, d', err, r, -, rfl | rfl, hr⟩
  · rw [hr]
    exact moved_ret hj h r
  · rw [hr]
    exact moved_stay hj h rfl
  · rw [hr]
    exact moved_stay hj ((people_force e).trans h) rfl

theorem moved_monitor (he : e.people = d.people) (hs : e.sync = d.sync) :
    Moved d (.seg .monitor) (sleepOn e .ready .ready) := by
  rcases sleepOn_cases e .ready .ready with ⟨-, h⟩ | ⟨hw, h⟩
  · rw [h]
    exact moved_wait (e := { e with sync := { e.sync with
      waiting := some .ready, driver := some .timeout } }) rfl he rfl
  · rw [h]
    have hsome : d.sync.waiting.isSome = true := Option.isSome_iff_ne_none.2 (hs ▸ hw)
    have hparts : (Job.seg .monitor).parts d = true := by
      simp only [Job.parts, hsome, Bool.true_or]
    exact (failed_unhandled e).moved rfl he hparts

/-- The segment of a coroutine that does not begin with a command. -/
theorem moved_segment (he : e.people = d.people) (hst : e.isstart = d.isstart)
    (hs : e.sync = d.sync) (inp : Inp) {pc : Pc} (hpc : (Job.seg pc).command d = none) :
    Moved d (.seg pc) (segment e inp pc) := by
  cases pc with
  | begin u cmd => cases hpc
  | monitor => exact moved_monitor he hs
  | ready => exact moved_doGame (e := { e with sync := e.sync.resumed }) rfl he rfl
  | start => exact moved_wait (e := { e with isstart := true, game := some {} }) rfl he rfl
  | config =>
      exact moved_sleepOn (e := { e with game := e.game.map fun g => { g with roles := some {} } })
        rfl he rfl .banker .banker rfl
  | banker =>
      dsimp only [segment]
      split
      · exact (failed_unhandled { e with sync := e.sync.resumed }).moved rfl he rfl
      · rename_i d' hd'
        exact moved_sleepOn rfl ((people_determinBanker hd').trans he) rfl .gamerun .gamerun rfl
  | gamerun => exact moved_gameRun (e := { e with sync := e.sync.resumed }) rfl he rfl
  | gameend =>
      exact moved_gameStop
        (e := { e with game := e.game.map fun g => { g with sync := g.sync.resumed } }) rfl he rfl
  | result scores => exact moved_deskEnd rfl he rfl
  | resultErr scores => exact (failed_afterError e).moved rfl he rfl
  | voteStart => exact moved_voteStart rfl he
  | vote usern => exact moved_voteEnd rfl he usern
  | joinAdd u =>
      refine moved_wait rfl ?_ rfl
      exact (people_hidden e u (f := fun x => { x with push := true }) fun _ => rfl).trans he
  | joinDb u => exact moved_ret rfl he _
  | sitAdd u seat => exact moved_sitSeated he hst u seat
  | sitUse u =>
      dsimp only [segment]
      split
      · exact moved_wait rfl he rfl
      · exact moved_ret rfl he _
  | sitRecord u =>
      dsimp only [segment]
      split
      · exact moved_stay rfl he rfl
      · exact moved_ret rfl he _
  | sitCost u c => exact moved_sitEnd rfl he hst u
  | backRecord w c => exact moved_wait rfl he rfl
  | backAdd w c => exact moved_wait rfl he rfl
  | backQuery w c =>
      dsimp only [segment]
      split
      · exact moved_wait rfl he rfl
      · exact moved_walkOn rfl he _
  | backPush w c =>
      dsimp only [segment]
      split
      · exact moved_ret rfl he _
      · exact moved_walkOn rfl he _
  | backSave w =>
      refine moved_afterBack (e := replaceCosts e w.costs) rfl he fun hk => ?_
      obtain ⟨tab, userid, i, costs, k⟩ := w
      cases k with
      | standup u k =>
          cases k with
          | ret => exact absurd rfl (hk u)
          | dismissApply v => rfl
      | free r => rfl
  | standRemove uid k =>
      cases k with
      | ret => exact moved_ret rfl he _
      | dismissApply v =>
          exact (tail_afterStandup (U := True) e .ok (.dismissApply v)).moved rfl he rfl
  | kickRemove uid k => exact moved_wait rfl he rfl
  | kickLeave uid k =>
      cases k with
      | leave k =>
          cases k with
          | ret => exact moved_ret rfl he _
          | dismissApply v =>
              dsimp only [segment, afterLeave]
              split
              · exact moved_wait rfl he rfl
              · exact moved_ret rfl he _
      | free r => exact moved_freeLoop rfl he rfl r
  | dismissAgent uid => exact moved_ret rfl he _
  | freeAgent u r => exact moved_kick rfl he u _ (Or.inl rfl)
  | freeDismiss r => exact moved_wait rfl he rfl
  | freeGamedb r => exact moved_wait rfl he rfl
  | freeLobby r =>
      exact moved_ret (e := { e with live := false }.mark .freed)
        (j := .seg (.freeLobby r)) rfl he _
  | fish pc => exact moved_fish rfl (frame_fishSegment _ inp pc) he

/-- **Every piece of work is one of the moves that it may make.** -/
theorem people_job (d : Desk) (inp : Inp) (j : Job) : Moved d j (j.out d inp) := by
  cases j with
  | req r => exact moved_direct d inp r
  | cmd u cmd => exact moved_cli u inp cmd rfl rfl
  | seg pc =>
      cases hc : (Job.seg pc).command d with
      | none =>
          have hkeeps : (executed d inp pc).isstart = d.isstart ∧ (executed d inp pc).sync =
            d.sync := by
            unfold executed
            split <;> exact ⟨rfl, rfl⟩
          exact moved_segment (people_executed d inp pc) hkeeps.1 hkeeps.2 inp hc
      | some x =>
          cases pc with
          | begin u cmd => exact moved_cli u inp cmd rfl rfl
          | _ => cases hc

end Moved

/-! ### The invariant rule -/

/-- The pending seat that a piece of work takes is that of its move. -/
theorem Move.May.pending {d : Desk} {j : Job} {m : Move} (h : m.May d j) :
    pending j.pcs = m.before := by
  cases m with
  | stay => exact h
  | join user =>
      obtain ⟨⟨android, rfl⟩, -⟩ := h
      rfl
  | assign u seat rest =>
      obtain ⟨uid, withseat, rfl, -⟩ := h
      rfl
  | sit u seat b =>
      obtain ⟨rfl, -⟩ := h
      rfl
  | unseat seat v => exact h.1
  | drop u => exact h.1
  | ready u => exact h.1
  | afk uid u =>
      obtain ⟨rfl, -⟩ := h
      rfl
  | scene uid u =>
      obtain ⟨rfl, -⟩ := h
      rfl

/-- **The invariant rule for the people at a desk**: an invariant of the people and of the pending
seats has only to be kept by every move. -/
theorem people_inv {C : Sys → Ev → Prop} {I : People → List (Ref × ℤ) → Prop} {s₀ s : Sys}
    (hperm : ∀ p l l', l.Perm l' → I p l → I p l')
    (h₀ : I s₀.shared.people (pending (pcs s₀)))
    (hmove : ∀ s e j inp (m : Move) rest, C s e → jobOf s e = some (j, inp) →
      (∀ pc ∈ j.pcs, pc ∈ pcs s ∧ pc.enabled s.shared inp = true) → m.May s.shared j →
      I s.shared.people (m.before ++ rest) → I (m.apply s.shared.people) (m.after ++ rest))
    (h : desk.Reach C s₀ s) : I s.shared.people (pending (pcs s)) := by
  refine desk_inv (I := fun d l => I d.people (pending l)) ?_ ?_ ?_ h₀ ?_ h
  · exact fun d l l' hp hI => hperm _ _ _ (hp.filterMap _) hI
  · exact fun d l b q hI => hI
  · exact fun d l u c hI => hI
  · intro s e j inp rest hC hj hp hen hI
    obtain ⟨m, hm, hpeople, hpend⟩ := people_job s.shared inp j
    have hpcs : ∀ pc ∈ j.pcs, pc ∈ pcs s ∧ pc.enabled s.shared inp = true := fun pc hpc =>
      ⟨hp.mem_iff.2 (List.mem_append_left _ hpc), hen pc hpc⟩
    rw [hpeople, pending_append, hpend]
    refine hmove s e j inp m _ hC hj hpcs hm ?_
    rw [← hm.pending, ← pending_append]
    exact hI

end Halieutics
