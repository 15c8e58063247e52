/-
**Diamonds at one desk.**

While a handler of a desk is suspended, the bags, `d.costs` and `gamedb` do not agree: `prop.use`
has taken the diamonds of an entry that is recorded after the next call, `back_roomcard` has paid
entries back that stay in `d.costs` until its end, and an entry is stored one call after it was
recorded.  What is under way is a function of the point of suspension, and with it the books balance
at every point.

Main definitions:

* `Halieutics.Diamonds.taken`, `Halieutics.Diamonds.returned`, `Halieutics.Diamonds.unwritten` —
  **what is under way**;
* `Halieutics.Diamonds.Open`, `Halieutics.Diamonds.Shut` — the books of a desk within a handler, and
  between handlers;
* `Halieutics.Diamonds.Ends` — a desk whose game has ended.

Main results:

* `Halieutics.Diamonds.Books.standup`, `Halieutics.Diamonds.Books.sitdown`,
  `Halieutics.Diamonds.Books.dismissApply`, `Halieutics.Diamonds.Books.forceDismiss`, … — the first
  segments of the handlers;
* `Halieutics.Diamonds.Open.step` — **one segment**, with the call before it;
* `Halieutics.Diamonds.Ends.step` — a segment of `free_desk` after a game, when nothing is paid
  back.
-/

import Halieutics.Diamonds
import Halieutics.DeskWork

set_option relaxedAutoImplicit false
set_option autoImplicit false

namespace Halieutics.Diamonds

open LuaTable

/-! ### Sums over cost entries -/

section Sums

variable (cs cs' : List Cost) (c : Cost) (u : ℕ)

@[simp] theorem owedBy_nil : owedBy [] u = 0 := rfl

theorem owedBy_cons : owedBy (c :: cs) u = (if c.userid = u then c.count else 0) + owedBy cs u := by
  by_cases h : c.userid = u
  · simp [owedBy, h]
  · simp [owedBy, h]

theorem owedBy_append : owedBy (cs ++ cs') u = owedBy cs u + owedBy cs' u := by
  simp [owedBy, List.filter_append]

theorem owedBy_singleton : owedBy [c] u = if c.userid = u then c.count else 0 := by
  rw [owedBy_cons, owedBy_nil, add_zero]

/-- The entries that are paid back, and the others. -/
theorem owedBy_split (p : Cost → Bool) :
    owedBy (cs.filter p) u + owedBy (cs.filter fun c => !p c) u = owedBy cs u := by
  induction cs with
  | nil => rfl
  | cons c cs ih =>
      cases hp : p c with
      | true =>
          rw [List.filter_cons_of_pos hp, List.filter_cons_of_neg (by simp [hp]), owedBy_cons,
            owedBy_cons, ← ih]
          ring
      | false =>
          rw [List.filter_cons_of_neg (by simp [hp]), List.filter_cons_of_pos (by simp [hp]),
            owedBy_cons,
            owedBy_cons, ← ih]
          ring

end Sums

/-! ### What is under way -/

/-- The entries that a walk of `back_roomcard` has paid back, when it has passed `n` entries. -/
def passed (d : Desk) (p : Walk) (n : ℕ) :
    List Cost := (d.costList.take n).filter (selects p.userid)

/-- **Taken out of a bag, and not yet in `d.costs`.** -/
def taken (d : Desk) : Pc → List Cost
  | .sitRecord u => [⟨(d.objs u).id, d.pay.total, 0⟩]
  | _ => []

/-- **Paid back, and still in `d.costs`.** -/
def returned (d : Desk) : Pc → List Cost
  | .backRecord p _ | .backAdd p _ | .backSave p => passed d p p.i
  | .backQuery p _ | .backPush p _ => passed d p (p.i + 1)
  | _ => []

/-- **In `d.costs`, and not yet in `gamedb`.** -/
def unwritten : Pc → Multiset Charge
  | .sitCost _ c => {charge c}
  | _ => 0

/-- `gamedb` has freed the desk. -/
def freed : Pc → Bool
  | .freeLobby _ => true
  | _ => false

/-- A walk over `d.costs` that has passed `n` entries. -/
structure WalkAt (d : Desk) (p : Walk) (n : ℕ) : Prop where
  tab : p.tab = d.costs
  kept : p.costs = (d.costList.take n).filter fun c => !selects p.userid c
  all : ∀ r, p.k = .free r → p.userid = none

/-- What a handler relies on while it is suspended. -/
def Fits (d : Desk) : Pc → Prop
  | .joinAdd _ | .joinDb _ | .sitCost _ _ | .standRemove _ _ | .dismissAgent _ => True
  | .sitAdd u _ | .sitUse u | .sitRecord u => (d.objs u).push = true
  | .backRecord p c | .backAdd p c =>
      WalkAt d p p.i ∧ d.costList[p.i]? = some c ∧ selects p.userid c = true
  | .backQuery p _ | .backPush p _ => WalkAt d p (p.i + 1)
  | .backSave p => WalkAt d p p.i ∧ d.costList.length ≤ p.i
  | .kickRemove _ (.leave _) | .kickLeave _ (.leave _) => True
  | .freeAgent _ _ | .kickRemove _ (.free _) | .kickLeave _ (.free _) | .freeDismiss _ |
    .freeGamedb _
  | .freeLobby _ => d.costList = []
  | _ => False

/-- Everybody at the desk can be told, but for a user who is about to. -/
def Pushed (d : Desk) (joining : Option Ref) : Prop :=
  ∀ uid u, d.usermap.lookup uid = some u → (d.objs u).push = true ∨ joining = some u

/-- The user who joins. -/
def joiner : Pc → Option Ref
  | .joinAdd u => some u
  | _ => none

section Books

variable (k : Codecs) (bags : ℕ → ℤ) (ops : List Op) (id : ℕ) (b : ℕ → ℤ)

/-- **The books of a desk within a handler** that is suspended at `pc`. -/
structure Open (d : Desk) (pc : Pc) : Prop where
  live : d.live = true
  fits : Fits d pc
  pushed : Pushed d (joiner pc)
  level : ∀ u, bags u + owedBy d.costList u + owedBy (taken d pc) u - owedBy (returned d pc) u = b u
  costs : (Gamedb.spec k.records ops id).costs + unwritten pc = ↑(d.costList.map charge)
  opened : (Gamedb.opened k.records id ops).isSome = !freed pc

/-- **The books of a desk between handlers.** -/
structure Shut (d : Desk) : Prop where
  pushed : d.live = true → Pushed d none
  level : ∀ u, bags u + deskOwes d u = b u
  costs : (Gamedb.spec k.records ops id).costs = if d.live then ↑(d.costList.map charge) else 0
  opened : (Gamedb.opened k.records id ops).isSome = d.live

/-- The books of a live desk, while nothing is under way. -/
structure Books (d : Desk) : Prop where
  live : d.live = true
  pushed : Pushed d none
  level : ∀ u, bags u + owedBy d.costList u = b u
  costs : (Gamedb.spec k.records ops id).costs = ↑(d.costList.map charge)
  opened : (Gamedb.opened k.records id ops).isSome = true

/-- The books after a segment. -/
def After (o : Out) : Prop :=
  match o.res with
  | .ret _ => Shut k bags ops id b o.d
  | .wait pc => Open k bags ops id b o.d pc

end Books

section Evenness

variable {d d' d'' : Desk}

theorem Even.refl (d : Desk) :
    Even d d := ⟨rfl, rfl, rfl, rfl, fun _ => rfl, fun _ h => h, fun _ _ h => h⟩

theorem Even.trans (h : Even d d') (h' : Even d' d'') : Even d d'' :=
  ⟨h'.live.trans h.live, h'.costs.trans h.costs, h'.tabs.trans h.tabs, h'.pay.trans h.pay,
    fun u => (h'.id u).trans (h.id u), fun u hu => h'.push u (h.push u hu),
    fun uid u hu => h.usermap uid u (h'.usermap uid u hu)⟩

theorem Even.costList (h : Even d d') : d'.costList = d.costList := by
  rw [Desk.costList, Desk.costList, h.tabs, h.costs]

theorem even_setUser (d : Desk) (u : Ref) {f : User → User} (hid : ∀ x, (f x).id = x.id)
    (hp : ∀ x, x.push = true → (f x).push = true) : Even d (d.setUser u f) := by
  refine ⟨rfl, rfl, rfl, rfl, fun v => id_setUser d u v hid, fun v hv => ?_, fun _ _ h => h⟩
  by_cases h : v = u
  · subst h
    rw [objs_setUser_self]
    exact hp _ hv
  · rw [objs_setUser_ne d f h]
    exact hv

theorem even_executed (d : Desk) (inp : Inp) (pc : Pc) : Even d (executed d inp pc) := by
  unfold executed
  split <;> exact ⟨rfl, rfl, rfl, rfl, fun _ => rfl, fun _ h => h, fun _ _ h => h⟩

theorem even_drop (d : Desk) (u : Ref) : Even d (drop d u) := by
  have h := even_setUser d u (f := fun x => { x with audience := none }) (fun _ => rfl) fun _ h => h
  refine ⟨rfl, rfl, rfl, rfl, h.id, h.push, fun uid v hv => ?_⟩
  have hv : (d.usermap.erase (d.objs u).id).lookup uid = some v := hv
  rw [lookup_erase_eq] at hv
  split at hv
  · cases hv
  · exact hv

theorem even_unseat (d : Desk) (seat : ℤ) (v : Ref) : Even d (unseat d seat v) := by
  have h := even_setUser d v (f := fun x => { x with audience := some true, seat := -1 })
    (fun _ => rfl)
    fun _ h => h
  exact ⟨rfl, rfl, rfl, rfl, h.id, h.push, fun _ _ h => h⟩

theorem even_assignSeat (d : Desk) (u : Ref) (seat : ℤ) (rest : List ℤ) :
    Even d (assignSeat d u seat rest) := by
  have h := even_setUser d u
    (f := fun x => { x with game := some 0, seat := seat, audience := some false }) (fun _ => rfl)
    fun _ h => h
  exact ⟨rfl, rfl, rfl, rfl, h.id, h.push, fun _ _ h => h⟩

theorem even_seatUser (d : Desk) (u : Ref) (seat : ℤ) : Even d (seatUser d u seat) :=
  ⟨rfl, rfl, rfl, rfl, fun _ => rfl, fun _ h => h, fun _ _ h => h⟩

theorem even_sitEnd (d : Desk) (u : Ref) : ∃ d' r, sitEnd d u = .ret d' r ∧ Even d d' := by
  unfold sitEnd
  dsimp only
  split
  · exact ⟨_, _, rfl, even_setUser d u (fun _ => rfl) fun _ h => h⟩
  · exact ⟨_, _, rfl, .refl d⟩

theorem even_afk (d : Desk) (uid : ℕ) : ∃ d' r, afk d uid = .ret d' r ∧ Even d d' := by
  unfold afk
  split
  · exact ⟨_, _, rfl, .refl d⟩
  · split
    · exact ⟨_, _, rfl, .refl d⟩
    · rename_i u hu
      have h := even_setUser d u (f := fun x => { x with afk := true }) (fun _ => rfl) fun _ h => h
      refine ⟨_, _, rfl, h.trans ?_⟩
      unfold changeandroidid
      split <;> exact ⟨rfl, rfl, rfl, rfl, fun _ => rfl, fun _ h => h, fun _ _ h => h⟩

theorem even_sceneinfo (d : Desk) (uid : ℕ) : ∃ d' r, sceneinfo d uid = .ret d' r ∧ Even d d' := by
  unfold sceneinfo
  split
  · exact ⟨_, _, rfl, .refl d⟩
  · split
    · exact ⟨_, _, rfl, .refl d⟩
    · split
      · exact ⟨_, _, rfl, .refl d⟩
      · rename_i u hu
        have h := even_setUser d u (f := fun x => { x with source := true, afk := false })
          (fun _ => rfl)
          fun _ h => h
        exact ⟨_, _, rfl, rfl, rfl, rfl, rfl, h.id, h.push, fun _ _ h => h⟩

end Evenness

/-! ### First segments -/

section First

variable {k : Codecs} {bags b : ℕ → ℤ} {ops : List Op} {id : ℕ} {d e : Desk}

/-- The books stay balanced. -/
theorem Books.even (h : Books k bags ops id b d) (he : Even d e) : Books k bags ops id b e where
  live := he.live.trans h.live
  pushed := fun uid u hu =>
    Or.inl (he.push u ((h.pushed uid u (he.usermap uid u hu)).resolve_right nofun))
  level := by rw [he.costList]; exact h.level
  costs := by rw [he.costList]; exact h.costs
  opened := h.opened

theorem Books.shut (h : Books k bags ops id b d) : Shut k bags ops id b d where
  pushed := fun _ => h.pushed
  level := fun u => by rw [deskOwes, if_pos h.live]; exact h.level u
  costs := by rw [if_pos h.live]; exact h.costs
  opened := h.opened.trans h.live.symm

theorem Shut.books (h : Shut k bags ops id b d) (hl : d.live = true) : Books k bags ops id b d where
  live := hl
  pushed := h.pushed hl
  level := fun u => by
    have hlevel := h.level u
    rw [deskOwes, if_pos hl] at hlevel
    exact hlevel
  costs := by rw [h.costs, if_pos hl]
  opened := h.opened.trans hl

theorem Books.ret (h : Books k bags ops id b d) (r : Ret) :
    After k bags ops id b (.ret d r) := h.shut

/-- A handler is suspended, and nothing is under way. -/
theorem Books.wait (h : Books k bags ops id b d) (pc : Pc) (hfits : Fits d pc)
    (ht : taken d pc = [])
    (hr : returned d pc = []) (hu : unwritten pc = 0) (hf : freed pc = false)
    (hj : joiner pc = none) :
    After k bags ops id b (.wait d pc) where
  live := h.live
  fits := hfits
  pushed := hj ▸ h.pushed
  level := fun u => by
    rw [Out.d_wait, ht, hr, owedBy_nil, add_zero, sub_zero]
    exact h.level u
  costs := by rw [hu, add_zero]; exact h.costs
  opened := by rw [hf]; exact h.opened

/-- The ends of `desk.leave` and `desk.standup`. -/
theorem Books.tail {U : Prop} {o : Out} (h : Books k bags ops id b d) (ht : Tail U d o) :
    After k bags ops id b o := by
  cases ht with
  | ret r => exact h.ret r
  | agent uid => exact h.wait _ trivial rfl rfl rfl rfl rfl
  | @kick uid u k' hu ha =>
      exact (h.even (even_drop d u)).wait (.kickRemove _ (.leave k')) trivial rfl rfl rfl rfl rfl
  | @lost uid u k' hu ha =>
      have hsync : Even d { d with sync := d.sync.add (d.objs u).seat false } :=
        ⟨rfl, rfl, rfl, rfl, fun _ => rfl, fun _ h => h, fun _ _ h => h⟩
      exact (h.even (hsync.trans (even_drop _ u))).wait (.kickRemove _ (.leave k'))
        trivial rfl rfl rfl
        rfl rfl
  | @stand seat v k' hU hv hs =>
      exact (h.even (even_unseat d seat v)).wait (.standRemove _ k') trivial rfl rfl rfl rfl rfl

/-- The loop of `free_desk`, when everything has been paid back. -/
theorem Books.freeLoop (h : Books k bags ops id b d) (hc : d.costList = []) (r : Ret) :
    After k bags ops id b (freeLoop d r) := by
  unfold Halieutics.freeLoop
  split
  · exact h.wait _ hc rfl rfl rfl rfl rfl
  · rename_i u us hu
    split
    · exact h.wait _ hc rfl rfl rfl rfl rfl
    · have he := even_drop d u
      exact (h.even he).wait (.kickRemove _ (.free r)) (he.costList.trans hc) rfl rfl rfl rfl rfl

theorem even_mark (d : Desk) (m : Mark) : Even d (d.mark m) :=
  ⟨rfl, rfl, rfl, rfl, fun _ => rfl, fun _ h => h, fun _ _ h => h⟩

/-- What follows `back_roomcard`. -/
theorem Books.afterBack (h : Books k bags ops id b d) {a : AfterBack}
    (hc : ∀ r, a = .free r → d.costList = []) :
    After k bags ops id b (afterBack d a) := by
  cases a with
  | standup u k' => exact h.tail (tail_actstandup (U := True) d _ k' trivial)
  | free r => exact (h.even (even_mark d .freeDesk)).freeLoop (hc r rfl) r

/-- A walk that has passed its first `p.i` entries goes on. -/
theorem after_walkOn {p : Walk} (hlive : d.live = true) (hpushed : Pushed d none)
    (hlevel : ∀ u, bags u + owedBy d.costList u - owedBy (passed d p p.i) u = b u)
    (hcosts : (Gamedb.spec k.records ops id).costs = ↑(d.costList.map charge))
    (hopened : (Gamedb.opened k.records id ops).isSome = true) (hwalk : WalkAt d p p.i) :
    After k bags ops id b (walkOn d p) := by
  have key : ∀ (cs : List Cost) (p : Walk),
      (∀ u, bags u + owedBy d.costList u - owedBy (passed d p p.i) u = b u) → WalkAt d p p.i →
      d.costList.drop p.i = cs → After k bags ops id b (walk d p cs) := by
    intro cs
    induction cs with
    | nil =>
        intro p hlevel hwalk hcs
        refine ⟨hlive, ⟨hwalk, List.drop_eq_nil_iff.1 hcs⟩, hpushed, fun u => ?_, ?_, hopened⟩
        · exact (congrArg (· - owedBy (passed d p p.i) u) (add_zero _)).trans (hlevel u)
        · exact (add_zero _).trans hcosts
    | cons c cs ih =>
        intro p hlevel hwalk hcs
        have hc : d.costList[p.i]? = some c := by
          have hhead := congrArg List.head? hcs
          simpa [List.head?_drop] using hhead
        have htake : d.costList.take (p.i + 1) = d.costList.take p.i ++ [c] := by
          rw [List.take_add_one, hc]
          rfl
        unfold walk
        split
        · rename_i hsel
          refine ⟨hlive, ⟨hwalk, hc, hsel⟩, hpushed, fun u => ?_, ?_, hopened⟩
          · exact (congrArg (· - owedBy (passed d p p.i) u) (add_zero _)).trans (hlevel u)
          · exact (add_zero _).trans hcosts
        · rename_i hsel
          -- the entry is kept
          have hpassed : passed d { p with i := p.i + 1, costs := p.costs ++ [c] } (p.i + 1) =
              passed d p p.i := by
            rw [passed, passed, htake, List.filter_append, List.filter_cons_of_neg hsel,
              List.filter_nil,
              List.append_nil]
          refine ih _ (fun u => ?_) ⟨hwalk.tab, ?_, hwalk.all⟩ ?_
          · rw [hpassed]
            exact hlevel u
          · change p.costs ++ [c] = _
            rw [htake, List.filter_append, hwalk.kept,
              List.filter_cons_of_pos (by simpa using hsel),
              List.filter_nil]
          · have htail := congrArg List.tail hcs
            simpa [List.tail_drop] using htail
  have htab : (d.tabs p.tab).drop p.i = d.costList.drop p.i := by
    rw [hwalk.tab]
    rfl
  rw [walkOn, htab]
  exact key _ p hlevel hwalk rfl

/-- **`back_roomcard`** begins. -/
theorem Books.startWalk (h : Books k bags ops id b d) {userid : Option ℕ} {a : AfterBack}
    (hall : ∀ r, a = .free r → userid = none) : After k bags ops id b (startWalk d userid a) := by
  refine after_walkOn h.live h.pushed (fun u => ?_) h.costs h.opened ⟨rfl, rfl, hall⟩
  exact (sub_zero _).trans (h.level u)

/-- **`desk.standup`**. -/
theorem Books.standup (h : Books k bags ops id b d) (uid : ℕ) (a : AfterStandup) :
    After k bags ops id b (standup d uid a) := by
  rcases standup_cases d uid a with ht | ⟨-, -, u, -, hout⟩
  · exact h.tail ht
  · rw [hout]
    exact h.startWalk nofun

/-- **`desk.force_dismiss`**. -/
theorem Books.forceDismiss (h : Books k bags ops id b d) :
    After k bags ops id b (forceDismiss d) := by
  have he : Even d { d with dimiss := true } :=
    ⟨rfl, rfl, rfl, rfl, fun _ => rfl, fun _ h => h, fun _ _ h => h⟩
  unfold Halieutics.forceDismiss
  split
  · exact h.ret _
  · split
    · exact h.ret _
    · dsimp only
      split
      · exact (h.even he).ret _
      · unfold backRoomcard
        split
        · rename_i hc
          exact (h.even he).afterBack fun _ _ => hc
        · exact (h.even he).startWalk fun _ _ => rfl

/-- **`cli:dismiss_apply`**. -/
theorem Books.dismissApply (h : Books k bags ops id b d) (u : Ref) :
    After k bags ops id b (dismissApply d u) := by
  unfold Halieutics.dismissApply
  split
  · split
    · exact (h.even (e := { d with dismiss := .vote { applyer := (d.objs u).seat } })
        ⟨rfl, rfl, rfl, rfl, fun _ => rfl, fun _ h => h, fun _ _ h => h⟩).shut
    · split
      · have he : Even d { d with dismiss := .yes } :=
          ⟨rfl, rfl, rfl, rfl, fun _ => rfl, fun _ h => h, fun _ _ h => h⟩
        unfold backRoomcard
        split
        · rename_i hc
          exact (h.even he).afterBack fun _ _ => hc
        · exact (h.even he).startWalk fun _ _ => rfl
      · exact h.standup _ _
  · exact h.ret _

/-- **`desk.sitdown`**. -/
theorem Books.sitdown (h : Books k bags ops id b d) (uid : ℕ) (withseat : Option ℤ) :
    After k bags ops id b (sitdown d uid withseat) := by
  rcases sitdown_cases d uid withseat with ⟨r, hout⟩ | ⟨u, seat, rest, -, -, hu, -, hout⟩
  · rw [hout]
    exact h.ret r
  · rw [hout]
    have he := even_assignSeat d u seat rest
    have hpush := (h.pushed uid u hu).resolve_right nofun
    exact (h.even he).wait (.sitAdd u seat) (he.push u hpush) rfl rfl rfl rfl rfl

/-- **`desk.join`**. -/
theorem Books.join (h : Books k bags ops id b d) (uid : ℕ) (inp : Inp) :
    After k bags ops id b (join d uid false inp) := by
  rcases join_cases d uid false inp with ⟨r, hout⟩ | ⟨user, hid, -, -, -, hout⟩
  · rw [hout]
    exact h.ret r
  · rw [hout]
    refine ⟨h.live, trivial, fun uid' u hu => ?_, fun u => ?_, ?_, h.opened⟩
    · have hu : (d.usermap.insert user.id d.nobj).lookup uid' = some u := hu
      rw [lookup_insert_eq] at hu
      by_cases hnew : u = d.nobj
      · exact Or.inr (congrArg some hnew.symm)
      · split at hu
        · exact absurd (Option.some_inj.1 hu).symm hnew
        · refine Or.inl ?_
          change (Function.update d.objs d.nobj user u).push = true
          rw [Function.update_of_ne hnew]
          exact (h.pushed uid' u hu).resolve_right nofun
    · exact (sub_zero _).trans ((add_zero _).trans (h.level u))
    · exact (add_zero _).trans h.costs

/-- **`desk.leave`**. -/
theorem Books.leave (h : Books k bags ops id b d) (uid : ℕ) :
    After k bags ops id b (leave d uid .ret) :=
  h.tail (tail_leave (U := True) d uid .ret)

end First

/-! ### One segment -/

section Segments

variable {k : Codecs} {bags b : ℕ → ℤ} {ops : List Op} {id : ℕ} {d e : Desk} {pc : Pc}

/-- What the operations on `gamedb` leave alone. -/
theorem Books.stored {ops' : List Op} (h : Books k bags ops id b d)
    (hc : (Gamedb.spec k.records ops' id).costs = (Gamedb.spec k.records ops id).costs)
    (ho : Gamedb.opened k.records id ops' = Gamedb.opened k.records id ops) :
    Books k bags ops' id b d :=
  ⟨h.live, h.pushed, h.level, hc.trans h.costs, by rw [ho]; exact h.opened⟩

/-- A user enters or leaves `gamedb`. -/
theorem Books.user (h : Books k bags ops id b d) (uid : ℕ) :
    Books k bags (ops ++ [.addUser id uid]) id b d ∧
    Books k bags (ops ++ [.removeUser id uid]) id b d := by
  refine ⟨h.stored ?_ ?_, h.stored ?_ ?_⟩
  all_goals
    simp [Gamedb.Op.spec, Gamedb.Op.opened]

/-- Nothing is under way at this point. -/
theorem Open.books (h : Open k bags ops id b d pc) (ht : taken d pc = []) (hr : returned d pc = [])
    (hu : unwritten pc = 0) (hf : freed pc = false) (hj : joiner pc = none) :
    Books k bags ops id b d where
  live := h.live
  pushed := hj ▸ h.pushed
  level := fun u => by
    have hlevel := h.level u
    rw [ht, hr, owedBy_nil, add_zero, sub_zero] at hlevel
    exact hlevel
  costs := by
    have hcosts := h.costs
    rw [hu, add_zero] at hcosts
    exact hcosts
  opened := by rw [h.opened, hf]; rfl

/-- The end of `desk.sitdown`. -/
theorem Books.sitEnd (h : Books k bags ops id b d) (u : Ref) :
    After k bags ops id b (sitEnd d u) := by
  obtain ⟨d', r, hout, he⟩ := even_sitEnd d u
  rw [hout]
  exact (h.even he).ret r

/-- The user sits, and may have to pay. -/
theorem Books.sitSeated (h : Books k bags ops id b d) {u : Ref} (hu : (d.objs u).push = true)
    (seat : ℤ) :
    After k bags ops id b (sitSeated d u seat) := by
  have hseat := h.even (even_seatUser d u seat)
  unfold Halieutics.sitSeated
  dsimp only
  split
  · exact hseat.wait (.sitUse u) hu rfl rfl rfl rfl rfl
  · exact hseat.sitEnd u

/-- **`prop.use`** takes the price, or nothing. -/
theorem Books.sitUse (h : Books k bags ops id b d) {u : Ref} (hu : (d.objs u).push = true)
    (inp : Inp) :
    After k (bagged bags (.useProp (d.objs u).id d.pay.total (told bags d inp (.sitUse u)).ret)) ops
    id b
      (Job.out d (told bags d inp (.sitUse u)) (.seg (.sitUse u))) := by
  set inp' := told bags d inp (.sitUse u) with hinp
  have hret : inp'.ret = bags (d.objs u).id - d.pay.total := rfl
  have he := even_executed d inp' (.sitUse u)
  have hbooks := h.even he
  have hbag : bagged bags (.useProp (d.objs u).id d.pay.total inp'.ret) =
    Function.update bags (d.objs u).id
      (if 0 ≤ inp'.ret then inp'.ret else bags (d.objs u).id) := rfl
  rw [Job.out, segment, hbag]
  by_cases hleft : 0 ≤ inp'.ret
  · rw [if_pos hleft, if_pos hleft, hret]
    refine ⟨hbooks.live, he.push u hu, hbooks.pushed, fun v => ?_, ?_, hbooks.opened⟩
    · have hlevel := hbooks.level v
      change Function.update bags (d.objs u).id (bags (d.objs u).id - d.pay.total) v +
        owedBy (executed d inp' (.sitUse u)).costList v +
        owedBy
        [⟨((executed d inp' (.sitUse u)).objs u).id, (executed d inp' (.sitUse u)).pay.total, 0⟩]
        v -
        owedBy [] v = b v
      rw [owedBy_nil, sub_zero, owedBy_singleton, he.id, he.pay]
      by_cases hv : (d.objs u).id = v
      · subst hv
        rw [Function.update_self, if_pos rfl]
        linarith
      · rw [Function.update_of_ne (Ne.symm hv), if_neg hv]
        linarith
    · exact (add_zero _).trans hbooks.costs
  · rw [if_neg hleft, if_neg hleft, Function.update_eq_self]
    exact hbooks.ret _

/-- The price is recorded. -/
theorem Open.sitRecord {u : Ref} (h : Open k bags ops id b d (.sitRecord u)) (inp : Inp) :
    After k bags ops id b (Job.out d inp (.seg (.sitRecord u))) := by
  have he := even_executed d inp (.sitRecord u)
  have hpush := he.push u h.fits
  rw [Job.out, segment, if_pos hpush, deskCostBackup]
  set e := executed d inp (.sitRecord u) with hexec
  set c : Cost := ⟨(e.objs u).id, e.pay.total, e.ncost⟩ with hc
  have hlist : (addCost e c).costList = e.costList ++ [c] := by
    simp [addCost, Desk.costList, Desk.mark]
  refine ⟨he.live.trans h.live, trivial, fun uid v hv => ?_, fun v => ?_, ?_, h.opened⟩
  · exact Or.inl (he.push v ((h.pushed uid v (he.usermap uid v hv)).resolve_right (by rintro ⟨⟩)))
  · have hlevel : bags v + owedBy d.costList v + owedBy [⟨(d.objs u).id, d.pay.total, 0⟩] v - owedBy
      [] v = b v :=
      h.level v
    change bags v + owedBy (addCost e c).costList v + owedBy [] v - owedBy [] v = b v
    rw [owedBy_nil, sub_zero, owedBy_singleton] at hlevel
    rw [hlist, owedBy_append, he.costList, owedBy_singleton, owedBy_nil]
    have hcid : c.userid = (d.objs u).id := he.id u
    have hcount : c.count = d.pay.total := congrArg Pay.total he.pay
    rw [hcid, hcount]
    linarith
  · have hcosts := (add_zero _).symm.trans h.costs
    rw [Out.d_wait, hlist, List.map_append, he.costList, hcosts]
    rfl

/-- And stored. -/
theorem Open.sitCost {u : Ref} {c : Cost} (h : Open k bags ops id b d (.sitCost u c)) (inp : Inp) :
    After k bags (ops ++ [.addCost id (charge c)]) id b (Job.out d inp (.seg (.sitCost u c))) := by
  have hbooks : Books k bags (ops ++ [.addCost id (charge c)]) id b d := by
    refine ⟨h.live, h.pushed, fun v => ?_, ?_, ?_⟩
    · have hlevel : bags v + owedBy d.costList v + owedBy [] v - owedBy [] v = b v := h.level v
      rw [owedBy_nil, add_zero, sub_zero] at hlevel
      exact hlevel
    · have hcosts : {charge c} + (Gamedb.spec k.records ops id).costs = ↑(d.costList.map charge) :=
        (add_comm _ _).trans h.costs
      simpa [Gamedb.Op.spec] using hcosts
    · have hopened : (Gamedb.opened k.records id ops).isSome = true := h.opened
      simpa [Gamedb.Op.opened] using hopened
  exact (hbooks.even (even_executed d inp (.sitCost u c))).sitEnd u

/-- A walk, as far as `gamedb` and the desk are concerned. -/
theorem Open.walking (h : Open k bags ops id b d pc) (ht : taken d pc = []) (hu : unwritten pc = 0)
    (hf : freed pc = false) (hj : joiner pc = none) : d.live = true ∧ Pushed d none ∧
      (∀ u, bags u + owedBy d.costList u - owedBy (returned d pc) u = b u) ∧
      (Gamedb.spec k.records ops id).costs = ↑(d.costList.map charge) ∧
      (Gamedb.opened k.records id ops).isSome = true := by
  refine ⟨h.live, hj ▸ h.pushed, fun u => ?_, ?_, by rw [h.opened, hf]; rfl⟩
  · have hlevel := h.level u
    rw [ht, owedBy_nil, add_zero] at hlevel
    exact hlevel
  · have hcosts := h.costs
    rw [hu, add_zero] at hcosts
    exact hcosts

/-- A walk stays a walk when no diamonds are moved. -/
theorem WalkAt.even {p : Walk} {n : ℕ} (h : WalkAt d p n) (he : Even d e) : WalkAt e p n :=
  ⟨h.tab.trans he.costs.symm, by rw [he.costList]; exact h.kept, h.all⟩

theorem passed_even (he : Even d e) (p : Walk) (n : ℕ) : passed e p n = passed d p n := by
  rw [passed, passed, he.costList]

theorem Pushed.even (h : Pushed d none) (he : Even d e) : Pushed e none := fun uid u hu =>
  Or.inl (he.push u ((h uid u (he.usermap uid u hu)).resolve_right nofun))

/-- The entry at the index of a walk is paid back. -/
theorem Open.backAdd {p : Walk} {c : Cost} (h : Open k bags ops id b d (.backAdd p c)) (inp : Inp) :
    After k (bagged bags (.addProp c)) ops id b (Job.out d inp (.seg (.backAdd p c))) := by
  obtain ⟨hwalk, hc, hsel⟩ := h.fits
  obtain ⟨hlive, hpushed, hlevel, hcosts, hopened⟩ := h.walking rfl rfl rfl rfl
  have he := even_executed d inp (.backAdd p c)
  have htake : d.costList.take (p.i + 1) = d.costList.take p.i ++ [c] := by
    rw [List.take_add_one, hc]
    rfl
  have hpassed : passed d p (p.i + 1) = passed d p p.i ++ [c] := by
    rw [passed, passed, htake, List.filter_append, List.filter_cons_of_pos hsel, List.filter_nil]
  refine ⟨he.live.trans hlive, ⟨hwalk.tab.trans he.costs.symm, ?_, hwalk.all⟩, hpushed.even he,
    fun v => ?_, ?_,
    hopened⟩
  · change p.costs = ((executed d inp (.backAdd p c)).costList.take (p.i + 1)).filter _
    rw [he.costList, htake, List.filter_append, ← hwalk.kept,
      List.filter_cons_of_neg (by simp [hsel]),
      List.filter_nil, List.append_nil]
  · have hv : bags v + owedBy d.costList v - owedBy (passed d p p.i) v = b v := hlevel v
    change Function.update bags c.userid (bags c.userid + c.count) v +
      owedBy (executed d inp (.backAdd p c)).costList v + owedBy [] v -
      owedBy (passed (executed d inp (.backAdd p c)) p (p.i + 1)) v = b v
    rw [passed_even he, he.costList, owedBy_nil, hpassed, owedBy_append, owedBy_singleton]
    by_cases hu : c.userid = v
    · subst hu
      rw [Function.update_self, if_pos rfl]
      linarith
    · rw [Function.update_of_ne (Ne.symm hu), if_neg hu]
      linarith
  · refine (add_zero _).trans (hcosts.trans ?_)
    rw [← he.costList]
    rfl

/-- The walk goes on behind it. -/
theorem Open.walkOn {p : Walk} (h : Open k bags ops id b d pc) (ht : taken d pc = [])
    (hu : unwritten pc = 0)
    (hf : freed pc = false) (hj : joiner pc = none) (hr : returned d pc = passed d p (p.i + 1))
    (hwalk : WalkAt d p (p.i + 1)) (he : Even d e) :
    After k bags ops id b (walkOn e { p with i := p.i + 1 }) := by
  obtain ⟨hlive, hpushed, hlevel, hcosts, hopened⟩ := h.walking ht hu hf hj
  refine after_walkOn (he.live.trans hlive) (hpushed.even he) (fun v => ?_) ?_ hopened
    ⟨hwalk.tab.trans he.costs.symm, ?_, hwalk.all⟩
  · have hv := hlevel v
    rw [hr] at hv
    rw [he.costList, passed_even he]
    exact hv
  · rw [he.costList]
    exact hcosts
  · rw [he.costList]
    exact hwalk.kept

/-- **The new list takes the place of `d.costs`**, and of the stored list. -/
theorem Open.backSave {p : Walk} (h : Open k bags ops id b d (.backSave p)) (inp : Inp) :
    After k bags (ops ++ [.saveCosts id (p.costs.map charge)]) id b
    (Job.out d inp (.seg (.backSave p))) := by
  obtain ⟨hwalk, hlen⟩ := h.fits
  obtain ⟨hlive, hpushed, hlevel, -, hopened⟩ := h.walking rfl rfl rfl rfl
  have he := even_executed d inp (.backSave p)
  have htake : d.costList.take p.i = d.costList := List.take_of_length_le hlen
  have hkept : p.costs = d.costList.filter fun c => !selects p.userid c := by rw [hwalk.kept, htake]
  have hlist : (replaceCosts (executed d inp (.backSave p)) p.costs).costList = p.costs :=
    Function.update_self _ _ _
  have hpushed' : Pushed (executed d inp (.backSave p)) none := hpushed.even he
  have hbooks : Books k bags (ops ++ [.saveCosts id (p.costs.map charge)]) id b
      (replaceCosts (executed d inp (.backSave p)) p.costs) := by
    refine ⟨he.live.trans hlive, hpushed', fun v => ?_, ?_, ?_⟩
    · have hv : bags v + owedBy d.costList v - owedBy (passed d p p.i) v = b v := hlevel v
      have hsplit := owedBy_split d.costList v (selects p.userid)
      rw [passed, htake] at hv
      rw [hlist, hkept]
      linarith
    · rw [hlist]
      simp [Gamedb.Op.spec]
    · simpa [Gamedb.Op.opened] using hopened
  refine hbooks.afterBack fun r hr => ?_
  rw [hlist, hkept, hwalk.all r hr]
  simp [selects]

/-- A walk is about to pay an entry back. -/
theorem Open.backRecord {p : Walk} {c : Cost} (h : Open k bags ops id b d (.backRecord p c))
    (inp : Inp) :
    After k bags ops id b (Job.out d inp (.seg (.backRecord p c))) := by
  obtain ⟨hwalk, hc, hsel⟩ := h.fits
  have he := even_executed d inp (.backRecord p c)
  refine ⟨he.live.trans h.live, ⟨hwalk.even he, ?_, hsel⟩, Pushed.even h.pushed he, fun v => ?_,
    ?_, h.opened⟩
  · rw [← hc, ← he.costList]
    rfl
  · refine Eq.trans ?_ (h.level v)
    change bags v + owedBy (executed d inp (.backRecord p c)).costList v + owedBy [] v -
      owedBy (passed (executed d inp (.backRecord p c)) p p.i) v = _
    rw [passed_even he, he.costList]
    rfl
  · refine h.costs.trans ?_
    rw [← he.costList]
    rfl

/-- His agent is told, if there is one. -/
theorem Open.backQuery {p : Walk} {c : Cost} (h : Open k bags ops id b d (.backQuery p c))
    (inp : Inp) :
    After k bags ops id b (Job.out d inp (.seg (.backQuery p c))) := by
  have he := even_executed d inp (.backQuery p c)
  rw [Job.out, segment]
  split
  · refine ⟨he.live.trans h.live, WalkAt.even h.fits he, Pushed.even h.pushed he, fun v => ?_,
      ?_, h.opened⟩
    · refine Eq.trans ?_ (h.level v)
      change bags v + owedBy (executed d inp (.backQuery p c)).costList v + owedBy [] v -
        owedBy (passed (executed d inp (.backQuery p c)) p (p.i + 1)) v = _
      rw [passed_even he, he.costList]
      rfl
    · refine h.costs.trans ?_
      rw [← he.costList]
      rfl
  · exact h.walkOn rfl rfl rfl rfl rfl h.fits he

/-- `gamedb` has dropped a user. -/
theorem Open.kickRemove {uid : ℕ} {a : AfterKick} (h : Open k bags ops id b d (.kickRemove uid a))
    (inp : Inp) :
    After k bags (ops ++ [.removeUser id uid]) id b (Job.out d inp (.seg (.kickRemove uid a))) := by
  have he := even_executed d inp (.kickRemove uid a)
  have hbooks := ((h.books rfl rfl rfl rfl rfl).user uid).2.even he
  refine hbooks.wait (.kickLeave uid a) ?_ rfl rfl rfl rfl rfl
  have hfits := h.fits
  cases a with
  | leave a => trivial
  | free r => exact he.costList.trans hfits

/-- And so has the user store. -/
theorem Open.kickLeave {uid : ℕ} {a : AfterKick} (h : Open k bags ops id b d (.kickLeave uid a))
    (inp : Inp) :
    After k bags ops id b (Job.out d inp (.seg (.kickLeave uid a))) := by
  have he := even_executed d inp (.kickLeave uid a)
  have hbooks := (h.books rfl rfl rfl rfl rfl).even he
  have hfits := h.fits
  cases a with
  | leave a => exact hbooks.tail (tail_afterLeave (U := True) _ _ a)
  | free r => exact hbooks.freeLoop (he.costList.trans hfits) r

/-- **`gamedb` frees the desk.** -/
theorem Open.freeGamedb {r : Ret} (h : Open k bags ops id b d (.freeGamedb r)) (inp : Inp) :
    After k bags (ops ++ [.freeDesk id]) id b (Job.out d inp (.seg (.freeGamedb r))) := by
  have he := even_executed d inp (.freeGamedb r)
  have hnil : (executed d inp (.freeGamedb r)).costList = [] := he.costList.trans h.fits
  refine ⟨he.live.trans h.live, hnil, Pushed.even h.pushed he, fun v => ?_, ?_, ?_⟩
  · refine Eq.trans ?_ (h.level v)
    change bags v + owedBy (executed d inp (.freeGamedb r)).costList v + owedBy
      [] v - owedBy [] v = _
    rw [he.costList]
    rfl
  · refine (add_zero _).trans ?_
    change _ = ((executed d inp (.freeGamedb r)).costList.map charge : Multiset Charge)
    rw [hnil]
    simp [Gamedb.Op.spec]
  · simp [Gamedb.Op.opened, freed]

/-- **The desk service drops the desk.** -/
theorem Open.freeLobby {r : Ret} (h : Open k bags ops id b d (.freeLobby r)) (inp : Inp) :
    After k bags ops id b (Job.out d inp (.seg (.freeLobby r))) := by
  have hnil : d.costList = [] := h.fits
  refine ⟨nofun, fun v => ?_, ?_, h.opened⟩
  · have hlevel : bags v + owedBy d.costList v + owedBy [] v - owedBy [] v = b v := h.level v
    rw [hnil, owedBy_nil, add_zero, add_zero, sub_zero] at hlevel
    exact (add_zero _).trans hlevel
  · have hcosts := (add_zero _).symm.trans h.costs
    rw [hnil] at hcosts
    exact hcosts

theorem After.silent {o : Out} (h : After k bags ops id b o) : After k bags (ops ++ []) id b o := by
  rw [List.append_nil]
  exact h

/-- **One segment**, with the call before it, which does not raise: the books stay balanced. -/
theorem Open.step (h : Open k bags ops id b d pc) {inp : Inp} (hreturns : inp.raises = false) :
    After k ((pc.rpc d (told bags d inp pc)).elim bags (bagged bags))
      (ops ++ (pc.rpc d (told bags d inp pc)).elim [] (gamedb id)) id b
      (Job.out d (told bags d inp pc) (.seg pc)) := by
  have hfits := h.fits
  have he : ∀ inp, Even d (executed d inp pc) := fun inp => even_executed d inp pc
  cases pc with
  | joinAdd u =>
      -- `joinin` has set `user.push`
      have hset := even_setUser (executed d inp (.joinAdd u)) u
        (f := fun x => { x with push := true })
        (fun _ => rfl) fun _ _ => rfl
      have hbooks : Books k bags ops id b
        ((executed d inp (.joinAdd u)).setUser u fun x => { x with push := true }) := by
        refine ⟨h.live, fun uid v hv => Or.inl ?_, fun v => ?_, ?_, h.opened⟩
        · by_cases hvu : v = u
          · subst hvu
            rw [objs_setUser_self]
          · refine hset.push v ((he inp).push v ?_)
            refine (h.pushed uid v ((he inp).usermap uid v (hset.usermap uid v hv))).resolve_right
              fun hj => ?_
            exact hvu (Option.some_inj.1 hj).symm
        · have hlevel : bags v + owedBy d.costList v + owedBy [] v - owedBy [] v = b v := h.level v
          rw [owedBy_nil, add_zero, sub_zero] at hlevel
          rw [hset.costList, (he inp).costList]
          exact hlevel
        · rw [hset.costList, (he inp).costList]
          exact (add_zero _).symm.trans h.costs
      exact (hbooks.user (d.objs u).id).1.wait (.joinDb u) trivial rfl rfl rfl rfl rfl
  | joinDb u => exact (((h.books rfl rfl rfl rfl rfl).even (he inp)).ret _).silent
  | sitAdd u seat =>
      have hbooks := ((h.books rfl rfl rfl rfl rfl).user (d.objs u).id).1
      exact (hbooks.even (he inp)).sitSeated ((he inp).push u hfits) seat
  | sitUse u => exact ((h.books rfl rfl rfl rfl rfl).sitUse hfits inp).silent
  | sitRecord u => exact (h.sitRecord inp).silent
  | sitCost u c => exact h.sitCost inp
  | backRecord p c => exact (h.backRecord inp).silent
  | backAdd p c => exact (h.backAdd inp).silent
  | backQuery p c => exact (h.backQuery inp).silent
  | backPush p c =>
      dsimp only [told, Job.out, segment]
      rw [if_neg (ne_true_of_eq_false hreturns)]
      exact (h.walkOn rfl rfl rfl rfl rfl hfits (he inp)).silent
  | backSave p => exact h.backSave inp
  | standRemove uid a =>
      have hbooks := ((h.books rfl rfl rfl rfl rfl).user uid).2
      exact (hbooks.even (he inp)).tail (tail_afterStandup (U := True) _ _ a)
  | kickRemove uid a => exact h.kickRemove inp
  | kickLeave uid a => exact (h.kickLeave inp).silent
  | dismissAgent uid => exact (((h.books rfl rfl rfl rfl rfl).even (he inp)).ret _).silent
  | freeAgent u r =>
      have heven := (he inp).trans (even_drop _ u)
      have hbooks := (h.books rfl rfl rfl rfl rfl).even heven
      exact (hbooks.wait (.kickRemove _ (.free r)) (heven.costList.trans hfits) rfl rfl rfl
        rfl rfl).silent
  | freeDismiss r =>
      have hbooks := (h.books rfl rfl rfl rfl rfl).even (he inp)
      exact (hbooks.wait (.freeGamedb r) ((he inp).costList.trans hfits) rfl rfl rfl rfl rfl).silent
  | freeGamedb r => exact h.freeGamedb inp
  | freeLobby r => exact (h.freeLobby inp).silent
  | _ => exact hfits.elim

end Segments

/-! ### The end of a game -/

section GameEnd

variable {k : Codecs} {bags : ℕ → ℤ} {ops : List Op} {id : ℕ} {d : Desk} {pc : Pc}

/-- The points of `free_desk`. -/
def freeing : Pc → Bool
  | .freeAgent _ _ | .kickRemove _ (.free _) | .kickLeave _ (.free _) | .freeDismiss _ |
    .freeGamedb _
  | .freeLobby _ => true
  | _ => false

/-- Nothing is stored for the desk. -/
def Cleared (k : Codecs) (ops : List Op) (id : ℕ) : Prop :=
  (Gamedb.spec k.records ops id).costs = 0 ∧ Gamedb.opened k.records id ops = none

/-- **The desk is about to be freed**, whatever it has cost. -/
def Ends (k : Codecs) (ops : List Op) (id : ℕ) (o : Out) : Prop :=
  match o.res with
  | .ret _ => o.d.live = false ∧ Cleared k ops id
  | .wait pc => freeing pc = true ∧ (freed pc = true → Cleared k ops id)

theorem ends_freeLoop (d : Desk) (r : Ret) : Ends k ops id (freeLoop d r) := by
  unfold freeLoop
  split
  · exact ⟨rfl, nofun⟩
  · split
    · exact ⟨rfl, nofun⟩
    · exact ⟨rfl, nofun⟩

/-- **One segment of `free_desk`**, with the call before it: no bag is touched. -/
theorem Ends.step (bags : ℕ → ℤ) (hfree : freeing pc = true)
    (hdone : freed pc = true → Cleared k ops id) (inp : Inp) :
    (pc.rpc d inp).elim bags (bagged bags) = bags ∧
      Ends k (ops ++ (pc.rpc d inp).elim [] (gamedb id)) id (Job.out d inp (.seg pc)) := by
  cases pc with
  | freeAgent u r => exact ⟨rfl, rfl, nofun⟩
  | kickRemove uid a =>
      cases a with
      | leave a => cases hfree
      | free r => exact ⟨rfl, rfl, nofun⟩
  | kickLeave uid a =>
      cases a with
      | leave a => cases hfree
      | free r => exact ⟨rfl, ends_freeLoop _ r⟩
  | freeDismiss r => exact ⟨rfl, rfl, nofun⟩
  | freeGamedb r =>
      refine ⟨rfl, rfl, fun _ => ⟨?_, ?_⟩⟩
      · change (Gamedb.spec k.records (ops ++ [.freeDesk id]) id).costs = 0
        simp [Gamedb.Op.spec]
      · change Gamedb.opened k.records id (ops ++ [.freeDesk id]) = none
        simp [Gamedb.Op.opened]
  | freeLobby r =>
      refine ⟨rfl, rfl, ?_⟩
      change Cleared k (ops ++ []) id
      rw [List.append_nil]
      exact hdone rfl
  | _ => cases hfree

/-- **What was owed is spent.** -/
theorem Cleared.shut (hc : Cleared k ops id) (hl : d.live = false) : Shut k bags ops id bags d where
  pushed := fun hlive => absurd (hl.symm.trans hlive) Bool.false_ne_true
  level := fun u => by rw [deskOwes, if_neg (by rw [hl]; decide), add_zero]
  costs := by rw [hc.1, if_neg (by rw [hl]; decide)]
  opened := by rw [hc.2, hl]; rfl

end GameEnd

end Halieutics.Diamonds
