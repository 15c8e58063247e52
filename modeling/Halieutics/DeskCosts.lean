/-
**Charges are paid back once.**

`back_roomcard` walks `d.costs`, pays back the entries of one user or of all, collects the others,
and puts the collected list in the place of `d.costs` at the end.  It yields for every entry it pays
back and once more before the replacement, and neither `desk.standup` nor `desk.force_dismiss` runs
inside the queue `d.cs`.  So two walks can overlap, and a charge can be recorded in the old list
while a walk is about to replace it.

A walk also tells the agent of the user about every refund, with a call that may raise: then the
walk ends there, and the entries it has paid back stay in `d.costs`.

This module shows what goes wrong then, and that nothing else does: as long as walks do not overlap,
no push of a walk raises and no charge is recorded while a walk is in `save_costs`, the list is the
sweep of `Halieutics.Sweep`.

Main definitions:

* `Halieutics.Desk.recorded`, `Halieutics.Desk.refunds` — the entries recorded and paid back so far;
* `Halieutics.PaidOnce` — no entry is paid back twice and none is forgotten;
* `Halieutics.WalksApart`, `Halieutics.WalksWhole` — **the condition**.

Main results:

* `Halieutics.booksInv_of_walksWhole` — the sweep is kept along every run under the condition;
* `Halieutics.paidOnce_of_walksWhole` — **every charge is paid back at most once and stays in
  `d.costs` until then**;
* `Halieutics.standup_twice_pays_twice` — two overlapping `standup` requests are paid twice.
-/

import Halieutics.Sweep
import Halieutics.DeskCourse

set_option relaxedAutoImplicit false
set_option autoImplicit false

namespace Halieutics

open LuaTable Coroutine Sweep

/-! ### The books of a desk -/

/-- The entry a remote call pays back. -/
def Act.refund : Act → Option Cost
  | .rpc (.addProp c) => some c
  | _ => none

/-- The entry a milestone records. -/
def Act.cost : Act → Option Cost
  | .mark (.cost c) => some c
  | _ => none

/-- The entries paid back so far, newest first. -/
def Desk.refunds (d : Desk) : List Cost := d.hist.filterMap Act.refund

/-- The entries recorded so far, newest first. -/
def Desk.recorded (d : Desk) : List Cost := d.hist.filterMap Act.cost

/-- **No charge is paid back twice and no charge is forgotten.** -/
def PaidOnce (d : Desk) : Prop :=
  ∀ c ∈ d.recorded, d.refunds.count c ≤ 1 ∧ (c ∉ d.refunds → c ∈ d.costList)

instance (d : Desk) : Decidable (PaidOnce d) := inferInstanceAs (Decidable (∀ c ∈ d.recorded, _))

theorem refunds_base (d : Desk) : d.base.refunds = d.refunds := by
  rw [Desk.refunds, Desk.refunds, Desk.base, List.filterMap_filter]
  congr 1
  funext a
  cases a with
  | rpc r => cases r <;> rfl
  | mark m => cases m <;> rfl

theorem recorded_base (d : Desk) : d.base.recorded = d.recorded := by
  rw [Desk.recorded, Desk.recorded, Desk.base, List.filterMap_filter]
  congr 1
  funext a
  cases a with
  | rpc r => cases r <;> rfl
  | mark m => cases m <;> rfl

/-- The two desks have the same lists of charges. -/
structure SameBooks (d d' : Desk) : Prop where
  tabs : d'.tabs = d.tabs
  costs : d'.costs = d.costs
  ntab : d'.ntab = d.ntab
  ncost : d'.ncost = d.ncost
  refunds : d'.refunds = d.refunds
  recorded : d'.recorded = d.recorded

theorem sameBooks_of_base {d d' : Desk} (h : d'.base = d.base) : SameBooks d d' where
  tabs := (congrArg Desk.tabs h :)
  costs := (congrArg Desk.costs h :)
  ntab := (congrArg Desk.ntab h :)
  ncost := (congrArg Desk.ncost h :)
  refunds := by rw [← refunds_base, h, refunds_base]
  recorded := by rw [← recorded_base, h, recorded_base]

theorem SameBooks.trans {d d' d'' : Desk} (h : SameBooks d d') (h' : SameBooks d' d'') :
    SameBooks d d'' :=
  ⟨h'.tabs.trans h.tabs, h'.costs.trans h.costs, h'.ntab.trans h.ntab, h'.ncost.trans h.ncost,
    h'.refunds.trans h.refunds, h'.recorded.trans h.recorded⟩

theorem SameBooks.costList {d d' : Desk} (h : SameBooks d d') : d'.costList = d.costList := by
  rw [Desk.costList, Desk.costList, h.tabs, h.costs]

/-! ### Walks -/

/-- A walk with the first `n` entries behind it. -/
def SweptBy (d : Desk) (w : Walk) (n : ℕ) : Prop :=
  w.tab = d.costs ∧ Swept (selects w.userid) n w.costs d.recorded d.refunds d.costList

/-- **Where a walk is.** -/
def WalkOk (d : Desk) : Walk × Stage → Prop
  | (w, .before c) => SweptBy d w w.i ∧ d.costList[w.i]? = some c ∧ selects w.userid c = true
  | (w, .after _) => SweptBy d w (w.i + 1)
  | (w, .save) => SweptBy d w w.i ∧ d.costList.length ≤ w.i

/-- **The books of a desk and of its walks.** -/
structure BooksInv (d : Desk) (l : List Pc) : Prop where
  fresh : d.costs < d.ntab
  serial : ∀ c ∈ d.recorded, c.serial < d.ncost
  clear : l.filterMap Pc.walk? = [] → Clear d.recorded d.refunds d.costList
  one : (l.filterMap Pc.walk?).length ≤ 1
  walk : ∀ x ∈ l.filterMap Pc.walk?, WalkOk d x

theorem SweptBy.same {d d' : Desk} {w : Walk} {n : ℕ} (hb : SameBooks d d') (h : SweptBy d w n) :
    SweptBy d' w n := by
  rw [SweptBy, hb.costList, hb.costs, hb.recorded, hb.refunds]
  exact h

theorem WalkOk.same {d d' : Desk} (hb : SameBooks d d') {x : Walk × Stage} (h : WalkOk d x) :
    WalkOk d' x := by
  obtain ⟨w, st⟩ := x
  cases st with
  | before c => exact ⟨h.1.same hb, by rw [hb.costList]; exact h.2.1, h.2.2⟩
  | after c => exact SweptBy.same hb h
  | save => exact ⟨h.1.same hb, by rw [hb.costList]; exact h.2⟩

theorem BooksInv.books {d : Desk} {l : List Pc} (h : BooksInv d l) :
    Books d.recorded d.refunds d.costList := by
  cases hl : l.filterMap Pc.walk? with
  | nil => exact (h.clear hl).toBooks
  | cons x xs =>
      obtain ⟨w, st⟩ := x
      have hx := h.walk (w, st) (by rw [hl]; exact List.mem_cons_self)
      cases st with
      | before c => exact hx.1.2.toBooks
      | after c => exact hx.2.toBooks
      | save => exact hx.1.2.toBooks

theorem BooksInv.paidOnce {d : Desk} {l : List Pc} (h : BooksInv d l) : PaidOnce d := by
  intro c hc
  refine ⟨List.nodup_iff_count_le_one.1 h.books.settled_nodup c, fun hn => ?_⟩
  exact (h.books.covered c hc).resolve_left hn

/-- The books depend on the charges and the walks only. -/
theorem BooksInv.same {d d' : Desk} {l l' : List Pc} (hb : SameBooks d d')
    (hl : l'.filterMap Pc.walk? = l.filterMap Pc.walk?) (h : BooksInv d l) : BooksInv d' l' where
  fresh := by rw [hb.costs, hb.ntab]; exact h.fresh
  serial := by rw [hb.recorded, hb.ncost]; exact h.serial
  clear := by rw [hl, hb.recorded, hb.refunds, hb.costList]; exact h.clear
  one := by rw [hl]; exact h.one
  walk := by rw [hl]; exact fun x hx => (h.walk x hx).same hb

/-- **A walk stops where it should.** -/
theorem walk_ok {d : Desk} {w : Walk} (h : SweptBy d w w.i) :
    ∃ pc x, walkOn d w = .wait d pc ∧ pc.walk? = some x ∧ WalkOk d x := by
  have key : ∀ (cs : List Cost) (w : Walk), SweptBy d w w.i → d.costList.drop w.i = cs →
      ∃ pc x, walk d w cs = .wait d pc ∧ pc.walk? = some x ∧ WalkOk d x := by
    intro cs
    induction cs with
    | nil =>
        intro w hw hcs
        exact ⟨_, _, rfl, rfl, hw, by simpa using List.drop_eq_nil_iff.1 hcs⟩
    | cons c cs ih =>
        intro w hw hcs
        have hc : d.costList[w.i]? = some c := by
          have := congrArg List.head? hcs
          simpa [List.head?_drop] using this
        unfold walk
        split
        · rename_i hsel
          exact ⟨_, _, rfl, rfl, hw, hc, hsel⟩
        · rename_i hsel
          refine ih _ ⟨hw.1, hw.2.keep hc (by simpa using hsel)⟩ ?_
          have := congrArg List.tail hcs
          simpa [List.tail_drop] using this
  have htab : (d.tabs w.tab).drop w.i = d.costList.drop w.i := by rw [h.1]; rfl
  rw [walkOn, htab]
  exact key _ w h rfl

/-! ### One piece of work -/

/-- A segment that leaves one walk behind. -/
theorem BooksInv.walking {d : Desk} {rest : List Pc} {pc : Pc} {x : Walk × Stage}
    (hfresh : d.costs < d.ntab) (hserial : ∀ c ∈ d.recorded, c.serial < d.ncost)
    (hrest : rest.filterMap Pc.walk? = []) (hpc : pc.walk? = some x) (hx : WalkOk d x) :
    BooksInv d ((Out.wait d pc).pcs ++ rest) := by
  have hl : ((Out.wait d pc).pcs ++ rest).filterMap Pc.walk? = [x] := by
    simp [Out.wait, Out.pcs, hpc, hrest]
  refine ⟨hfresh, hserial, ?_, ?_, ?_⟩
  · rw [hl]; simp
  · rw [hl]; simp
  · rw [hl]; simpa using hx

/-- A segment that leaves no walk behind. -/
theorem BooksInv.quiet {d : Desk} {o : Out} {l rest : List Pc} (hb : SameBooks d o.d)
    (hl : l.filterMap Pc.walk? = []) (ho : o.pcs.filterMap Pc.walk? = [])
    (h : BooksInv d (l ++ rest)) : BooksInv o.d (o.pcs ++ rest) :=
  h.same hb (by rw [List.filterMap_append, List.filterMap_append, hl, ho])

/-- **Work with a core effect keeps the books**, provided that it begins a walk only while there
is none. -/
theorem BooksInv.effect {W : Prop} {S : ℕ → Prop} {G U : Prop} {d e : Desk} {o : Out}
    {l rest : List Pc} (hl : ∀ pc ∈ l, pc.plain = true) (hW : W → rest.filterMap Pc.walk? = [])
    (hb : e.base = d.base) (he : Effect W S G U e.core o) (h : BooksInv d (l ++ rest)) :
    BooksInv o.d (o.pcs ++ rest) := by
  have hl' := filterMap_walk?_plain hl
  have near : ∀ {d' : Desk}, Near G e.core d' → SameBooks d d' := fun hn =>
    sameBooks_of_base (hn.base.trans ((base_core e).trans hb))
  cases he with
  | same hc hpc _ => exact h.quiet (near hc) hl' (filterMap_walk?_plain fun pc h => (hpc pc h).1)
  | drop hc _ => exact h.quiet ((near hc).trans ⟨rfl, rfl, rfl, rfl, rfl, rfl⟩) hl' rfl
  | stand hc _ _ _ => exact h.quiet ((near hc).trans ⟨rfl, rfl, rfl, rfl, rfl, rfl⟩) hl' rfl
  | join hc _ _ _ => exact h.quiet ((near hc).trans ⟨rfl, rfl, rfl, rfl, rfl, rfl⟩) hl' rfl
  | assign hc _ _ _ _ => exact h.quiet ((near hc).trans ⟨rfl, rfl, rfl, rfl, rfl, rfl⟩) hl' rfl
  | @walk d' userid k hc hw =>
      have hrest := hW hw
      have h' : BooksInv d' (l ++ rest) := h.same (near hc) rfl
      have hclear := h'.clear (by rw [List.filterMap_append, hl', hrest]; rfl)
      obtain ⟨pc, x, hon, hpc, hx⟩ := walk_ok
        (w := { tab := d'.costs, userid := userid, i := 0, costs := [], k := k })
        ⟨rfl, hclear.start _⟩
      rw [startWalk, hon]
      exact .walking h'.fresh h'.serial hrest hpc hx

/-- `desk_cost_backup` puts a new entry on the list. -/
theorem BooksInv.addCost {d : Desk} {l : List Pc} {c : Cost} (hc : c.serial = d.ncost)
    (hsave : ∀ w, (w, Stage.save) ∉ l.filterMap Pc.walk?) (h : BooksInv d l) :
    BooksInv (addCost d c) l := by
  have hnew : c ∉ d.recorded := fun hmem => by
    have := h.serial c hmem
    omega
  have hrec : (Halieutics.addCost d c).recorded = c :: d.recorded := rfl
  have href : (Halieutics.addCost d c).refunds = d.refunds := rfl
  have hlist : (Halieutics.addCost d c).costList = d.costList ++ [c] := by
    simp [Halieutics.addCost, Desk.costList, Desk.mark]
  have hswept : ∀ w n, SweptBy d w n → SweptBy (Halieutics.addCost d c) w n := by
    intro w n hw
    refine ⟨hw.1, ?_⟩
    rw [hrec, href, hlist]
    exact hw.2.append hnew
  refine ⟨h.fresh, ?_, ?_, h.one, ?_⟩
  · intro c' hc'
    rw [hrec] at hc'
    rcases List.mem_cons.1 hc' with rfl | hmem
    · exact hc ▸ Nat.lt_succ_self _
    · exact Nat.lt_succ_of_lt (h.serial c' hmem)
  · intro hl
    rw [hrec, href, hlist]
    exact (h.clear hl).append hnew
  · intro x hx
    have hok := h.walk x hx
    obtain ⟨w, st⟩ := x
    cases st with
    | before c' =>
        refine ⟨hswept w _ hok.1, ?_, hok.2.2⟩
        rw [hlist, List.getElem?_append_left (List.getElem?_eq_some_iff.1 hok.2.1).1]
        exact hok.2.1
    | after c' => exact hswept w _ hok
    | save => exact absurd hx (hsave w)

/-- Only paying back an entry changes the books by its call. -/
theorem sameBooks_executed (d : Desk) (inp : Inp) (pc : Pc) (h : ∀ w c, pc ≠ .backAdd w c) :
    SameBooks d (executed d inp pc) := by
  unfold executed
  split
  · exact ⟨rfl, rfl, rfl, rfl, rfl, rfl⟩
  · rename_i r hr
    refine ⟨rfl, rfl, rfl, rfl, ?_, rfl⟩
    have : Act.refund (.rpc r) = none := by
      cases pc with
      | backAdd w c => exact absurd rfl (h w c)
      | fish pc => cases pc <;> simp_all [Pc.rpc] <;> subst hr <;> rfl
      | _ => simp_all [Pc.rpc] <;> subst hr <;> rfl
    simp [Desk.refunds, Desk.called, this]

theorem sameBooks_sitEnd (d : Desk) (u : Ref) : SameBooks d (sitEnd d u).d := by
  unfold sitEnd
  dsimp only [Out.ret]
  split <;> exact ⟨rfl, rfl, rfl, rfl, rfl, rfl⟩

/-- **Sitting down keeps the books**, provided that no charge is recorded while a walk is in
`save_costs`. -/
theorem BooksInv.sitting {d : Desk} {inp : Inp} {pc : Pc} {rest : List Pc}
    (hplain : pc.plain = false) (hwalk : pc.walk? = none)
    (hsave : ∀ u, pc = .sitRecord u → ∀ w, (w, Stage.save) ∉ rest.filterMap Pc.walk?)
    (h : BooksInv d ([pc] ++ rest)) :
    BooksInv (segment (executed d inp pc) inp pc).d
      ((segment (executed d inp pc) inp pc).pcs ++ rest) := by
  have hl : [pc].filterMap Pc.walk? = [] := by simp [hwalk]
  have hexec : SameBooks d (executed d inp pc) := by
    refine sameBooks_executed d inp _ ?_
    rintro w c rfl
    simp [Pc.walk?] at hwalk
  cases pc with
  | sitAdd u seat =>
      have hseat : SameBooks d (seatUser (executed d inp (.sitAdd u seat)) u seat) :=
        hexec.trans ⟨rfl, rfl, rfl, rfl, rfl, rfl⟩
      dsimp only [segment, sitSeated]
      split
      · exact h.quiet hseat hl rfl
      · exact h.quiet (hseat.trans (sameBooks_sitEnd _ u)) hl rfl
  | sitUse u =>
      dsimp only [segment]
      split
      · exact h.quiet hexec hl rfl
      · exact h.quiet hexec hl rfl
  | sitRecord u =>
      have hquiet : BooksInv (executed d inp (.sitRecord u)) rest := by
        refine h.same hexec ?_
        rw [List.filterMap_append, hl, List.nil_append]
      dsimp only [segment]
      split
      · refine (hquiet.addCost (c := ⟨_, _, _⟩) rfl (hsave u rfl)).same
          ⟨rfl, rfl, rfl, rfl, rfl, rfl⟩ ?_
        rfl
      · exact h.quiet hexec hl rfl
  | sitCost u c => exact h.quiet (hexec.trans (sameBooks_sitEnd _ u)) hl rfl
  | _ => simp_all [Pc.plain, Pc.walk?]

/-- The push of a walk raises, and the walk ends there. -/
def Job.cutsWalk (inp : Inp) : Job → Bool
  | .seg (.backPush _ _) => inp.raises
  | _ => false

/-- **A walk keeps the books** while it is the only one and is not cut off. -/
theorem BooksInv.walk_segment {d : Desk} {inp : Inp} {pc : Pc} {x : Walk × Stage} {rest : List Pc}
    (hx : pc.walk? = some x) (hcut : (Job.seg pc).cutsWalk inp = false)
    (h : BooksInv d ([pc] ++ rest)) :
    BooksInv (segment (executed d inp pc) inp pc).d
      ((segment (executed d inp pc) inp pc).pcs ++ rest) := by
  have hwalks : ([pc] ++ rest).filterMap Pc.walk? = x :: rest.filterMap Pc.walk? := by simp [hx]
  have hrest : rest.filterMap Pc.walk? = [] := by
    have := h.one
    rw [hwalks, List.length_cons] at this
    exact List.eq_nil_of_length_eq_zero (by omega)
  have hok : WalkOk d x := h.walk x (by rw [hwalks]; exact List.mem_cons_self)
  -- the walk goes on behind the entry at its index
  have next : ∀ (d' : Desk) (w : Walk), SameBooks d d' → SweptBy d w (w.i + 1) →
      BooksInv (walkOn d' { w with i := w.i + 1 }).d
        ((walkOn d' { w with i := w.i + 1 }).pcs ++ rest) := by
    intro d' w hb hw
    obtain ⟨pc', x', hon, hpc', hx'⟩ := walk_ok (w := { w with i := w.i + 1 }) (hw.same hb)
    have h' : BooksInv d' ([pc] ++ rest) := h.same hb rfl
    rw [hon]
    exact .walking h'.fresh h'.serial hrest hpc' hx'
  cases pc with
  | backRecord w c =>
      obtain rfl : (w, Stage.before c) = x := Option.some_inj.1 hx
      have hb := sameBooks_executed d inp (.backRecord w c) (by simp)
      have h' : BooksInv _ ([.backRecord w c] ++ rest) := h.same hb rfl
      exact .walking h'.fresh h'.serial hrest rfl (hok.same hb)
  | backAdd w c =>
      obtain rfl : (w, Stage.before c) = x := Option.some_inj.1 hx
      obtain ⟨hw, hc, hsel⟩ := hok
      refine .walking (x := (w, .after c)) h.fresh h.serial hrest rfl ?_
      exact ⟨hw.1, hw.2.settle hc hsel⟩
  | backQuery w c =>
      obtain rfl : (w, Stage.after c) = x := Option.some_inj.1 hx
      have hb := sameBooks_executed d inp (.backQuery w c) (by simp)
      have h' : BooksInv _ ([.backQuery w c] ++ rest) := h.same hb rfl
      dsimp only [segment]
      split
      · exact .walking h'.fresh h'.serial hrest rfl (hok.same hb)
      · exact next _ w hb hok
  | backPush w c =>
      obtain rfl : (w, Stage.after c) = x := Option.some_inj.1 hx
      have hreturns : inp.raises = false := hcut
      dsimp only [segment]
      rw [if_neg (ne_true_of_eq_false hreturns)]
      exact next _ w (sameBooks_executed d inp (.backPush w c) (by simp)) hok
  | backSave w =>
      obtain rfl : (w, Stage.save) = x := Option.some_inj.1 hx
      have hb := sameBooks_executed d inp (.backSave w) (by simp)
      have h' : BooksInv _ ([.backSave w] ++ rest) := h.same hb rfl
      obtain ⟨hw, hlen⟩ := hok.same hb
      generalize executed d inp (.backSave w) = e at h' hw hlen
      have hclear : BooksInv (replaceCosts e w.costs) ([] ++ rest) := by
        refine ⟨Nat.lt_succ_self _, h'.serial, fun _ => ?_, by simp [hrest], by simp [hrest]⟩
        have hlist : (replaceCosts e w.costs).costList = w.costs := by
          simp [replaceCosts, Desk.costList]
        rw [hlist]
        exact hw.2.finish hlen
      exact hclear.effect (W := False) (S := fun _ => False) (G := False) (U := True) (by simp)
        False.elim rfl (effect_afterBack _ w.k fun _ _ _ => trivial)
  | _ => simp [Pc.walk?] at hx

/-! ### Runs -/

/-- The segment of `desk.sitdown` in which `desk_cost_backup` records the charge. -/
def Job.records : Job → Bool
  | .seg (.sitRecord _) => true
  | _ => false

/-- The walk is in `save_costs`. -/
def Pc.saving : Pc → Bool
  | .backSave _ => true
  | _ => false

/-- **Walks are kept apart**: a walk begins only while no other walk is under way, and no charge is
recorded while a walk is in `save_costs`. -/
def WalksApart (s : Sys) (j : Job) : Prop :=
  (paysBack s.shared j = true → ∀ pc ∈ pcs s, pc.walk?.isNone = true) ∧
  (j.records = true → ∀ pc ∈ pcs s, pc.saving = false)

instance (s : Sys) (j : Job) : Decidable (WalksApart s j) :=
  inferInstanceAs (Decidable ((_ → ∀ pc ∈ pcs s, _) ∧ (_ → ∀ pc ∈ pcs s, _)))

/-- **The condition**: walks are kept apart, and no push of a walk raises. -/
def WalksWhole (s : Sys) (e : Ev) : Prop :=
  Under WalksApart s e ∧ ((jobOf s e).any fun p => p.1.cutsWalk p.2) = false

instance (s : Sys) (e : Ev) : Decidable (WalksWhole s e) :=
  inferInstanceAs (Decidable (_ ∧ _ = false))

/-- One piece of work. -/
theorem BooksInv.job {s : Sys} {j : Job} {inp : Inp} {rest : List Pc}
    (hp : (pcs s).Perm (j.pcs ++ rest)) (hone : OneNewDesk s.shared (pcs s)) (hC : WalksApart s j)
    (hcut : j.cutsWalk inp = false) (h : BooksInv s.shared (j.pcs ++ rest)) :
    BooksInv (j.out s.shared inp).d ((j.out s.shared inp).pcs ++ rest) := by
  have hrest : ∀ pc ∈ rest, pc ∈ pcs s := fun pc hpc => hp.mem_iff.2 (List.mem_append_right _ hpc)
  by_cases hplain : ∀ pc ∈ j.pcs, pc.plain = true
  · refine h.effect hplain ?_ (base_jobCalled s.shared inp hplain) (effect_job s.shared inp hplain)
    rintro (hpay | ⟨pc, rfl, hfail⟩)
    · rw [List.filterMap_eq_nil_iff]
      intro pc hpc
      simpa using hC.1 hpay pc (hrest pc hpc)
    · -- `new_desk` does not fail before the first game
      have ht := hone.timely pc (hp.mem_iff.2 (by simp [Job.pcs]))
      cases pc <;> simp_all [failsEarly, Pc.timely, Pc.playing]
  · cases j with
    | req r => simp [Job.pcs] at hplain
    | cmd u c => simp [Job.pcs] at hplain
    | seg pc =>
        cases hx : pc.walk? with
        | some x => exact h.walk_segment hx hcut
        | none =>
            refine h.sitting (by simpa [Job.pcs] using hplain) hx ?_
            rintro u rfl w hmem
            obtain ⟨pc', hpc', hw⟩ := List.mem_filterMap.1 hmem
            have := hC.2 rfl pc' (hrest pc' hpc')
            cases pc' <;> simp_all [Pc.walk?, Pc.saving]

variable {id creater timelimit : ℕ} {pay : Pay} {s : Sys}

/-- The books are kept along every run in which walks are kept apart and run to their ends. -/
theorem booksInv_of_walksWhole
    (h : desk.Reach WalksWhole (created id creater pay timelimit) s) :
    BooksInv s.shared (pcs s) := by
  refine desk_inv ?_ ?_ ?_ ?_ ?_ (h.and_inv fun s hs => one_newDesk hs)
  · intro d l l' hp hI
    have hw := hp.filterMap Pc.walk?
    refine ⟨hI.fresh, hI.serial, ?_, hw.length_eq ▸ hI.one, ?_⟩
    · intro hl
      exact hI.clear (by rw [hl] at hw; exact hw.eq_nil)
    · exact fun x hx => hI.walk x (hw.mem_iff.2 hx)
  · intro d l b q hI
    exact BooksInv.same (d := d) ⟨rfl, rfl, rfl, rfl, rfl, rfl⟩ rfl hI
  · intro d l u c hI
    exact BooksInv.same (l := l) ⟨rfl, rfl, rfl, rfl, rfl, rfl⟩ rfl hI
  · have hw : (pcs (created id creater pay timelimit)).filterMap Pc.walk? = [] := rfl
    have hrec : (Desk.create id creater pay timelimit).recorded = [⟨creater, pay.total, 0⟩] := rfl
    have href : (Desk.create id creater pay timelimit).refunds = [] := rfl
    have hlist : (Desk.create id creater pay timelimit).costList = [⟨creater, pay.total, 0⟩] := by
      simp [Desk.create, Desk.costList]
    refine ⟨Nat.zero_lt_one, ?_, fun _ => ?_, by rw [hw]; simp, by rw [hw]; simp⟩
    · rw [created, hrec]
      simp [Desk.create]
    · rw [created, hrec, href, hlist]
      exact ⟨⟨by simp, by simp, by simp, by simp, by simp⟩, by simp⟩
  · rintro s e j inp rest ⟨⟨hC, hcut⟩, hone⟩ hj hp _ hI
    have hapart : WalksApart s j := by simpa [Under, hj] using hC
    rw [hj] at hcut
    exact hI.job hp hone hapart hcut

/-- **Every charge is paid back at most once, and stays in `d.costs` until then**, in every run in
which walks are kept apart and no push of a walk raises. -/
theorem paidOnce_of_walksWhole
    (h : desk.Reach WalksWhole (created id creater pay timelimit) s) : PaidOnce s.shared :=
  (booksInv_of_walksWhole h).paidOnce

/-- User 2 joins a desk with AA payment and sits down. -/
def joinAndSit : List Ev :=
  [.call (.join 2 false) {}, .resume 1 {}, .resume 1 {},
   .call (.sitdown 2 none) {}, .resume 1 {}, .resume 1 {}, .resume 1 {}, .resume 1 {}]

/-- A charge of user 2 that is taken, recorded and paid back by `standup`. -/
theorem paidOnce_joinAndSit :
    ∃ s, desk.Reach WalksWhole (created 100001 1 ⟨true, 3⟩ 30) s ∧
      s.shared.refunds = [⟨2, 3, 1⟩] ∧ PaidOnce s.shared := by
  obtain ⟨s, hs, hp⟩ := Machine.exists_reach
    (joinAndSit ++ [.call (.standup 2) {}, .resume 1 {}, .resume 1 {}, .resume 1 {}, .resume 1 {}])
    (p := fun s => decide (s.shared.refunds = [⟨2, 3, 1⟩])) (C := WalksWhole)
    (i := created 100001 1 ⟨true, 3⟩ 30) (M := desk) (by decide +kernel)
  exact ⟨s, hs, of_decide_eq_true hp, paidOnce_of_walksWhole hs⟩

/-- **Two overlapping `standup` requests of one user are paid twice.** -/
theorem standup_twice_pays_twice :
    ¬ ∀ (id creater timelimit : ℕ) (pay : Pay) (s : Sys),
      desk.Reach Always (created id creater pay timelimit) s → s.shared.count = 0 →
        PaidOnce s.shared := by
  intro hall
  obtain ⟨s, hs, hp⟩ := Machine.exists_reach
    (joinAndSit ++ [.call (.standup 2) {}, .call (.standup 2) {}, .resume 1 {}, .resume 1 {},
      .resume 2 {}, .resume 2 {}])
    (p := fun s => decide (s.shared.count = 0 ∧ ¬ PaidOnce s.shared)) (C := Always)
    (i := created 100001 1 ⟨true, 3⟩ 30) (M := desk) (by decide +kernel)
  obtain ⟨hc, hn⟩ := of_decide_eq_true hp
  exact hn (hall _ _ _ _ s hs hc)

end Halieutics
