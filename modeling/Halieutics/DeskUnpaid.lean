/-
**What a failed `sitdown` leaves behind.**

`desk.sitdown` makes all its changes before it takes the money: `init_user` takes the seat out of
`freeseats`, registers it in the barrier and enters the user, and only then `prop.use` asks for
`pay.total`.  The script behind it refuses when the balance is too small, and answers what would
have been left; the assertion on the answer then raises, and nothing is undone.  The agent looks at
the balance before it calls the desk, but the balance may have dropped since.

The first half of this module handles a request to its end, with nothing in between, and says which
failures leave the desk as it was.  The second half is about runs: every seat that has a price is
followed by one bill, so that those who sit without having paid are those whose bill was refused.

Main definitions:

* `Halieutics.useProp`, `Halieutics.sitThrough` — the script, and a `sitdown` that is handled to its
  end;
* `Halieutics.Untouched` — the tables, the barrier, the cost entries and the user are as before;
* `Halieutics.Accepted`, `Halieutics.FailsSeated` — the request passes the checks; it fails
  nevertheless;
* `Halieutics.PaidFor` — **nobody but the creator sits on an AA desk without having paid for it**;
* `Halieutics.Affords` — every balance that is charged covers the price.

Main results:

* `Halieutics.failsClean_iff` — **a failure changes nothing exactly if it is one of the checks that
  fails**;
* `Halieutics.seatings_eq_billed` — **every seat is billed once**, in every run;
* `Halieutics.failsClean_and_paidFor` — both halves: where every balance covers the price, everybody
  has paid;
* `Halieutics.sits_unpaid` — a user sits without having paid.
-/

import Halieutics.DeskSeats

set_option relaxedAutoImplicit false
set_option autoImplicit false

namespace Halieutics

open LuaTable Coroutine

/-! ### A request that is handled to its end -/

/-- **The script `use_prop`** on the number `n` of a bag: what it becomes, and the answer. -/
def useProp (n num : ℤ) : ℤ × ℤ :=
  let left := n - num
  (if 0 ≤ left then left else n, left)

/-- **A piece of work that is carried on to its end**, with nothing in between: one input for each
segment that follows. -/
def Out.finish (o : Out) : List Inp → Out
  | [] => o
  | inp :: inps =>
      match o.res with
      | .ret _ => o
      | .wait pc => (Job.out o.d inp (.seg pc)).finish inps

@[simp] theorem Out.finish_ret (d : Desk) (r : Ret) (inps : List Inp) :
    (Out.ret d r).finish inps = .ret d r := by
  cases inps <;> rfl

theorem Out.finish_wait (d : Desk) (pc : Pc) (inp : Inp) (inps : List Inp) :
    (Out.wait d pc).finish (inp :: inps) = (Job.out d inp (.seg pc)).finish inps := rfl

/-- The answers of the four services that `desk.sitdown` calls, when the user has `balance`
diamonds. -/
def replies (d : Desk) (balance : ℤ) : List Inp :=
  [{}, { ret := (useProp balance d.pay.total).2 }, {}, {}]

/-- **`desk.sitdown`**, handled to its end. -/
def sitThrough (d : Desk) (userid : ℕ) (withseat : Option ℤ) (balance : ℤ) : Out :=
  (sitdown d userid withseat).finish (replies d balance)

/-- The handler answers `false`, or raises. -/
def Ret.failed : Ret → Bool
  | .err _ | .raise _ => true
  | _ => false

/-- **Nothing has changed** for the desk and for the user `userid`. -/
structure Untouched (d d' : Desk) (userid : ℕ) : Prop where
  users : d'.users = d.users
  freeseats : d'.freeseats = d.freeseats
  audiences : d'.audiences = d.audiences
  user : ∀ u, d.usermap.lookup userid = some u →
    (d'.objs u).seat = (d.objs u).seat ∧ (d'.objs u).audience = (d.objs u).audience
  sync : d'.sync = d.sync
  costs : d'.costList = d.costList

/-- The request passes every check of `desk.sitdown`. -/
structure Accepted (d : Desk) (userid : ℕ) (withseat : Option ℤ) (u : Ref) : Prop where
  live : d.live = true
  standing : d.hasSeat userid = false
  joined : d.usermap.lookup userid = some u
  free : d.freeseats ≠ []
  wanted : (d.objs u).android = false → ∀ seat, withseat = some seat → seat ∈ d.freeseats

/-- The seat has a price for the user `u`. -/
def Desk.owes (d : Desk) (u : Ref) : Bool :=
  d.pay.AA && (d.creater != (d.objs u).id) && decide (0 < d.pay.total)

/-- **The request is accepted and fails nevertheless**: the seat has a price, which the balance does
not cover, or the user who has just paid it cannot be told, since his `join` has not been
completed. -/
def FailsSeated (d : Desk) (userid : ℕ) (withseat : Option ℤ) (balance : ℤ) : Prop :=
  ∃ u, Accepted d userid withseat u ∧ d.owes u = true ∧
    (balance < d.pay.total ∨ (d.objs u).push = false)

/-- **A failed `sitdown` changes nothing.** -/
def FailsClean (d : Desk) (userid : ℕ) (withseat : Option ℤ) (balance : ℤ) : Prop :=
  ∀ r, (sitThrough d userid withseat balance).res = .ret r → r.failed = true →
    Untouched d (sitThrough d userid withseat balance).d userid

section Through

variable {d : Desk} {uid : ℕ} {withseat : Option ℤ} {balance : ℤ} {u : Ref} {seat : ℤ}

theorem untouched_refl (d : Desk) (uid : ℕ) : Untouched d d uid :=
  ⟨rfl, rfl, rfl, fun _ _ => ⟨rfl, rfl⟩, rfl, rfl⟩

/-- An accepted request takes a seat out of the free seats. -/
theorem sitdown_of_accepted (h : Accepted d uid withseat u) :
    ∃ seat rest, rest.length < d.freeseats.length ∧
      sitdown d uid withseat = .wait (assignSeat d u seat rest) (.sitAdd u seat) := by
  have hpos : 0 < d.freeseats.length := List.length_pos_iff.2 h.free
  have chosen : ∀ seat, seat ∈ d.freeseats →
      ((d.freeseats.erase seat).erase seat).length < d.freeseats.length := by
    intro seat hseat
    have hle := List.length_erase_le (a := seat) (l := d.freeseats.erase seat)
    have hlen := List.length_erase_of_mem hseat
    omega
  have assigns : ∀ p, (∀ q, p = some q → q.1 ∈ d.freeseats ∧ q.2 = d.freeseats.erase q.1) →
      ∃ seat rest, rest.length < d.freeseats.length ∧
        initUser d u p = .wait (assignSeat d u seat rest) (.sitAdd u seat) := by
    intro p hp
    cases p with
    | some q =>
        obtain ⟨hmem, hrest⟩ := hp q rfl
        refine ⟨q.1, _, chosen q.1 hmem, ?_⟩
        rw [initUser, hrest]
    | none =>
        refine ⟨d.freeseats.getLast h.free, d.freeseats.dropLast, ?_, ?_⟩
        · rw [List.length_dropLast]
          omega
        · rw [initUser, List.getLast?_eq_some_getLast h.free]
  simp only [sitdown, h.live, h.standing, h.joined, h.free, Bool.not_true,
    Bool.false_eq_true, if_false]
  split
  · exact assigns _ (getfreeseat_spec _ _)
  · rename_i hhuman
    cases withseat with
    | none => exact assigns _ (getfreeseat_spec _ _)
    | some seat =>
        have hmem := h.wanted (by simpa using hhuman) seat rfl
        have hrem : remtableitem d.freeseats seat = some (seat, d.freeseats.erase seat) :=
          if_pos hmem
        simp only [hrem]
        refine assigns _ fun q hq => ?_
        obtain rfl := Option.some_inj.1 hq
        exact ⟨hmem, rfl⟩

/-- A request that a check refuses. -/
theorem sitdown_of_refused (h : ∀ u, ¬ Accepted d uid withseat u) :
    ∃ r, sitdown d uid withseat = .ret d r := by
  unfold sitdown
  split
  · exact ⟨_, rfl⟩
  · rename_i hlive
    split
    · exact ⟨_, rfl⟩
    · rename_i hstanding
      cases hu : d.usermap.lookup uid with
      | none => exact ⟨_, rfl⟩
      | some u =>
          dsimp only
          by_cases hfree : d.freeseats = []
          · exact ⟨_, if_pos hfree⟩
          · have accepted :
              ((d.objs u).android = false → ∀ seat, withseat = some seat → seat ∈ d.freeseats) →
                False := fun hw => h u
                ⟨by simpa using hlive, by simpa using hstanding, hu, hfree, hw⟩
            rw [if_neg hfree]
            split
            · rename_i hand
              refine (accepted fun hhuman => ?_).elim
              rw [hand] at hhuman
              cases hhuman
            · cases withseat with
              | none => exact (accepted fun _ _ hseat => by cases hseat).elim
              | some seat =>
                  by_cases hmem : seat ∈ d.freeseats
                  · refine (accepted fun _ seat' hseat' => ?_).elim
                    obtain rfl := Option.some_inj.1 hseat'
                    exact hmem
                  · have hrem : remtableitem d.freeseats seat = none := if_neg hmem
                    dsimp only
                    rw [hrem]
                    exact ⟨_, rfl⟩

theorem sitEnd_cases (d : Desk) (u : Ref) :
    ∃ d' seat, sitEnd d u = .ret d' (.seat seat) ∧ d'.freeseats = d.freeseats := by
  unfold sitEnd
  dsimp only
  split
  · exact ⟨_, _, rfl, rfl⟩
  · exact ⟨_, _, rfl, rfl⟩

/-- How the handler ends from a state in which the user has his seat: it fails exactly if `bad`, and
it gives no seat back. -/
def EndsIf (d : Desk) (bad : Prop) (o : Out) : Prop :=
  ∃ e r, o = .ret e r ∧ e.freeseats = d.freeseats ∧ (r.failed = true ↔ bad)

theorem endsIf_sitEnd {e : Desk} {bad : Prop} (he : e.freeseats = d.freeseats) (hgood : ¬ bad)
    (inps : List Inp) : EndsIf d bad ((sitEnd e u).finish inps) := by
  obtain ⟨e', seat', hend, hfree⟩ := sitEnd_cases e u
  refine ⟨e', .seat seat', by rw [hend, Out.finish_ret], hfree.trans he, ?_⟩
  exact ⟨fun h => absurd h Bool.false_ne_true, fun h => absurd h hgood⟩

/-- The user has paid. -/
theorem endsIf_sitRecord (e : Desk) (u : Ref) :
    EndsIf e ((e.objs u).push = false) ((Out.wait e (.sitRecord u)).finish [{}, {}]) := by
  have hout : Job.out e {} (.seg (.sitRecord u)) =
      if (e.objs u).push then deskCostBackup (executed e {} (.sitRecord u)) u
      else .ret (executed e {} (.sitRecord u))
      (.raise "attempt to call a nil value (field 'push')") := rfl
  rw [Out.finish_wait, hout]
  cases hpush : (e.objs u).push with
  | true =>
      rw [if_pos rfl, deskCostBackup, Out.finish_wait]
      exact endsIf_sitEnd rfl (by simp) _
  | false =>
      rw [if_neg Bool.false_ne_true]
      exact ⟨_, _, Out.finish_ret _ _ _, rfl, fun _ => rfl, fun _ => rfl⟩

/-- The user has his seat, and is asked for the price. -/
theorem endsIf_sitUse (e : Desk) (u : Ref) (left : ℤ) :
    EndsIf e (left < 0 ∨ (e.objs u).push = false)
      ((Out.wait e (.sitUse u)).finish [{ ret := left }, {}, {}]) := by
  have hout : Job.out e { ret := left } (.seg (.sitUse u)) =
      if 0 ≤ left then .wait (executed e { ret := left } (.sitUse u)) (.sitRecord u)
      else .ret (executed e { ret := left } (.sitUse u))
      (.raise "use prop should always success?") := rfl
  rw [Out.finish_wait, hout]
  by_cases hleft : 0 ≤ left
  · rw [if_pos hleft]
    obtain ⟨e', r, hend, hfree, hfailed⟩ :=
      endsIf_sitRecord (executed e { ret := left } (.sitUse u)) u
    refine ⟨e', r, hend, hfree, hfailed.trans ⟨Or.inr, fun h => h.resolve_left (by omega)⟩⟩
  · rw [if_neg hleft]
    exact ⟨_, _, Out.finish_ret _ _ _, rfl, fun _ => Or.inl (by omega), fun _ => rfl⟩

/-- **From the seat to the end**: what the handler answers depends on the price, on the balance and
on `user.push`. -/
theorem endsIf_sitAdd (d : Desk) (u : Ref) (seat balance : ℤ) :
    EndsIf d (d.owes u = true ∧ (balance < d.pay.total ∨ (d.objs u).push = false))
      ((Out.wait d (.sitAdd u seat)).finish (replies d balance)) := by
  have hout : Job.out d {} (.seg (.sitAdd u seat)) =
      if d.owes u then .wait (seatUser (executed d {} (.sitAdd u seat)) u seat) (.sitUse u)
      else sitEnd (seatUser (executed d {} (.sitAdd u seat)) u seat) u := rfl
  rw [replies, Out.finish_wait, hout]
  cases howes : d.owes u with
  | true =>
      rw [if_pos rfl]
      obtain ⟨e, r, hend, hfree, hfailed⟩ := endsIf_sitUse
        (seatUser (executed d {} (.sitAdd u seat)) u seat) u (balance - d.pay.total)
      refine ⟨e, r, hend, hfree,
        hfailed.trans ⟨fun h => ⟨rfl, h.imp_left ?_⟩, fun h => h.2.imp_left ?_⟩⟩
      · omega
      · omega
  | false =>
      rw [if_neg Bool.false_ne_true]
      exact endsIf_sitEnd rfl (fun h => absurd h.1 Bool.false_ne_true) _

theorem owes_assignSeat (d : Desk) (u : Ref) (seat : ℤ) (rest : List ℤ) :
    (assignSeat d u seat rest).owes u = d.owes u ∧
      ((assignSeat d u seat rest).objs u).push = (d.objs u).push := by
  have hobj : (assignSeat d u seat rest).objs u
      = { d.objs u with game := some 0, seat := seat, audience := some false } :=
    Function.update_self _ _ _
  refine ⟨?_, by rw [hobj]⟩
  unfold Desk.owes
  rw [hobj]
  rfl

/-- **Which failures leave the desk alone**: `desk.sitdown` returns, and it leaves the desk as it
was whenever it fails, unless it fails when the user already has his seat. -/
theorem failsClean_iff (d : Desk) (uid : ℕ) (withseat : Option ℤ) (balance : ℤ) :
    (∃ r, (sitThrough d uid withseat balance).res = .ret r) ∧
      (FailsClean d uid withseat balance ↔ ¬ FailsSeated d uid withseat balance) := by
  by_cases hacc : ∃ u, Accepted d uid withseat u
  · obtain ⟨u, hu⟩ := hacc
    obtain ⟨seat, rest, hlen, hsit⟩ := sitdown_of_accepted hu
    obtain ⟨e, r, hend, hfree, hfailed⟩ := endsIf_sitAdd (assignSeat d u seat rest) u seat balance
    rw [(owes_assignSeat d u seat rest).1, (owes_assignSeat d u seat rest).2] at hfailed
    have hthrough : sitThrough d uid withseat balance = .ret e r := by
      rw [sitThrough, hsit]
      exact hend
    have hseated : FailsSeated d uid withseat balance ↔ r.failed = true := by
      rw [hfailed]
      constructor
      · rintro ⟨v, hv, hbad⟩
        obtain rfl := Option.some_inj.1 (hv.joined.symm.trans hu.joined)
        exact hbad
      · exact fun hbad => ⟨u, hu, hbad⟩
    rw [FailsClean, hthrough, hseated]
    refine ⟨⟨r, rfl⟩, fun hclean hbad => ?_, fun hgood r' hr' hbad => ?_⟩
    · have hsame := (hclean r rfl hbad).freeseats
      change e.freeseats = d.freeseats at hsame
      rw [hfree] at hsame
      exact absurd (congrArg List.length hsame) (Nat.ne_of_lt hlen)
    · obtain rfl : r = r' := by
        injection hr'
      exact absurd hbad hgood
  · obtain ⟨r, hsit⟩ := sitdown_of_refused fun u hu => hacc ⟨u, hu⟩
    have hthrough : sitThrough d uid withseat balance = .ret d r := by
      rw [sitThrough, hsit, Out.finish_ret]
    rw [FailsClean, hthrough]
    refine ⟨⟨r, rfl⟩, fun _ hbad => ?_, fun _ _ _ _ => untouched_refl d uid⟩
    obtain ⟨u, hu, -⟩ := hbad
    exact hacc ⟨u, hu⟩

end Through

/-! ### Bills -/

/-- A user is asked for `num` diamonds. -/
def Act.bill (uid : ℕ) (num : ℤ) : Act → Bool
  | .rpc (.useProp id n _) => id == uid && n == num
  | _ => false

/-- The script refused: less than nothing would have been left. -/
def Act.refused : Act → Bool
  | .rpc (.useProp _ _ left) => decide (left < 0)
  | _ => false

/-- How often a user was asked for `num` diamonds. -/
def billed (uid : ℕ) (num : ℤ) (hist : List Act) : ℕ := hist.countP (Act.bill uid num)

/-- How often he paid them. -/
def paid (uid : ℕ) (num : ℤ) (hist : List Act) : ℕ :=
  hist.countP fun a => a.bill uid num && !a.refused

/-- **Nobody but the creator sits on an AA desk without having paid for it**: he has paid
`pay.total` as often as he has taken a seat, but for a `sitdown` that is still waiting for the
answer. -/
def PaidFor (d : Desk) (l : List Pc) : Prop :=
  d.pay.AA = true → 0 < d.pay.total → ∀ uid, uid ≠ d.creater →
    seatings uid d.hist ≤ paid uid d.pay.total d.hist + l.countP (Pc.charges d uid)

/-- Every seat that has a price is billed once, or is about to be. -/
def Billed (d : Desk) (l : List Pc) : Prop :=
  d.pay.AA = true → 0 < d.pay.total → ∀ uid, uid ≠ d.creater →
    seatings uid d.hist = billed uid d.pay.total d.hist + l.countP (Pc.charges d uid)

/-- Every bill so far has been paid. -/
def AllPaid (d : Desk) : Prop := ∀ a ∈ d.hist, a.refused = false

/-- **Every balance that is charged covers the price.** -/
def Affords (s : Sys) (e : Ev) : Prop :=
  match jobOf s e with
  | some (.seg (.sitUse _), inp) => 0 ≤ inp.ret
  | _ => True

/-- The condition can be checked. -/
theorem affords_iff (s : Sys) (e : Ev) :
    (match jobOf s e with
      | some (.seg (.sitUse _), inp) => decide (0 ≤ inp.ret)
      | _ => true) = true ↔ Affords s e := by
  unfold Affords
  split
  · exact decide_eq_true_iff
  · exact iff_of_true rfl trivial

instance (s : Sys) (e : Ev) : Decidable (Affords s e) := decidable_of_iff _ (affords_iff s e)

theorem billed_filter (uid : ℕ) (num : ℤ) (hist : List Act) :
    billed uid num (hist.filter Act.seat) = billed uid num hist := by
  rw [billed, List.countP_filter, billed]
  congr 1
  funext a
  cases a with
  | rpc r => cases r <;> simp [Act.bill, Act.seat]
  | mark m => rfl

theorem billed_congr {hist hist' : List Act} (h : hist'.filter Act.seat = hist.filter Act.seat)
    (uid : ℕ) (num : ℤ) : billed uid num hist' = billed uid num hist ∧
      seatings uid hist' = seatings uid hist := by
  rw [← billed_filter, h, billed_filter, ← seatings_filter, h, seatings_filter]
  exact ⟨rfl, rfl⟩

theorem refused_iff_filter {hist : List Act} :
    (∀ a ∈ hist, a.refused = false) ↔ ∀ a ∈ hist.filter Act.seat, a.refused = false := by
  refine ⟨fun h a ha => h a (List.mem_filter.1 ha).1, fun h a ha => ?_⟩
  cases hseat : a.seat with
  | true => exact h a (List.mem_filter.2 ⟨ha, hseat⟩)
  | false =>
      cases a with
      | rpc r => cases r <;> simp_all [Act.seat, Act.refused]
      | mark m => rfl

theorem paid_of_allPaid {d : Desk} (h : AllPaid d) (uid : ℕ) (num : ℤ) :
    paid uid num d.hist = billed uid num d.hist := by
  refine List.countP_congr fun a ha => ?_
  rw [h a ha, Bool.not_false, Bool.and_true]

/-! ### The price of a desk -/

/-- What was agreed on when the desk was created. -/
def Desk.terms (d : Desk) : Pay × ℕ := (d.pay, d.creater)

theorem terms_of_base {d d' : Desk} (h : d'.base = d.base) : d'.terms = d.terms :=
  (congrArg Desk.terms h :)

theorem Effect.terms {W : Prop} {S : ℕ → Prop} {G U : Prop} {d : Desk} {o : Out}
    (h : Effect W S G U d.core o) : o.d.terms = d.terms := by
  have near : ∀ {e : Desk}, Near G d.core e → e.terms = d.terms := fun hn =>
    terms_of_base (hn.base.trans (base_core d))
  cases h with
  | same hn _ _ => exact near hn
  | walk hn _ => exact (congrArg Desk.terms (startWalk_d _ _ _)).trans (near hn)
  | drop hn | stand hn | join hn | assign hn =>
      have he := near hn
      exact he

theorem terms_executed (d : Desk) (inp : Inp) (pc : Pc) : (executed d inp pc).terms = d.terms := by
  unfold executed
  split <;> rfl

/-- **The terms of a desk never change.** -/
theorem terms_job (d : Desk) (inp : Inp) (j : Job) : (j.out d inp).d.terms = d.terms := by
  have called : (j.called d inp).terms = d.terms := by
    cases j with
    | seg pc => exact terms_executed d inp pc
    | _ => rfl
  by_cases hplain : ∀ pc ∈ j.pcs, pc.plain = true
  · exact (effect_job d inp hplain).terms.trans called
  · cases j with
    | req r => simp [Job.pcs] at hplain
    | cmd u c => simp [Job.pcs] at hplain
    | seg pc =>
        refine Eq.trans ?_ called
        change (segment (executed d inp pc) inp pc).d.terms = (executed d inp pc).terms
        generalize executed d inp pc = e
        have walks : ∀ w, (walkOn e w).d.terms = e.terms := by
          intro w
          obtain ⟨w', pc', h, -⟩ := walk_cases e w ((e.tabs w.tab).drop w.i)
          rw [walkOn, h]
          rfl
        have ends : ∀ (e' : Desk) u, (sitEnd e' u).d.terms = e'.terms := fun e' u =>
          (effect_sitEnd (W := False) (S := fun _ => False) (G := False) (U := False) e' u).terms
        cases pc with
        | sitAdd u seat =>
            change (sitSeated e u seat).d.terms = e.terms
            unfold sitSeated
            dsimp only
            split
            · rfl
            · exact ends (seatUser e u seat) u
        | sitUse u =>
            dsimp only [segment]
            split <;> rfl
        | sitRecord u =>
            dsimp only [segment]
            split <;> rfl
        | sitCost u c => exact ends e u
        | backRecord w c => rfl
        | backAdd w c => rfl
        | backQuery w c =>
            dsimp only [segment]
            split
            · rfl
            · exact walks _
        | backPush w c =>
            dsimp only [segment]
            split
            · rfl
            · exact walks _
        | backSave w =>
            exact (effect_afterBack (W := False) (S := fun _ => False) (G := False) (U := True)
              (replaceCosts e w.costs) w.k fun _ _ _ => trivial).terms
        | _ => simp [Job.pcs, Pc.plain] at hplain

/-! ### Every seat is billed once -/

section Job

variable {d d' : Desk} {j : Job} {l rest : List Pc}

/-- Work that leaves the seats and the bills as they were. -/
theorem Billed.quiet (hc : Covered d rest) (hterms : d'.terms = d.terms)
    (hacts : d'.hist.filter Act.seat = d.hist.filter Act.seat)
    (hid : ∀ u, u < d.nobj → (d'.objs u).id = (d.objs u).id)
    (hl : ∀ uid, ∀ pc ∈ l, pc.charges d' uid = false) (h : Billed d rest) :
    Billed d' (l ++ rest) := by
  have hpay : d'.pay = d.pay := congrArg Prod.fst hterms
  have hcreater : d'.creater = d.creater := congrArg Prod.snd hterms
  intro hAA htotal uid huid
  rw [hpay] at hAA htotal
  rw [hcreater] at huid
  have hzero : l.countP (Pc.charges d' uid) = 0 :=
    List.countP_eq_zero.2 fun pc hpc => by simp [hl uid pc hpc]
  obtain ⟨hbilled, hseatings⟩ := billed_congr hacts uid d.pay.total
  rw [hpay, hbilled, hseatings, List.countP_append, hzero, Nat.zero_add, charges_congr hid hc.known]
  exact h hAA htotal uid huid

/-- The user takes his seat, and is billed next. -/
theorem Billed.sit {u : Ref} {seat : ℤ} (hc : Covered d (.sitAdd u seat :: rest))
    (hterms : (sitSeated d u seat).d.terms = d.terms) (h : Billed d rest) :
    Billed (sitSeated d u seat).d ((sitSeated d u seat).pcs ++ rest) := by
  obtain ⟨hs, -⟩ := sitSeated_same d u seat
  have hid : ∀ v, ((sitSeated d u seat).d.objs v).id = (d.objs v).id := fun v => hs.id v
  have hpay : (sitSeated d u seat).d.pay = d.pay := congrArg Prod.fst hterms
  have hcreater : (sitSeated d u seat).d.creater = d.creater := congrArg Prod.snd hterms
  intro hAA htotal uid huid
  rw [hpay] at hAA htotal
  rw [hcreater] at huid
  have hbill : billed uid d.pay.total (sitSeated d u seat).d.hist =
    billed uid d.pay.total d.hist := by
    rw [← billed_filter, hs.acts, billed_filter]
    exact List.countP_cons_of_neg (by simp [Act.bill])
  have hseat : seatings uid (sitSeated d u seat).d.hist
      = seatings uid d.hist + if (d.objs u).id = uid then 1 else 0 := by
    rw [← seatings_filter, hs.acts, seatings_filter]
    simp [seatings, seatUser, Desk.mark, List.count_cons]
  have hpcs : (sitSeated d u seat).pcs.countP (Pc.charges (sitSeated d u seat).d uid)
      = if (d.objs u).id = uid then 1 else 0 := by
    have hout : sitSeated d u seat = if d.owes u = true then .wait (seatUser d u seat) (.sitUse u)
        else sitEnd (seatUser d u seat) u := rfl
    by_cases hu : (d.objs u).id = uid
    · have howes : d.owes u = true := by
        rw [Desk.owes, hu, hAA]
        simpa [htotal] using Ne.symm huid
      rw [if_pos hu, hout, if_pos howes, Out.pcs_wait, List.countP_singleton, if_pos]
      exact beq_iff_eq.2 hu
    · rw [if_neg hu]
      refine List.countP_eq_zero.2 fun pc hpc => ?_
      rcases (sitSeated_same d u seat).2 with hp | hp
      · rw [hp, List.mem_singleton] at hpc
        subst hpc
        simpa [Pc.charges, hid] using hu
      · rw [hp] at hpc
        cases hpc
  rw [hpay, hbill, hseat, List.countP_append, hpcs, charges_congr (fun v _ => hid v) hc.tail.known]
  have := h hAA htotal uid huid
  omega

/-- The bill is presented. -/
theorem Billed.use (inp : Inp) {u : Ref} (h : Billed d (.sitUse u :: rest)) :
    Billed (executed d inp (.sitUse u)) rest := by
  intro hAA htotal uid huid
  have hb := h hAA htotal uid huid
  have hbill : Act.bill uid d.pay.total (.rpc (.useProp (d.objs u).id d.pay.total inp.ret))
      = Pc.charges d uid (.sitUse u) := by
    simp [Act.bill, Pc.charges]
  change seatings uid (.rpc (.useProp (d.objs u).id d.pay.total inp.ret) :: d.hist)
    = billed uid d.pay.total (.rpc (.useProp (d.objs u).id d.pay.total inp.ret) :: d.hist) +
      rest.countP (Pc.charges d uid)
  rw [List.countP_cons] at hb
  rw [seatings, List.count_cons_of_ne (by simp), billed, List.countP_cons, hbill]
  change seatings uid d.hist = billed uid d.pay.total d.hist + _ + _
  omega

/-- A call that is executed, other than a bill. -/
theorem Billed.executed (inp : Inp) {pc : Pc} (hpc : ∀ u, pc ≠ .sitUse u) (hc : Covered d rest)
    (h : Billed d rest) : Billed (executed d inp pc) rest := by
  refine h.quiet (l := []) hc (terms_executed d inp pc) (acts_executed d inp hpc) ?_ (by simp)
  intro u _
  unfold Halieutics.executed
  split <;> rfl

/-- **Every seat stays billed once**, whatever overlaps. -/
theorem Billed.job (inp : Inp) (hc : Covered d (j.pcs ++ rest)) (h : Billed d (j.pcs ++ rest)) :
    Billed (j.out d inp).d ((j.out d inp).pcs ++ rest) := by
  have effect : ∀ {S : ℕ → Prop} {e : Desk}, SeatEffect S e (j.out d inp) →
      (j.out d inp).d.terms = e.terms → Covered e rest → Billed e rest →
      Billed (j.out d inp).d ((j.out d inp).pcs ++ rest) := by
    intro S e he hterms hce hbe
    obtain ⟨hacts, hid, hno⟩ := he.quiet
    exact hbe.quiet hce hterms hacts hid hno
  have hterms := terms_job d inp j
  cases j with
  | req r => exact effect (seatEffect_job d inp (j := .req r) rfl) hterms hc h
  | cmd u c => exact effect (seatEffect_job d inp (j := .cmd u c) rfl) hterms hc h
  | seg pc =>
      have hterms' := hterms.trans (terms_executed d inp pc).symm
      by_cases hsit : ∃ u seat, pc = .sitAdd u seat
      · obtain ⟨u, seat, rfl⟩ := hsit
        have hno : ∀ v, Pc.sitAdd u seat ≠ .sitUse v := by simp
        refine Billed.sit (hc.executed inp hno) hterms' (Billed.executed inp hno hc.tail ?_)
        intro hAA htotal uid huid
        have hb := h hAA htotal uid huid
        rwa [Job.pcs, List.singleton_append, List.countP_cons_of_neg (by simp [Pc.charges])] at hb
      · have he := seatEffect_job d inp (j := .seg pc) (by
          cases pc <;> first | rfl | exact absurd ⟨_, _, rfl⟩ hsit)
        by_cases huse : ∃ u, pc = .sitUse u
        · obtain ⟨u, rfl⟩ := huse
          exact effect he hterms' (Covered.use inp hc) (Billed.use inp h)
        · have hno : ∀ u, pc ≠ .sitUse u := fun u hu => huse ⟨u, hu⟩
          refine effect he hterms' (hc.tail.executed inp hno) (Billed.executed inp hno hc.tail ?_)
          intro hAA htotal uid huid
          have hb := h hAA htotal uid huid
          rwa [Job.pcs, List.singleton_append, List.countP_cons_of_neg] at hb
          cases pc <;> simp_all [Pc.charges]

theorem AllPaid.congr (h : AllPaid d) (hacts : d'.hist.filter Act.seat = d.hist.filter Act.seat) :
    AllPaid d' := by
  refine refused_iff_filter.2 ?_
  rw [hacts]
  exact refused_iff_filter.1 h

/-- Bills are refused only where `prop.use` answers less than nothing. -/
theorem AllPaid.job {inp : Inp} (hafford : ∀ u, j = .seg (.sitUse u) → 0 ≤ inp.ret)
    (h : AllPaid d) :
    AllPaid (j.out d inp).d := by
  have added : ∀ {e : Desk} {a : Act}, e.hist = a :: d.hist → a.refused = false → AllPaid e := by
    intro e a he ha x hx
    rw [he] at hx
    rcases List.mem_cons.1 hx with rfl | hx
    · exact ha
    · exact h x hx
  by_cases hsit : ∃ u seat, j = .seg (.sitAdd u seat)
  · obtain ⟨u, seat, rfl⟩ := hsit
    have hs := (sitSeated_same (executed d inp (.sitAdd u seat)) u seat).1
    have hexec : AllPaid (executed d inp (.sitAdd u seat)) := added rfl rfl
    refine AllPaid.congr (fun x hx => ?_) hs.acts
    rcases List.mem_cons.1 hx with rfl | hx
    · rfl
    · exact hexec x hx
  · have he := seatEffect_job d inp (j := j) (by
      cases j with
      | seg pc => cases pc <;> first | rfl | exact absurd ⟨_, _, rfl⟩ hsit
      | _ => rfl)
    refine AllPaid.congr ?_ he.quiet.1
    cases j with
    | req r => exact h
    | cmd u c => exact h
    | seg pc =>
        by_cases huse : ∃ u, pc = .sitUse u
        · obtain ⟨u, rfl⟩ := huse
          have hret := hafford u rfl
          exact added rfl (decide_eq_false (by omega))
        · exact h.congr (acts_executed d inp fun u hu => huse ⟨u, hu⟩)

end Job

section Runs

variable {C : Sys → Ev → Prop} {id creater timelimit : ℕ} {pay : Pay} {s : Sys}

/-- **Every seat is billed once**, in every run. -/
theorem seatings_eq_billed (h : desk.Reach C (created id creater pay timelimit) s) :
    Billed s.shared (pcs s) := by
  have hinv := h.and_inv (P := fun s => Covered s.shared (pcs s)) fun s hs => covered_of_reach hs
  refine desk_inv (I := Billed) ?_ ?_ ?_ ?_ ?_ hinv
  · intro d l l' hp hI hAA htotal uid huid
    rw [← hp.countP_eq]
    exact hI hAA htotal uid huid
  · exact fun d l b q hI => hI
  · intro d l u c hI hAA htotal uid huid
    rw [List.countP_cons_of_neg (by simp [Pc.charges])]
    exact hI hAA htotal uid huid
  · intro _ _ uid _
    simp [created, pcs, Pc.charges, seatings, billed, Desk.create, Act.bill]
  · intro s e j inp rest hC _ hp _ hI
    exact hI.job inp (hC.2.perm hp)

theorem allPaid_of_affords (h : desk.Reach Affords (created id creater pay timelimit) s) :
    AllPaid s.shared := by
  refine desk_inv (I := fun d _ => AllPaid d) ?_ ?_ ?_ ?_ ?_ h
  · exact fun d l l' _ hI => hI
  · exact fun d l b q hI => hI
  · exact fun d l u c hI => hI
  · intro a ha
    obtain rfl := List.mem_singleton.1 ha
    rfl
  · intro s e j inp rest hC hj _ _ hI
    refine hI.job fun u hu => ?_
    rw [Affords, hj, hu] at hC
    exact hC

/-- **What a failed `sitdown` changes, and who sits unpaid.**  A `sitdown` that is handled without
interruption returns, and it leaves the desk as it was whenever it fails, unless it fails when the
user already has his seat; and in every run in which every balance covers the price, nobody but the
creator sits on an AA desk without having paid for it. -/
theorem failsClean_and_paidFor (id creater timelimit : ℕ) (pay : Pay) :
    (∀ (d : Desk) (uid : ℕ) (withseat : Option ℤ) (balance : ℤ),
      (∃ r, (sitThrough d uid withseat balance).res = .ret r) ∧
        (FailsClean d uid withseat balance ↔ ¬ FailsSeated d uid withseat balance)) ∧
    ∀ s, desk.Reach Affords (created id creater pay timelimit) s → PaidFor s.shared (pcs s) := by
  refine ⟨failsClean_iff, fun s hs hAA htotal uid huid => ?_⟩
  rw [paid_of_allPaid (allPaid_of_affords hs)]
  exact Nat.le_of_eq (seatings_eq_billed hs hAA htotal uid huid)

/-- User 2 sits and pays; user 3, who is not at the desk, is refused. -/
theorem paidFor_joinAndSit : ∃ s, desk.Reach Affords (created 100001 1 ⟨true, 3⟩ 30) s ∧
    seatings 2 s.shared.hist = 1 ∧ PaidFor s.shared (pcs s) ∧ FailsClean s.shared 3 none 0 := by
  obtain ⟨s, hs, hp⟩ := Machine.exists_reach joinAndSit
    (p := fun s => decide (seatings 2 s.shared.hist = 1 ∧ s.shared.usermap.lookup 3 = none))
    (C := Affords) (i := created 100001 1 ⟨true, 3⟩ 30) (M := desk) (by decide +kernel)
  obtain ⟨hseated, hnobody⟩ := of_decide_eq_true hp
  obtain ⟨hclean, hpaid⟩ := failsClean_and_paidFor 100001 1 30 ⟨true, 3⟩
  refine ⟨s, hs, hseated, hpaid s hs, (hclean s.shared 3 none 0).2.2 ?_⟩
  rintro ⟨u, hu, -⟩
  rw [hu.joined] at hnobody
  cases hnobody

/-- **User 2 sits on an AA desk without having paid**: his balance has dropped below the price when
he is asked for it.  The request fails, and he keeps the seat. -/
theorem sits_unpaid :
    (∃ s, desk.Reach Complete (created 100001 1 ⟨true, 3⟩ 30) s ∧ Idle s ∧
      ¬ FailsClean s.shared 2 none 2) ∧
    ∃ s, desk.Reach Complete (created 100001 1 ⟨true, 3⟩ 30) s ∧ Idle s ∧
    ¬ PaidFor s.shared (pcs s) := by
  constructor
  · obtain ⟨s, hs, hp⟩ := Machine.exists_reach
      [.call (.join 2 false) {}, .resume 1 {}, .resume 1 {}]
      (p := fun s => decide (Idle s ∧ s.shared.live = true ∧ s.shared.hasSeat 2 = false ∧
        s.shared.usermap.lookup 2 = some 0 ∧ s.shared.freeseats ≠ [] ∧ s.shared.owes 0 = true ∧
        s.shared.pay.total = 3))
      (C := Complete) (i := created 100001 1 ⟨true, 3⟩ 30) (M := desk) (by decide +kernel)
    obtain ⟨hi, hlive, hstanding, hjoined, hfree, howes, htotal⟩ := of_decide_eq_true hp
    refine ⟨s, hs, hi, fun hclean => (failsClean_iff s.shared 2 none 2).2.1 hclean ?_⟩
    refine ⟨0, ⟨hlive, hstanding, hjoined, hfree, fun _ _ hseat => by cases hseat⟩,
      howes, Or.inl ?_⟩
    omega
  · obtain ⟨s, hs, hp⟩ := Machine.exists_reach
      [.call (.join 2 false) {}, .resume 1 {}, .resume 1 {}, .call (.sitdown 2 none) {},
      .resume 1 {},
        .resume 1 { ret := -1 }]
      (p := fun s => decide (Idle s ∧ s.shared.pay.AA = true ∧ s.shared.pay.total = 3 ∧
        s.shared.creater = 1 ∧
        paid 2 3 s.shared.hist + (pcs s).countP (Pc.charges s.shared 2) < seatings 2 s.shared.hist))
      (C := Complete) (i := created 100001 1 ⟨true, 3⟩ 30) (M := desk) (by decide +kernel)
    obtain ⟨hi, hAA, htotal, hcreater, hlt⟩ := of_decide_eq_true hp
    refine ⟨s, hs, hi, fun hpaid => ?_⟩
    have hle := hpaid hAA (by omega) 2 (by omega)
    rw [htotal] at hle
    omega

end Runs

end Halieutics
