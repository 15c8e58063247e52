/-
**The fish that is caught is the fish that was aimed at.**

`catchfish` finds the fish of the request, prices it by its kind, and keeps a reference to the
object while it asks for the stock and pays.  Meanwhile the fish may expire, and a timer may hand
the object out again, under another id and with another kind: it is then this fish that is freed,
announced and, if it is a bomb or a banker fish, that has its effects.

Main definitions:

* `Halieutics.Priced`, `Halieutics.catching` — what a request for a fish was, and how the fish was
  priced, as the note of its coroutine;
* `Halieutics.announced` — the catch that a segment pays and announces;
* `Halieutics.CaughtRight` — **the fish that is freed, announced and paid is that of the request**.

Main results:

* `Halieutics.Aims.works` — **what the operations on the pool keep of a catch in flight**;
* `Halieutics.caughtRight_iff` — **a catch is right exactly if the fish is still active** when it is
  paid;
* `Halieutics.recycled_while_paying` — a fish expires while it is being paid, and another is caught.
-/

import Halieutics.DeskNotes
import Halieutics.FishStock
import Halieutics.FishSweep

set_option relaxedAutoImplicit false
set_option autoImplicit false

namespace Halieutics

open LuaTable Coroutine

/-! ### The request and its price -/

/-- How the fish of a request was priced: its kind, the configuration, and the number drawn between
`multiple` and `multiplemax`. -/
structure Priced where
  req : CatchReq
  kind : ℤ
  cfg : Cfg
  roll : ℕ

/-- The first segment of `catchfish`, if it goes on to ask for the stock. -/
def priced (d : Desk) (u : Ref) (req : CatchReq) (inp : Inp) : Option Priced :=
  match catchfish d u req inp with
  | .wait _ (.stock c) => some ⟨req, (d.pool.fish c.fish).kind, inp.cfg, inp.roll⟩
  | _ => none

/-- A request for a fish notes what it has found. -/
def priceNote (d : Desk) (inp : Inp) (j : Job) (t : Option Priced) : Option Priced :=
  match j.command d with
  | some (u, .catchfish req) => priced d u req inp
  | _ => t

/-- **The desk, where a request for a fish knows how the fish was priced.** -/
abbrev catching : Machine Desk (Co × Option Priced) Req Inp := noting priceNote none

/-- The state a desk starts in. -/
def unnoted (id creater : ℕ) (pay : Pay) (timelimit : ℕ) : Pool Desk (Co × Option Priced) :=
  ⟨Desk.create id creater pay timelimit, [(⟨.monitor, false⟩, none)]⟩

/-! ### The announcement -/

/-- **The catch that a segment pays and announces**, while the game is on: for a human after
`update_stock`, and for an android, who does not wait for it, after `get_stock`. -/
def announces (d : Desk) (inp : Inp) : Pc → Option Catch
  | .fish (.pay c) => if d.fishing.isSome then some c else none
  | .fish (.stock c) =>
      if d.fishing.isSome && (d.objs c.user).android && inp.hit then
        some { c with stock := inp.ret }
      else none
  | _ => none

/-- The fish whose id and kind `catchfish_bbc` announces. -/
def announced (d : Desk) (c : Catch) : Fish := d.pool.fish c.fish

/-- **The catch is right**: the fish that is announced is the one of the request, with the kind
whose entry priced it; it was active and is freed, and no other fish is; and this kind decides
whether a bomb is recorded and who is the banker. -/
structure CaughtRight (d d' : Desk) (c : Catch) (p : Priced) : Prop where
  id : (announced d c).id = p.req.fishId
  kind : (announced d c).kind = p.kind
  price : ∃ entry, cfgAt p.cfg.fishcfg p.kind = some entry ∧ entry.kind = p.kind ∧
    c.score = fishMultiple entry p.roll * c.multiple
  removed : (d.pool.getFish p.req.fishId).isSome = true
  others : ∀ id, d'.pool.fishActive.lookup id =
    if id = p.req.fishId then none else d.pool.fishActive.lookup id
  bomb : ∀ id, d'.pool.specialFish.lookup id =
    if isBombFish p.kind = true ∧ id = p.req.fishId then some c.multiple
    else d.pool.specialFish.lookup id
  banker : d'.banker = if isBankerFish p.kind then c.seat else d.banker

/-- The announcement is right, and no other active fish is freed; the fish may have expired. -/
structure AnnouncedRight (d d' : Desk) (c : Catch) (p : Priced) : Prop where
  id : (announced d c).id = p.req.fishId
  kind : (announced d c).kind = p.kind
  others : ∀ id, id ≠ p.req.fishId → d'.pool.fishActive.lookup id = d.pool.fishActive.lookup id

/-! ### A catch in flight -/

/-- **What is known of a catch in flight**: the id of its fish was issued, only its object can be
stored under that id, and it has the kind it was priced by as long as it has that id. -/
structure Aims (r : Roles) (c : Catch) (p : Priced) : Prop where
  issued : p.req.fishId ≤ r.fishIdGen
  same : ∀ f, r.fishActive.lookup p.req.fishId = some f → f = c.fish
  kind : (r.fish c.fish).id = p.req.fishId → (r.fish c.fish).kind = p.kind
  price : ∃ entry, cfgAt p.cfg.fishcfg p.kind = some entry ∧ entry.kind = p.kind ∧
    c.score = fishMultiple entry p.roll * c.multiple

section Aims

variable {r r' : Roles} {c : Catch} {p : Priced}

theorem Aims.step (h : Aims r c p) (hs : PoolStep r r') : Aims r' c p := by
  rcases hs.fish with hk | ⟨now, kind, rfl⟩
  · refine ⟨?_, fun f hf => h.same f (hk.active _ f hf), ?_, h.price⟩
    · rw [hk.gen]
      exact h.issued
    · rw [hk.fish]
      exact h.kind
  · -- the fish that is made gets a new id, whatever its object was before
    obtain ⟨f₀, free, n, hr, -⟩ := buildFish_spec r now kind
    have hne : p.req.fishId ≠ r.fishIdGen + 1 := by
      have := h.issued
      omega
    rw [hr]
    refine ⟨Nat.le_succ_of_le h.issued, fun f hf => ?_, fun hid => ?_, h.price⟩
    · have hf : (r.fishActive.insert (r.fishIdGen + 1) f₀).lookup p.req.fishId = some f := hf
      rw [lookup_insert_eq, if_neg hne] at hf
      exact h.same f hf
    · change (Function.update r.fish f₀ _ c.fish).id = _ at hid
      change (Function.update r.fish f₀ _ c.fish).kind = _
      by_cases hf : c.fish = f₀
      · rw [hf, Function.update_self] at hid
        exact absurd hid.symm hne
      · rw [Function.update_of_ne hf] at hid ⊢
        exact h.kind hid

/-- **What the operations on the pool keep of a catch in flight.** -/
theorem Aims.works (h : Aims r c p) (hw : Works r r') : Aims r' c p := by
  induction hw with
  | refl => exact h
  | tail _ hs ih => exact ih.step hs

/-- A request finds its fish and prices it. -/
theorem aims_of_priced {d d' : Desk} {u : Ref} {req : CatchReq} {inp : Inp} (hs : Stocked d.pool)
    (h : catchfish d u req inp = .wait d' (.stock c)) :
    ∃ p, priced d u req inp = some p ∧ Aims d'.pool c p := by
  have hp : priced d u req inp = some ⟨req, (d.pool.fish c.fish).kind, inp.cfg, inp.roll⟩ := by
    unfold priced
    rw [h]
  refine ⟨_, hp, ?_⟩
  unfold catchfish at h
  cases hg : d.mygame with
  | none => rw [hg] at h; cases h
  | some g =>
      rw [hg] at h
      dsimp only at h
      cases hr : g.roles with
      | none => rw [hr] at h; cases h
      | some roles =>
          rw [hr] at h
          dsimp only at h
          have hpool : d.pool = roles := pool_eq (game_of_mygame hg).1 hr
          rcases hb : catchBullet roles req with ⟨roles', _ | b⟩
          · rw [hb] at h; cases h
          · rw [hb] at h
            dsimp only at h
            have hstock : Stocked roles' := (hpool ▸ hs).works (works_catchBullet hb)
            obtain ⟨mine, mine', -, -, hroles⟩ := catchBullet_spec hb
            split at h
            · cases h
            · split at h
              · cases h
              · rename_i f hf
                split at h
                · cases h
                · rename_i entry hentry
                  split at h
                  · cases h
                  · rename_i hkind
                    split at h
                    · cases h
                    · obtain ⟨rfl, hpc⟩ := FishOut.wait.inj h
                      obtain rfl := FishPc.stock.inj hpc
                      have hkinds : (d.pool.fish f).kind = (roles'.fish f).kind := by
                        rw [hpool, hroles]
                      change Aims roles' _ _
                      refine ⟨(hstock.active hf).2.2.2, fun f' hf' => ?_,
                        fun _ => hkinds.symm, entry, ?_,
                        ?_, rfl⟩
                      · exact Option.some_inj.1 (hf'.symm.trans hf)
                      · dsimp only
                        rw [hkinds]
                        exact hentry
                      · dsimp only
                        rw [hkinds]
                        exact not_not.1 hkind

end Aims

/-- **The invariant**: the coroutines of requests for a fish know how it was priced. -/
def Aimed (d : Desk) (l : List (Pc × Option Priced)) : Prop :=
  ∀ q ∈ l, ∀ c, q.1.catch? = some c → ∃ p, q.2 = some p ∧ Aims d.pool c p

section Runs

variable {id creater timelimit : ℕ} {pay : Pay} {s : Pool Desk (Co × Option Priced)}

theorem Aimed.job {d : Desk} {inp : Inp} {j : Job} {t : Option Priced}
    {rest : List (Pc × Option Priced)} (ht : ∀ pc ∈ j.pcs, pc.timely d)
    (he : ∀ pc ∈ j.pcs, pc.early = true → d.game.bind Game.roles = none) (hs : Stocked d.pool)
    (h : Aimed d (j.pcs.map (fun pc => (pc, t)) ++ rest)) :
    Aimed (j.out d inp).d
    ((j.out d inp).pcs.map (fun pc => (pc, priceNote d inp j t)) ++ rest) := by
  have hworks : Works d.pool (j.out d inp).d.pool := works_job inp he
  rintro ⟨pc, n⟩ hq c hc
  rcases List.mem_append.1 hq with hq | hq
  · obtain ⟨pc', hpc, heq⟩ := List.mem_map.1 hq
    obtain ⟨rfl, rfl⟩ := Prod.mk.inj heq
    rcases catch_origin ht hpc hc with ⟨u, req, d', hj, -, h'⟩ | ⟨c₀, d', rfl, -, h'⟩
    · -- a request begins
      obtain ⟨p, hp, haims⟩ := aims_of_priced hs h'
      have hd : (j.out d inp).d = d' := by
        rw [out_of_command inp hj]
        change (Out.fish (catchfish d u req inp)).d = d'
        rw [h']
        rfl
      refine ⟨p, ?_, hd ▸ haims⟩
      unfold priceNote
      rw [hj]
      exact hp
    · -- the stock is known
      have hcatch : c = { c₀ with stock := inp.ret } := (catchStock_pay h').2
      obtain ⟨p, hp, haims⟩ := h (.fish (.stock c₀), t)
        (List.mem_append_left _ (List.mem_map_of_mem (List.mem_singleton.2 rfl))) c₀ rfl
      refine ⟨p, hp, ?_⟩
      have haims : Aims d.pool c p := by
        rw [hcatch]
        exact ⟨haims.issued, haims.same, haims.kind, haims.price⟩
      exact haims.works hworks
  · obtain ⟨p, hp, haims⟩ := h (pc, n) (List.mem_append_right _ hq) c hc
    exact ⟨p, hp, haims.works hworks⟩

theorem aimed_of_reach (h : catching.Reach (fun _ _ => True) (unnoted id creater pay timelimit) s) :
    Aimed s.shared (notes s) := by
  have hbare : ∀ s, catching.Reach (fun _ _ => True) (unnoted id creater pay timelimit) s →
      desk.Reach Always (created id creater pay timelimit) s.bare := fun s hs =>
    Machine.Reach.bare (C := Always) hs
  refine noting_inv ?_ ?_ ?_ ?_ ?_ (h.and_inv fun s hs => And.intro (one_newDesk (hbare s hs))
    (And.intro (early_of_reach (hbare s hs)) (stocked_of_reach (hbare s hs))))
  · exact fun d l l' hp hI q hq => hI q (hp.mem_iff.2 hq)
  · exact fun d l b q hI => hI
  · intro d l u c t hI q hq c' hc
    rcases List.mem_cons.1 hq with rfl | hq
    · cases hc
    · exact hI q hq c' hc
  · intro q hq c hc
    obtain rfl := List.mem_singleton.1 hq
    cases hc
  · rintro s e j inp t rest ⟨-, hone, he, hs⟩ hj hp hI
    have hmem : ∀ pc ∈ j.pcs, pc ∈ pcs s.bare := by
      intro pc hpc
      rw [← notes_fst]
      exact List.mem_map.2 ⟨(pc, t), hp.mem_iff.2 (List.mem_append_left _
        (List.mem_map_of_mem hpc)), rfl⟩
    exact hI.job (fun pc hpc => hone.timely pc (hmem pc hpc)) (fun pc hpc => he pc (hmem pc hpc)) hs

/-- A score can be moved, and the banker stays. -/
theorem calc_scored {d : Desk} {l : List Pc} (hs : Scored d l) (me banker score : ℤ) :
    ∃ e, calcFishscoreAll d me banker score = (e, true) ∧ e.banker = d.banker := by
  obtain ⟨objs, hframe⟩ := calc_frame d me banker score
  have htrue : (calcFishscoreAll d me banker score).2 = true := by
    by_cases hidle : me = banker ∨ d.atSeat me = none ∨ d.atSeat banker = none
    · rw [calc_idle hidle]
    · simp only [not_or] at hidle
      obtain ⟨u, hu⟩ := Option.ne_none_iff_exists'.1 hidle.2.1
      obtain ⟨v, hv⟩ := Option.ne_none_iff_exists'.1 hidle.2.2
      obtain ⟨x, hx⟩ := hs.atSeat hu
      obtain ⟨y, hy⟩ := hs.atSeat hv
      rw [(calc_moves hidle.1 hu hv hx hy score).2]
  exact ⟨_, Prod.ext rfl htrue, (congrArg Desk.banker hframe :)⟩

/-- **The end of `catchfish`** while the game is on. -/
theorem catchPay_spec {d : Desk} {l : List Pc} (hs : Scored d l) {r : Roles}
    (hr : d.fishing = some r)
    (c : Catch) :
    (catchPay d c).d.pool = (if isBombFish (r.fish c.fish).kind then
        (r.freeFish (r.fish c.fish).id).1.specialRecord (r.fish c.fish).id c.multiple
      else (r.freeFish (r.fish c.fish).id).1) ∧
    (catchPay d c).d.banker = if isBankerFish (r.fish c.fish).kind then c.seat else d.banker := by
  obtain ⟨g, hg, hroles⟩ := Option.bind_eq_some_iff.1 hr
  obtain ⟨hgame, hend⟩ := game_of_mygame hg
  unfold catchPay
  rw [hgame]
  dsimp only
  rw [hroles]
  dsimp only
  rw [if_neg (by rw [hend]; exact Bool.false_ne_true)]
  generalize (if isBombFish (r.fish c.fish).kind then
    (r.freeFish (r.fish c.fish).id).1.specialRecord (r.fish c.fish).id c.multiple
    else (r.freeFish (r.fish c.fish).id).1) = r'
  have hs' : Scored (d.withRoles g r') l := hs
  obtain ⟨e, he, hbanker⟩ := calc_scored hs' c.seat (d.withRoles g r').banker c.score
  have hpool := pool_calc (d.withRoles g r') c.seat (d.withRoles g r').banker c.score
  rw [he, pool_withRoles] at hpool
  rw [he]
  dsimp only
  split
  · exact ⟨hpool, rfl⟩
  · exact ⟨hpool, hbanker⟩

/-- What the pool looks like after the fish with the id `i` and the kind `k` has been paid. -/
theorem lookup_paid {r : Roles} {i multiple : ℕ} {k : ℤ} (id : ℕ) :
    (if isBombFish k then (r.freeFish i).1.specialRecord i multiple
      else (r.freeFish i).1).fishActive.lookup id =
        (if id = i then none else r.fishActive.lookup id) ∧
    (if isBombFish k then (r.freeFish i).1.specialRecord i multiple
      else (r.freeFish i).1).specialFish.lookup id =
        if isBombFish k = true ∧ id = i then some multiple else r.specialFish.lookup id := by
  by_cases hk : isBombFish k = true
  · rw [if_pos hk]
    refine ⟨lookup_freeFish r i id, ?_⟩
    change ((r.freeFish i).1.specialFish.insert i multiple).lookup id = _
    rw [special_freeFish, lookup_insert_eq]
    by_cases hid : id = i
    · rw [if_pos hid, if_pos ⟨hk, hid⟩]
    · rw [if_neg hid, if_neg fun h => hid h.2]
  · rw [if_neg hk]
    refine ⟨lookup_freeFish r i id, ?_⟩
    rw [special_freeFish, if_neg fun h => hk h.1]

/-- An android does not wait for `update_stock`. -/
theorem catchStock_android {d : Desk} {c : Catch} {inp : Inp} (hu : (d.objs c.user).android = true)
    (hhit : inp.hit = true) : catchStock d c inp = catchPay d { c with stock := inp.ret } := by
  unfold catchStock
  dsimp only
  rw [hu, hhit]
  split
  · rename_i hno
    exact absurd hno.2 (by decide)
  · rfl

/-- What a payment does to the fish, to the recorded bombs and to the bank. -/
structure Pays (d d' : Desk) (c : Catch) : Prop where
  active : ∀ id, d'.pool.fishActive.lookup id =
    if id = (announced d c).id then none else d.pool.fishActive.lookup id
  bombs : ∀ id, d'.pool.specialFish.lookup id =
    if isBombFish (announced d c).kind = true ∧ id = (announced d c).id then some c.multiple
    else d.pool.specialFish.lookup id
  banker : d'.banker = if isBankerFish (announced d c).kind then c.seat else d.banker

theorem pays_catchPay {d : Desk} {l : List Pc} (hs : Scored d l) (hf : d.fishing.isSome = true)
    (c : Catch) : Pays d (catchPay d c).d c := by
  obtain ⟨r, hr⟩ := Option.isSome_iff_exists.1 hf
  have hpool : d.pool = r := by
    obtain ⟨g, hg, hroles⟩ := Option.bind_eq_some_iff.1 hr
    exact pool_eq (game_of_mygame hg).1 hroles
  obtain ⟨hp, hb⟩ := catchPay_spec hs hr c
  have hfish : announced d c = r.fish c.fish := by rw [announced, hpool]
  constructor
  · intro id
    rw [hp, hpool, hfish]
    exact (lookup_paid id).1
  · intro id
    rw [hp, hpool, hfish]
    exact (lookup_paid id).2
  · rw [hb, hfish]

/-- **The segment that announces a catch pays it**; it is the catch that was in flight. -/
theorem pays_of_announces {d : Desk} {l : List Pc} (hs : Scored d l) {inp : Inp}
    {pc : Pc} {c : Catch}
    (h : announces d inp pc = some c) :
    (∃ c₀, pc.catch? = some c₀ ∧ c = { c₀ with stock := c.stock }) ∧
      Pays d (Job.out d inp (.seg pc)).d c := by
  have hsame := sameGame_executed d inp pc
  have hgame : (executed d inp pc).game = d.game ∧ (executed d inp pc).banker = d.banker := by
    unfold executed
    split
    · exact ⟨rfl, rfl⟩
    · exact ⟨rfl, rfl⟩
  have hfishing : (executed d inp pc).fishing = d.fishing := by
    rw [Desk.fishing, Desk.fishing, Desk.mygame, Desk.mygame, hgame.1]
  have pays : d.fishing.isSome = true → Pays d (catchPay (executed d inp pc) c).d c := by
    intro hf
    have hp := pays_catchPay (scored_executed inp pc hs) (hfishing ▸ hf) c
    have hann : announced (executed d inp pc) c = announced d c := by
      rw [announced, announced, hsame.pool]
    constructor
    · rw [← hann, ← hsame.pool]
      exact hp.active
    · rw [← hann, ← hsame.pool]
      exact hp.bombs
    · rw [← hann, ← hgame.2]
      exact hp.banker
  unfold announces at h
  split at h
  · split at h
    · rename_i hf
      obtain rfl := Option.some_inj.1 h
      refine ⟨⟨_, rfl, rfl⟩, ?_⟩
      rw [Job.out, segment, d_fish]
      exact pays hf
    · cases h
  · split at h
    · rename_i c₀ hf
      obtain rfl := Option.some_inj.1 h
      simp only [Bool.and_eq_true] at hf
      refine ⟨⟨c₀, rfl, rfl⟩, ?_⟩
      rw [Job.out, segment, d_fish, fishSegment, catchStock_android _ hf.2]
      · exact pays hf.1.1
      · rw [objs_executed]
        exact hf.1.2
    · cases h
  · cases h

/-- What a step of the desk does to the fish and to the bank is what the segment does. -/
theorem exec_catching {k : ℕ} {co : Co} {t : Option Priced} {inp : Inp}
    {s' : Pool Desk (Co × Option Priced)} (hk : s.cos[k]? = some (co, t))
    (he : catching.exec s (.resume k inp) = some s') :
    s'.shared.pool = (Job.out s.shared inp (.seg co.pc)).d.pool ∧
      s'.shared.banker = (Job.out s.shared inp (.seg co.pc)).d.banker := by
  rcases Machine.exec_cases he with ⟨_, _, h, _⟩ | ⟨k', inp', l, p, r, out, h, hk', -, ho, rfl⟩
  · cases h
  · obtain ⟨rfl, rfl⟩ := Event.resume.inj h
    obtain rfl := Option.some_inj.1 (hk.symm.trans hk')
    obtain ⟨left, hleft, rfl⟩ := Option.map_eq_some_iff.1 ho
    have hsettle : left = settle co.cs (Job.out s.shared inp (.seg co.pc)) := by
      by_cases hen : co.pc.enabled s.shared inp = true
      · simpa [desk, deskResume, hen] using hleft.symm
      · simp [desk, deskResume, hen] at hleft
    obtain ⟨b, q, m, hd, -⟩ := settle_spec co.cs (Job.out s.shared inp (.seg co.pc))
    rw [hsettle, hd]
    exact ⟨rfl, rfl⟩

/-- **A catch is right exactly if its fish is still active when it is paid.**  In every run, for
every step that pays and announces a catch: its coroutine knows the request and how the fish was
priced; and the announcement alone is right exactly if the object is still that fish. -/
theorem caughtRight_iff (h : catching.Reach (fun _ _ => True) (unnoted id creater pay timelimit) s)
    {k : ℕ} {co : Co} {t : Option Priced} {inp : Inp}
    {s' : Pool Desk (Co × Option Priced)} {c : Catch}
    (hk : s.cos[k]? = some (co, t)) (he : catching.exec s (.resume k inp) = some s')
    (hc : announces s.shared inp co.pc = some c) :
    ∃ p, t = some p ∧
      (CaughtRight s.shared s'.shared c p ↔ (s.shared.pool.getFish p.req.fishId).isSome = true) ∧
      (AnnouncedRight s.shared s'.shared c p ↔ (announced s.shared c).id = p.req.fishId) := by
  have hbare : desk.Reach Always (created id creater pay timelimit) s.bare :=
    Machine.Reach.bare (C := Always) h
  obtain ⟨⟨c₀, hc₀, hcatch⟩, hpays⟩ := pays_of_announces (scored_of_reach hbare) hc
  obtain ⟨hpool, hbank⟩ := exec_catching hk he
  have hmem : (co.pc, t) ∈ notes s := List.mem_map.2 ⟨(co, t), List.mem_of_getElem? hk, rfl⟩
  obtain ⟨p, hp, haims⟩ := aimed_of_reach h _ hmem c₀ hc₀
  have haims : Aims s.shared.pool c p := by
    rw [hcatch]
    exact ⟨haims.issued, haims.same, haims.kind, haims.price⟩
  have hactive : ∀ i, s'.shared.pool.fishActive.lookup i =
      if i = (announced s.shared c).id then none else s.shared.pool.fishActive.lookup i := by
    rw [hpool]
    exact hpays.active
  refine ⟨p, hp, ⟨fun hr => hr.removed, fun hsome => ?_⟩, fun hr => hr.id, fun hid => ?_⟩
  · obtain ⟨f, hf⟩ := Option.isSome_iff_exists.1 hsome
    obtain rfl := haims.same f hf
    have hid : (announced s.shared c).id = p.req.fishId := ((stocked_of_reach hbare).active hf).1
    have hkind : (announced s.shared c).kind = p.kind := haims.kind hid
    refine ⟨hid, hkind, haims.price, hsome, ?_, ?_, ?_⟩
    · rw [← hid]
      exact hactive
    · rw [hpool, ← hid, ← hkind]
      exact hpays.bombs
    · rw [hbank, ← hkind]
      exact hpays.banker
  · refine ⟨hid, haims.kind hid, fun i hi => ?_⟩
    rw [hactive i, hid, if_neg hi]

end Runs

/-! ### Two runs -/

/-- The catch that is paid next by the coroutine behind `new_desk`, when nothing is wrong
outside. -/
def paysNext (s : Pool Desk (Co × Option Priced)) : Option (Co × Priced × Catch) :=
  match s.cos with
  | [_, (co, some p)] => (announces s.shared {} co.pc).map fun c => (co, p, c)
  | _ => none

theorem paysNext_spec {s : Pool Desk (Co × Option Priced)} {co : Co} {p : Priced} {c : Catch}
    (h : paysNext s = some (co, p, c)) :
    s.cos[1]? = some (co, some p) ∧ announces s.shared {} co.pc = some c := by
  unfold paysNext at h
  split at h
  · rename_i co' p' hcos
    obtain ⟨c', hc, heq⟩ := Option.map_eq_some_iff.1 h
    obtain ⟨rfl, hpc⟩ := Prod.mk.inj heq
    obtain ⟨rfl, rfl⟩ := Prod.mk.inj hpc
    exact ⟨by rw [hcos]; rfl, hc⟩
  · cases h

/-- A fish is caught, and the timers are quiet. -/
theorem caughtRight_catchOne : ∃ s s' k co p c,
    catching.Reach (fun _ _ => True) (unnoted 100001 1 ⟨true, 3⟩ 30) s ∧
    s.cos[k]? = some (co, some p) ∧ catching.exec s (.resume k {}) = some s' ∧
    announces s.shared {} co.pc = some c ∧ CaughtRight s.shared s'.shared c p := by
  obtain ⟨s, hs, hp⟩ := Machine.exists_reach (gameOn ++ catchOne)
    (p := fun s => (paysNext s).any fun x : Co × Priced × Catch =>
      (s.shared.pool.getFish x.2.1.req.fishId).isSome &&
      (catching.exec s (.resume 1 {})).isSome) (C := fun _ _ => True)
    (i := unnoted 100001 1 ⟨true, 3⟩ 30) (M := catching) (by decide +kernel)
  obtain ⟨⟨co, p, c⟩, hnext, hp⟩ := (Option.any_eq_true _ _).1 hp
  obtain ⟨hactive, hexec⟩ := (Bool.and_eq_true _ _).mp hp
  obtain ⟨s', he⟩ := Option.isSome_iff_exists.1 hexec
  obtain ⟨hk, hc⟩ := paysNext_spec hnext
  obtain ⟨q, hq, hright, -⟩ := caughtRight_iff hs hk he hc
  obtain rfl := Option.some_inj.1 hq
  exact ⟨s, s', 1, co, p, c, hs, hk, he, hc, hright.2 hactive⟩

/-- **A fish expires while it is being paid, and its object becomes another fish**: it is the other
fish that is announced and freed. -/
theorem recycled_while_paying :
    ¬ ∀ (id creater timelimit : ℕ) (pay : Pay) (s s' : Pool Desk (Co × Option Priced))
    (k : ℕ) (co : Co)
        (p : Priced) (inp : Inp) (c : Catch),
      catching.Reach (fun _ _ => True) (unnoted id creater pay timelimit) s →
      s.cos[k]? = some (co, some p) → catching.exec s (.resume k inp) = some s' →
      announces s.shared inp co.pc = some c → CaughtRight s.shared s'.shared c p := by
  intro hall
  obtain ⟨s, hs, hp⟩ := Machine.exists_reach (gameOn ++ catchOne ++
      [.call .clearTrace { now := 100 }, .call .buildFish { now := 100, kinds := [1] }])
    (p := fun s => (paysNext s).any fun x : Co × Priced × Catch => decide (x.2.1.req.fishId = 1) &&
      decide ((announced s.shared x.2.2).id = 2) &&
      (catching.exec s (.resume 1 {})).isSome) (C := fun _ _ => True)
    (i := unnoted 100001 1 ⟨true, 3⟩ 30) (M := catching) (by decide +kernel)
  obtain ⟨⟨co, p, c⟩, hnext, hp⟩ := (Option.any_eq_true _ _).1 hp
  simp only [Bool.and_eq_true, decide_eq_true_eq] at hp
  obtain ⟨⟨hreq, hann⟩, hexec⟩ := hp
  obtain ⟨s', he⟩ := Option.isSome_iff_exists.1 hexec
  obtain ⟨hk, hc⟩ := paysNext_spec hnext
  have hright := hall _ _ _ _ s s' 1 co p {} c hs hk he hc
  rw [hright.id, hreq] at hann
  exact absurd hann (by decide)

end Halieutics
